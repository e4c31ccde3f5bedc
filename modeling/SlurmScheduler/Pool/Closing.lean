import SlurmScheduler.Pool.Scripts

namespace SlurmScheduler.Pool

open Relational PoolTx

/-- The session is live when it is closed, or it was closed with the same outcome. -/
def Write.keepsOutcome (sid : ℕ) (db : Db) : Write → Bool
  | .closeSession x _ c _ _ _ => db.passesOver sid fun s ↦
      s.id == x && (s.state.terminal && s.state != c.outcome)
  | _ => true

theorem failTargetCohorts_desks (sid : ℕ) (now : Time) (reason : String) (db : Db) :
    (failTargetCohorts sid now reason db).sessions = db.sessions ∧
      (failTargetCohorts sid now reason db).allocations = db.allocations := by
  unfold failTargetCohorts
  generalize db.targetCohorts sid = keys
  induction keys generalizing db with
  | nil => exact ⟨rfl, rfl⟩
  | cons key keys ih => exact ih _

theorem closeOccupants_desks (sid : ℕ) (c : Closure) (live : ℕ) (expires now : Time) (db : Db) :
    (closeOccupants sid c live expires now db).sessions = db.sessions ∧
      (closeOccupants sid c live expires now db).allocations = db.allocations := by
  unfold closeOccupants
  split
  · exact ⟨rfl, rfl⟩
  · split <;> exact ⟨rfl, rfl⟩

theorem closeSession_sessions (sid aid : ℕ) (c : Closure) (live : ℕ) (expires now : Time)
    (db : Db) : (closeSession sid aid c live expires now db).sessions =
      (finishSession sid c now db).sessions := by
  have hfinish : (closeSession sid aid c live expires now db).sessions =
      (finishSession sid c now (closeOccupants sid c live expires now
        (failTargetCohorts sid now (closeReason sid c) db))).sessions := by
    unfold closeSession
    dsimp only
    split <;> rfl
  simp only [hfinish, finishSession, Db.onSessions, (closeOccupants_desks ..).1,
    (failTargetCohorts_desks ..).1]

theorem closeSession_allocations (sid aid : ℕ) (c : Closure) (live : ℕ) (expires now : Time)
    (db : Db) : (closeSession sid aid c live expires now db).allocations =
      if !c.success && aid != 0 then
        (drainAllocation aid faultedDesktopAllocationRecycleReason now db).allocations
      else db.allocations := by
  have hbefore : (finishSession sid c now (closeOccupants sid c live expires now
      (failTargetCohorts sid now (closeReason sid c) db))).allocations = db.allocations :=
    (closeOccupants_desks ..).2.trans (failTargetCohorts_desks ..).2
  unfold closeSession
  dsimp only
  split
  · simp only [drainAllocation, Db.onAllocations, hbefore]
  · exact hbefore

theorem settled_rules (sid : ℕ) {state : SessionState} (hterm : state.terminal = true) :
    SessionRules (fun db w ↦ w.keepsOutcome sid db = true) Sound
      fun s ↦ s.id = sid ∧ s.state = state where
  plain {db w s s'} _ _ hC hs hs' hm hq := by
    obtain ⟨hid, hstate⟩ := hq
    refine ⟨hm.id.trans hid, ?_⟩
    by_cases hkeeps : w.keeps .closure = true
    · exact (hm.settled hkeeps (hstate ▸ hterm)).trans hstate
    · -- a closure, which has the outcome of the first one
      cases w <;> try exact (hkeeps rfl).elim
      rename_i x aid c live expires now
      simp only [Write.exec, closeSession_sessions] at hs'
      rw [Db.onSessions_row hs hs' hm.id]
      split
      · rename_i hx
        simp only [Write.keepsOutcome, Db.passesOver, List.all_eq_true, Bool.or_eq_true,
          bne_iff_ne, ne_eq, Bool.not_eq_true', Bool.and_eq_false_iff] at hC
        have hspared := (hC s hs).resolve_left fun hne ↦ hne hid
        simp only [hx, hstate, hterm, Bool.true_eq_false, false_or, bne_eq_false_iff_eq] at hspared
        exact hspared.symm
      · exact hstate
  placed _ _ hm hq :=
    ⟨hm.id.trans hq.1, (hm.settled (by rintro ⟨⟩) (hq.2 ▸ hterm)).trans hq.2⟩
  granted _ _ _ _ hq := hq

/-- The call is made by the host of the session. -/
def Call.fromHost (sid : ℕ) (token : String) : Call → Prop
  | closeSession x t _ => x = sid ∧ t = token
  | reportSessionFault x t _ => x = sid ∧ t = token
  | completeRelease x t _ _ _ => x = sid ∧ t = token
  | heartbeatSession x t _ => x = sid ∧ t = token
  | registerSession q _ => q.sessionId = sid
  | _ => False

def Allocation.recycling (a : Allocation) : AllocationStatus × String × Option Time :=
  (a.state, a.drainReason, a.drainAt)

def SameRecycling (db db' : Db) : Prop :=
  db'.allocations.rows.map (fun a ↦ (a.id, a.recycling)) =
    db.allocations.rows.map fun a ↦ (a.id, a.recycling)

def Db.Recycled (db : Db) (aid : ℕ) : Prop :=
  ∀ a ∈ db.allocations, a.id = aid → a.state.drainable = true →
    a.state = .draining ∧ a.drainReason = faultedDesktopAllocationRecycleReason ∧
      a.drainAt.isSome = true

/-- The call of a closed session's host finds no allocation that it would drain. -/
def Call.sparesNode (svc : Service) (sid : ℕ) (seen : Session) (db : Db) : Call → Prop
  | closeSession _ _ closure => closure.success = true ∨
      ∀ s ∈ db.sessions, s.id = sid → s.allocationId = 0 ∨ db.Recycled s.allocationId
  | reportSessionFault _ _ fault =>
      SessionFaultKind.parse (svc.lower (svc.strip fault.kind)) = some .confirmedAedtDeath →
        db.Recycled seen.allocationId
  | _ => True

variable {svc : Service} {env : Env} {db : Db} {sid : ℕ} {token : String}

theorem sameRecycling_congr {d d' : Db} (h : d.allocations = d'.allocations) :
    SameRecycling db d ↔ SameRecycling db d' := by
  rw [SameRecycling, SameRecycling, h]

theorem drainAllocation_same_iff {d : Db} {aid : ℕ} {now : Time}
    (hd : d.allocations = db.allocations) :
    SameRecycling db (drainAllocation aid faultedDesktopAllocationRecycleReason now d) ↔
      db.Recycled aid := by
  simp only [SameRecycling, drainAllocation, Db.onAllocations, hd, Table.update, List.map_map,
    List.map_inj_left, Function.comp_apply, Db.Recycled]
  refine forall₂_congr fun a _ ↦ ?_
  by_cases hp : (a.id == aid && a.state.drainable) = true
  · simp only [Bool.and_eq_true, beq_iff_eq] at hp
    obtain ⟨rfl, hdrain⟩ := hp
    simp only [hdrain, beq_self_eq_true, Bool.and_self, if_true, Allocation.recycling,
      Prod.mk.injEq, true_and, forall_const]
    cases a.drainAt <;> simp [eq_comm]
  · rw [if_neg hp]
    refine iff_of_true rfl fun hid hdrain ↦ (hp ?_).elim
    simp [hid, hdrain]

def Write.desksOnly : Write → Bool
  | .failCohort .. | .expireCohort .. | .releaseTaskReservations .. | .releaseLeaseReservations ..
  | .abortCanary .. | .finishCanaries .. | .advanceCursor .. | .place .. => true
  | .completeRelease .. => true
  | _ => false

theorem refreshSessions_allocations (sids : List ℕ) (now : Time) (db : Db) :
    (refreshSessions sids now db).allocations = db.allocations := by
  obtain ⟨sessions, hframe⟩ := refreshSessions_frame sids now db
  rw [hframe]

theorem desksOnly_allocations {w : Write} (h : w.desksOnly = true) (db : Db) :
    (w.exec db).allocations = db.allocations := by
  cases w <;> try cases h
  case failCohort key now reason settle refresh =>
    simp only [Write.exec, refreshSessions_allocations]
    unfold failCohort
    cases settle <;> rfl
  case place l x slot offerExpires now =>
    simp only [Write.exec]
    unfold place seatLease refreshSession consumeReservation
    dsimp only
    split <;> split <;> rfl
  case completeRelease sid leaseId success message now =>
    simp only [Write.exec, completeRelease]
    cases success <;> rfl
  all_goals rfl

abbrev DesksOnly : Db → Write → Prop := fun _ w ↦ w.desksOnly = true

theorem refreshExactSessionReservations_desks (now : Time) :
    Tx.Guarded DesksOnly (refreshExactSessionReservations now) := by
  have hwrite : ∀ w : Write, w.desksOnly = true → Tx.Guarded DesksOnly (write w) :=
    fun w hw ↦ .write fun _ ↦ hw
  have hsiblings : Tx.Guarded DesksOnly (failTerminalSiblings now) :=
    Tx.Guarded.read.bind fun rows ↦
      (Tx.Guarded.fold fun failed row _ ↦ .ite .ret ((hwrite _ rfl).bind fun _ ↦ .ret)).bind
        fun _ ↦ .ret
  have hexpire : Tx.Guarded DesksOnly (expireCohorts now) :=
    Tx.Guarded.read.bind fun keys ↦ .forEach fun key _ ↦ hwrite _ rfl
  have htargets : Tx.Guarded DesksOnly (failInvalidTargets now) :=
    Tx.Guarded.read.bind fun keys ↦ .forEach fun key _ ↦ Tx.Guarded.read.bind fun _ ↦
      hwrite _ rfl
  exact hsiblings.bind fun _ ↦ hexpire.bind fun _ ↦ (hwrite _ rfl).bind fun _ ↦
    (hwrite _ rfl).bind fun _ ↦ htargets

theorem placeLease_desks (cfg : AedtPoolConfig) (now clock : Time) (l : Lease) :
    Tx.Guarded DesksOnly (placeLease cfg now clock l) := by
  intro s
  simp only [placeLease, Tx.wp_bind, wp_read, Tx.wp_ite, Tx.wp_pure, implies_true, true_and]
  intro _
  split
  · exact Tx.wp_pure.mpr trivial
  · simp only [Tx.wp_bind, wp_read, wp_require, Tx.wp_ite, Tx.wp_require, wp_write, Tx.wp_pure]
    exact fun _ _ ↦ ⟨fun _ _ ↦ ⟨rfl, trivial⟩, fun _ ↦ trivial⟩

theorem placeQueuedLeases_desks (cfg : AedtPoolConfig) (now clock : Time)
    (leaseIds : Option (List ℕ)) (refreshReservations : Bool) :
    Tx.Guarded DesksOnly (placeQueuedLeases cfg now clock leaseIds refreshReservations) := by
  have hwrite : ∀ w : Write, w.desksOnly = true → Tx.Guarded DesksOnly (write w) :=
    fun w hw ↦ .write fun _ ↦ hw
  have hcanaries : Tx.Guarded DesksOnly (refreshMixedCanaryAdmissions now) :=
    Tx.Guarded.read.bind fun candidates ↦
      (Tx.Guarded.forEach fun a _ ↦ hwrite _ rfl).bind fun _ ↦ hwrite _ rfl
  have hloop : ∀ queued, Tx.Guarded DesksOnly (Tx.forEach queued (placeLease cfg now clock)) :=
    fun queued ↦ .forEach fun l _ ↦ placeLease_desks cfg now clock l
  have hbatch : Tx.Guarded DesksOnly (do
      let queued ← read (·.placementBatch cfg now leaseIds)
      if leaseIds.isNone then
        write (.advanceCursor ((queued.getLast?.map (·.id)).getD 0))
      Tx.forEach queued (placeLease cfg now clock)) :=
    Tx.Guarded.read.bind fun queued ↦ .ite ((hwrite _ rfl).bind fun _ ↦ hloop queued)
      (hloop queued)
  refine .ite .ret (hcanaries.bind fun _ ↦ .ite ?_ hbatch)
  exact (refreshExactSessionReservations_desks now).bind fun _ ↦ hbatch

theorem completeRelease_desks (leaseId : ℕ) (success : Bool) (message : String) :
    Tx.Guarded DesksOnly (svc.completeRelease env sid token leaseId success message) := by
  intro s
  simp only [Service.completeRelease, Tx.wp_bind, wp_lift, wp_read, wp_require, Tx.wp_ite,
    wp_check, wp_write]
  refine fun _ _ l _ ↦ ⟨fun _ _ ↦ trivial, fun _ ↦ ⟨rfl, ?_⟩⟩
  refine Tx.wp_mono (refreshExactSessionReservations_desks env.now _) fun _ s _ ↦ ?_
  exact ⟨fun _ ↦ placeQueuedLeases_desks _ _ _ _ _ s, fun _ ↦ Tx.wp_pure.mpr trivial⟩

theorem closeSession_commit {seen s : Session} (closure : Closure)
    (hauth : svc.authorizeSession env.seen sid token = .ok seen)
    (hfind : db.sessions.find? sid = some s) :
    (svc.closeSession env sid token closure).commit db =
      if 0 < db.used sid && closure.success then db
      else closeSession sid s.allocationId { closure with message := svc.strip closure.message }
        (db.used sid) (env.clock + env.cfg.leaseTtlSeconds) env.now db := by
  simp only [Service.closeSession, getSession, commit_lift hauth, Tx.andThen_assoc, commit_read,
    commit_require, hfind, Option.elim_some, commit_check]
  cases (decide (0 < db.used sid) && closure.success) <;> rfl

theorem reportSessionFault_commit {seen : Session} (fault : SessionFault)
    (hauth : svc.authorizeSession env.seen sid token = .ok seen) :
    SameRecycling db ((svc.reportSessionFault env sid token fault).commit db) ↔
      (SessionFaultKind.parse (svc.lower (svc.strip fault.kind)) = some .confirmedAedtDeath →
        db.Recycled seen.allocationId) := by
  simp only [Service.reportSessionFault, commit_lift hauth, commit_require]
  cases SessionFaultKind.parse (svc.lower (svc.strip fault.kind)) with
  | none => exact iff_of_true rfl (by rintro ⟨⟩)
  | some kind =>
    cases kind with
    | nativeProbeSuspect => exact iff_of_true rfl (by rintro ⟨⟩)
    | confirmedAedtDeath =>
      refine Iff.trans (drainAllocation_same_iff ?_) ⟨fun h _ ↦ h, fun h ↦ h rfl⟩
      rfl

theorem heartbeat_finished {s : Session} (hs : s ∈ db.sessions) (hid : s.id = sid)
    (hterm : s.state.terminal = true) (q : SessionHeartbeat) :
    Tx.wp (fun _ _ ↦ False) (svc.heartbeatSession env sid token q) (fun _ _ ↦ True) db := by
  simp only [Service.heartbeatSession, Service.validateSessionHeartbeat, Tx.wp_bind, wp_lift,
    wp_check, wp_read, Tx.wp_ite, Tx.wp_pure]
  intro _ _ _ _ _ _ _
  refine ⟨fun _ ↦ trivial, fun _ x hx hserving ↦ ?_⟩
  have hfind : db.sessions.find? sid = some s := Table.find?_eq_some.mpr ⟨hs, hid⟩
  simp only [Service.authorizeSession, hfind] at hx
  split at hx <;> cases hx
  have hlive : (s.state.serving || s.state == .unhealthy) = false := by
    cases hstate : s.state <;> simp_all [SessionState.terminal, SessionState.serving]
  simp [hlive] at hserving

theorem registerSession_finished {s : Session} (hterm : s.state.terminal = true)
    (q : RegistrationRequest) (hfind : db.sessions.find? q.sessionId = some s) :
    Tx.wp (fun _ _ ↦ False) (svc.registerSession env q) (fun _ _ ↦ False) db := by
  have hidle : s.state.serving = false ∧ s.state ≠ .unhealthy ∧ s.state ≠ .starting := by
    cases hstate : s.state <;> simp_all [SessionState.terminal, SessionState.serving]
  simp only [Service.registerSession, Service.authorizeBootstrap, getSession, Tx.wp_bind, wp_lift,
    wp_check, wp_read, wp_require, Tx.wp_ite, Tx.wp_pure, Tx.wp_require, hfind]
  rintro - - profile - _ ⟨⟩ -
  refine ⟨fun hsame ↦ ?_, fun _ hstart ↦ ?_⟩
  · simp [hidle] at hsame
  · simp [hidle, Session.startTimedOut] at hstart

/-- A call of the host of a closed session recycles no allocation, unless it is a failing close
or the report of a confirmed death that finds the allocation in reach. -/
theorem host_call_recycles_iff {seen s : Session} (hs : s ∈ db.sessions) (hid : s.id = sid)
    (hterm : s.state.terminal = true) (hauth : svc.authorizeSession env.seen sid token = .ok seen)
    {call : Call} (hcall : call.fromHost sid token) :
    SameRecycling db (call.perform svc env db) ↔ call.sparesNode svc sid seen db := by
  have hfind : db.sessions.find? sid = some s := Table.find?_eq_some.mpr ⟨hs, hid⟩
  have hsame : ∀ {db' : Db}, db'.allocations = db.allocations → SameRecycling db db' :=
    fun h ↦ (sameRecycling_congr h).mpr rfl
  cases call <;> simp only [Call.fromHost] at hcall <;> try exact hcall.elim
  case completeRelease leaseId success message =>
    obtain ⟨rfl, rfl⟩ := hcall
    simp only [Call.perform, Call.transactions, Call.performAll_singleton]
    refine iff_of_true (hsame ?_) trivial
    obtain ⟨ws, hws, hcommit⟩ := (completeRelease_desks leaseId success message).commit db
    rw [hcommit]
    exact hws.preserves (I := fun db' ↦ db'.allocations = db.allocations)
      (fun db' w hdb' hw ↦ (desksOnly_allocations hw db').trans hdb') rfl
  case closeSession id _ closure =>
    obtain ⟨rfl, rfl⟩ := hcall
    simp only [Call.perform, Call.transactions, Call.performAll_singleton,
      closeSession_commit closure hauth hfind, Call.sparesNode]
    have honly : (∀ x ∈ db.sessions, x.id = id → x.allocationId = 0 ∨
        db.Recycled x.allocationId) ↔ s.allocationId = 0 ∨ db.Recycled s.allocationId :=
      ⟨fun h ↦ h s hs hid, fun h x hx hxid ↦
        Table.eq_of_key_eq hs hx (hid.trans hxid.symm) ▸ h⟩
    rw [honly]
    by_cases hsuccess : closure.success = true
    · refine iff_of_true ?_ (.inl hsuccess)
      split
      · exact hsame rfl
      · exact hsame (by simp [closeSession_allocations, hsuccess])
    · simp only [Bool.not_eq_true] at hsuccess
      simp only [hsuccess, Bool.and_false, Bool.false_eq_true, if_false, false_or]
      by_cases haid : s.allocationId = 0
      · refine iff_of_true (hsame ?_) (.inl haid)
        simp [closeSession_allocations, haid]
      · rw [or_iff_right haid, ← @drainAllocation_same_iff db db s.allocationId env.now rfl]
        refine sameRecycling_congr ?_
        simp [closeSession_allocations, haid]
  case reportSessionFault fault =>
    obtain ⟨rfl, rfl⟩ := hcall
    simp only [Call.perform, Call.transactions, Call.performAll_singleton]
    exact reportSessionFault_commit fault hauth
  case heartbeatSession q =>
    obtain ⟨rfl, rfl⟩ := hcall
    simp only [Call.perform, Call.transactions, Call.performAll_singleton]
    refine iff_of_true ?_ trivial
    rw [Tx.commit_eq_self (heartbeat_finished hs hid hterm q)]
    exact hsame rfl
  case registerSession q pass =>
    have hraise := (@registerSession_finished svc env db s hterm q (hcall ▸ hfind)).2
    refine iff_of_true ?_ trivial
    simp only [Call.perform, Call.transactions, Call.performAll]
    rcases hm : (svc.registerSession env q db).1 with e | a
    · exact hsame rfl
    · exact (hraise a hm).elim

/-- A closed session keeps its state as long as no later close has another outcome, and the calls
of its host recycle no allocation exactly when they spare the node. -/
theorem terminal_absorbing (svc : Service) (db db' : Db) (s : Session)
    (h : Reachable svc AnyWrite db) (hs : s ∈ db.sessions) (hterm : s.state.terminal = true)
    (hrun : Run svc (fun db w ↦ w.keepsOutcome s.id db = true) db db') :
    (∀ s' ∈ db'.sessions, s'.id = s.id → s'.state = s.state) ∧
      ∀ (env : Env) (token : String) (seen : Session) (call : Call),
        svc.authorizeSession env.seen s.id token = .ok seen → call.fromHost s.id token →
        (SameRecycling db' (call.perform svc env db') ↔ call.sparesNode svc s.id seen db') := by
  have hstable := ((settled_rules s.id hterm).some_session fun _ hdb ↦ hdb).stable fun _ hdb ↦ hdb
  obtain ⟨x, hx, hid, hstate⟩ := hrun.stable sound_invariant hstable (h.holds sound_invariant)
    ⟨s, hs, rfl, rfl⟩
  refine ⟨fun s' hs' hid' ↦ ?_, fun env token seen call hauth hcall ↦ ?_⟩
  · rw [Table.eq_of_key_eq hs' hx (hid'.trans hid.symm), hstate]
  · exact host_call_recycles_iff hx hid (hstate ▸ hterm) hauth hcall

def closedDesktop : Db :=
  script sampleService (openDesktop .empty ++
    [.call {} 100010 (.closeSession 1 "host-token" { success := true })]) {}

theorem closedDesktop_reachable : Reachable sampleService AnyWrite closedDesktop :=
  reachable_script (by decide)

def closeAgain (success : Bool) : Call := .closeSession 1 "host-token" { success }

def closedAgain (success : Bool) : Db :=
  script sampleService [.call {} 100020 (closeAgain success)] closedDesktop

theorem terminal_absorbing_replayed_close :
    (closedAgain true).desktop.state = closedDesktop.desktop.state ∧
      (SameRecycling (closedAgain true) ((closeAgain false).perform sampleService
        { cfg := {}, now := 100030, clock := 100030, seen := closedDesktop } (closedAgain true)) ↔
      (closeAgain false).sparesNode sampleService 1 closedDesktop.desktop (closedAgain true)) := by
  have hrun : Run sampleService (fun db w ↦ w.keepsOutcome closedDesktop.desktop.id db = true)
      closedDesktop (closedAgain true) :=
    run_script_from (closedDesktop_reachable.holds sound_invariant) (by decide)
  have hkept := terminal_absorbing sampleService closedDesktop (closedAgain true)
    closedDesktop.desktop closedDesktop_reachable (Db.desktop_mem (by decide))
    (by decide) hrun
  exact ⟨hkept.1 _ (Db.desktop_mem (by decide)) (by decide),
    hkept.2 _ "host-token" _ _ (by rfl) ⟨by decide, rfl⟩⟩

/-- The second close of a host that failed at exit turns a closed session into a failed one. -/
theorem second_close_fails :
    ¬ ∀ (svc : Service) (db db' : Db), Reachable svc AnyWrite db → Run svc AnyWrite db db' →
      ∀ s ∈ db.sessions, s.state.terminal = true → ∀ s' ∈ db'.sessions, s'.id = s.id →
        s'.state = s.state := by
  intro h
  have hkept := h sampleService closedDesktop (closedAgain false) closedDesktop_reachable
    (run_script_from (closedDesktop_reachable.holds sound_invariant) (by decide))
    closedDesktop.desktop (Db.desktop_mem (by decide)) (by decide)
    (closedAgain false).desktop (Db.desktop_mem (by decide)) (by decide)
  exact absurd hkept (by decide)

end SlurmScheduler.Pool
