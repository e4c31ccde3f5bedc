import SlurmScheduler.Pool.Scripts

namespace SlurmScheduler.Pool

open Relational PoolTx

/-- The call is made with the token of the lease. -/
def Call.madeWith (leaseId : ℕ) (token : String) : Call → Prop
  | heartbeatLease id t _ => id = leaseId ∧ t = token
  | acceptLease id t => id = leaseId ∧ t = token
  | activateLease id t => id = leaseId ∧ t = token
  | requestSolvePermit id t _ => id = leaseId ∧ t = token
  | completeNativePipeline id t _ => id = leaseId ∧ t = token
  | bindLeaseProjectName id t _ => id = leaseId ∧ t = token
  | cancelLease id t _ => id = leaseId ∧ t = token
  | reportProjectFault id t _ => id = leaseId ∧ t = token
  | _ => False

def SameDesktops (db db' : Db) : Prop :=
  db'.sessions = db.sessions ∧ db'.allocations = db.allocations

theorem SameDesktops.refl (db : Db) : SameDesktops db db := ⟨rfl, rfl⟩

def Allocation.drained (reason : String) (now : Time) (a : Allocation) : Bool :=
  a.state == .draining && a.drainReason == reason && a.drainAt.isSome && a.updatedAt == now

/-- The quarantine that `solver_timeout` writes is already on the session. -/
def Session.timedOut (message : String) (until_ now : Time) (s : Session) : Bool :=
  s.state == .draining && s.quarantineReason == "solver_timeout" &&
    s.quarantineUntil == some until_ &&
    s.failureMessage == orDefault message "solver timeout; sibling grace active" &&
    s.reuseBlockedAt.isSome && s.drainRequestedAt.isSome && s.updatedAt == now

def Db.spares (db : Db) (svc : Service) (env : Env) (l : Lease) (fault : ProjectFault) : Prop :=
  let message := svc.strip fault.failureMessage
  match FaultKind.parse (svc.lower (svc.strip fault.faultKind)), l.sessionId with
  | some .aedtTransportDeath, some sid => ∀ s ∈ db.sessions, s.id = sid → s.state.assignable = false
  | some .aedtDeath, some sid => ∀ seen, env.seen.sessions.find? sid = some seen →
      (∀ s ∈ db.sessions, s.id = sid → s.state.serving = false) ∧
      ∀ a ∈ db.allocations, a.id = seen.allocationId → a.state.drainable = true →
        a.drained "AEDT pool reported AEDT/gRPC death" env.now = true
  | some .solverTimeout, some sid =>
      (∀ s ∈ db.sessions, s.id = sid → s.state.serving = true →
        s.timedOut message (env.now + max 60 (min 3600 fault.siblingGraceSeconds)) env.now
          = true) ∧
      ∀ a ∈ db.allocations,
        a.id = ((env.seen.sessions.find? sid).map (·.allocationId)).getD 0 →
        a.state.drainable = true → a.drained "AEDT pool solver fault quarantine" env.now = true
  | _, _ => True

def Call.spares (svc : Service) (env : Env) (l : Lease) (db : Db) : Call → Prop
  | reportProjectFault _ _ fault => db.spares svc env l fault
  | _ => True

variable {svc : Service} {env : Env} {db : Db} {l : Lease} {leaseId : ℕ} {token : String}

theorem authorizeLease_ok (h : svc.authorizeLease db leaseId token = .ok l) :
    db.leases.find? leaseId = some l := by
  unfold Service.authorizeLease at h
  split at h
  · cases h
  · split at h
    · cases h; assumption
    · cases h

theorem cancelLease_finished (hl : ∀ x, db.leases.find? leaseId = some x → x.state.terminal = true)
    (reason : String) :
    Tx.wp (fun _ _ ↦ False) (svc.cancelLease env leaseId token reason) (fun _ _ ↦ True) db := by
  simp only [Service.cancelLease, getLease, Tx.wp_bind, wp_read, wp_lift, wp_require, Tx.wp_ite]
  intro x hx
  refine ⟨fun hlive ↦ ?_, fun _ _ _ ↦ trivial⟩
  simp [hl x (authorizeLease_ok hx)] at hlive

section Finished

variable (hdb : ∀ x, db.leases.find? leaseId = some x → x.state.terminal = true)
  (hseen : ∀ x, env.seen.leases.find? leaseId = some x → x.state.terminal = true)

include hdb hseen

/-- Apart from fault reports, no operation on a terminal lease writes anything. -/
theorem finished_writes_nothing {call : Call} (hcall : call.madeWith leaseId token)
    (hfault : ∀ id t fault, call ≠ .reportProjectFault id t fault) {m : PoolTx Unit}
    (hm : m ∈ call.transactions svc env) :
    Tx.wp (fun _ _ ↦ False) m (fun _ _ ↦ True) db := by
  have hdead : ∀ {s : LeaseState}, s.terminal = true → s.live = false ∧ s ≠ .offered ∧
      s ≠ .attaching ∧ s ≠ .active ∧ s ≠ .leased := by
    intro s hs
    cases s <;> simp_all [LeaseState.terminal, LeaseState.live, LeaseState.holdsSlot]
  cases call <;> simp only [Call.madeWith] at hcall <;> try exact hcall.elim
  all_goals
    obtain ⟨rfl, rfl⟩ := hcall
    simp only [Call.transactions, List.mem_singleton] at hm
  case heartbeatLease =>
    subst hm
    simp only [Service.heartbeatLease, wp_void, Tx.wp_bind, wp_lift, wp_check]
    intro _ x hx hlive
    simp [(hdead (hseen x (authorizeLease_ok hx))).1] at hlive
  case acceptLease =>
    subst hm
    simp only [Service.acceptLease, wp_void, Tx.wp_bind, wp_read, wp_lift, wp_check, Tx.wp_ite]
    intro x hx
    have h := hdead (hdb x (authorizeLease_ok hx))
    refine ⟨fun _ hleased ↦ ?_, fun _ ↦ ⟨fun hown ↦ ?_, fun _ hoffered ↦ ?_⟩⟩
    · simp [h] at hleased
    · simp [h] at hown
    · simp [h] at hoffered
  case activateLease =>
    subst hm
    simp only [Service.activateLease, wp_void, Tx.wp_bind, wp_lift, wp_check, Tx.wp_ite]
    intro x hx
    have h := hdead (hseen x (authorizeLease_ok hx))
    refine ⟨fun hactive ↦ ?_, fun _ hstate ↦ ?_⟩
    · simp [h] at hactive
    · split at hstate <;> simp [h] at hstate
  case requestSolvePermit =>
    subst hm
    simp only [Service.requestSolvePermit, wp_void, Tx.wp_bind, wp_read, wp_lift, wp_check]
    intro x hx hactive
    simp [hdead (hdb x (authorizeLease_ok hx))] at hactive
  case completeNativePipeline =>
    subst hm
    simp only [Service.completeNativePipeline, wp_void, Tx.wp_bind, wp_read, wp_lift, wp_check]
    intro _ x hx hactive
    simp [hdead (hdb x (authorizeLease_ok hx))] at hactive
  case bindLeaseProjectName =>
    subst hm
    simp only [Service.bindLeaseProjectName, wp_void, Tx.wp_bind, wp_read, wp_lift, wp_check]
    intro _ x hx hlive
    simp [hdead (hdb x (authorizeLease_ok hx))] at hlive
  case cancelLease =>
    subst hm
    rw [wp_void]
    exact cancelLease_finished hdb _
  case reportProjectFault => exact (hfault _ _ _ rfl).elim

end Finished

theorem isSome_of_eq_some {o : Option Time} {t : Time} (h : some t = o) : o.isSome = true := by
  simp [← h]

theorem drainAllocation_eq_iff {aid : ℕ} {reason : String} {now : Time} :
    (drainAllocation aid reason now db).allocations = db.allocations ↔
      ∀ a ∈ db.allocations, a.id = aid → a.state.drainable = true →
        a.drained reason now = true := by
  simp only [drainAllocation, Db.onAllocations, Table.update_eq_self_iff]
  refine forall₂_congr fun a _ ↦ ?_
  simp only [Bool.and_eq_true, beq_iff_eq, and_imp]
  refine imp_congr_right fun _ ↦ imp_congr_right fun _ ↦ ⟨fun h ↦ ?_, fun h ↦ ?_⟩
  · simp only [Allocation.drained, Bool.and_eq_true, beq_iff_eq]
    exact ⟨⟨⟨(congrArg Allocation.state h).symm, (congrArg Allocation.drainReason h).symm⟩,
      isSome_of_eq_some (congrArg Allocation.drainAt h)⟩, (congrArg Allocation.updatedAt h).symm⟩
  · simp only [Allocation.drained, Bool.and_eq_true, beq_iff_eq, Option.isSome_iff_exists] at h
    obtain ⟨⟨⟨h1, h2⟩, ⟨t, h3⟩⟩, h4⟩ := h
    cases a
    dsimp only at h1 h2 h3 h4 ⊢
    subst h1 h2 h3 h4
    rfl

theorem suspectTransport_eq_iff {sid : ℕ} {message : String} {now : Time} :
    (suspectTransport sid message now db).sessions = db.sessions ↔
      ∀ s ∈ db.sessions, s.id = sid → s.state.assignable = false := by
  simp only [suspectTransport, Db.onSessions, Table.update_eq_self_iff]
  refine forall₂_congr fun s _ ↦ ?_
  simp only [Bool.and_eq_true, beq_iff_eq, and_imp]
  refine imp_congr_right fun _ ↦ ⟨fun h ↦ ?_, fun h hs ↦ by simp [h] at hs⟩
  by_contra hs
  have hstate := congrArg Session.state (h (by simpa using hs))
  simp [← hstate, SessionState.assignable] at hs

theorem reportAedtDeath_eq_iff {sid aid : ℕ} {message : String} {now : Time} :
    SameDesktops db (reportAedtDeath sid aid message now db) ↔
      (∀ s ∈ db.sessions, s.id = sid → s.state.serving = false) ∧
      ∀ a ∈ db.allocations, a.id = aid → a.state.drainable = true →
        a.drained "AEDT pool reported AEDT/gRPC death" now = true := by
  refine and_congr ?_ drainAllocation_eq_iff
  simp only [reportAedtDeath, drainAllocation, Db.onAllocations, Db.onSessions,
    Table.update_eq_self_iff]
  refine forall₂_congr fun s _ ↦ ?_
  simp only [Bool.and_eq_true, beq_iff_eq, and_imp]
  refine imp_congr_right fun _ ↦ ⟨fun h ↦ ?_, fun h hs ↦ by simp [h] at hs⟩
  by_contra hs
  have hstate := congrArg Session.state (h (by simpa using hs))
  simp [← hstate, SessionState.serving] at hs

theorem solverTimeout_eq_iff {sid aid : ℕ} {message : String} {until_ now : Time} :
    SameDesktops db (solverTimeout leaseId sid aid message until_ now db) ↔
      (∀ s ∈ db.sessions, s.id = sid → s.state.serving = true →
        s.timedOut message until_ now = true) ∧
      ∀ a ∈ db.allocations, a.id = aid → a.state.drainable = true →
        a.drained "AEDT pool solver fault quarantine" now = true := by
  refine and_congr ?_ drainAllocation_eq_iff
  simp only [solverTimeout, drainAllocation, Db.onAllocations, Db.onSessions, Db.onLeases,
    Table.update_eq_self_iff]
  refine forall₂_congr fun s _ ↦ ?_
  simp only [Bool.and_eq_true, beq_iff_eq, and_imp]
  refine imp_congr_right fun _ ↦ imp_congr_right fun _ ↦ ⟨fun h ↦ ?_, fun h ↦ ?_⟩
  · simp only [Session.timedOut, Bool.and_eq_true, beq_iff_eq]
    exact ⟨⟨⟨⟨⟨⟨(congrArg Session.state h).symm, (congrArg Session.quarantineReason h).symm⟩,
      (congrArg Session.quarantineUntil h).symm⟩, (congrArg Session.failureMessage h).symm⟩,
      isSome_of_eq_some (congrArg Session.reuseBlockedAt h)⟩,
      isSome_of_eq_some (congrArg Session.drainRequestedAt h)⟩,
      (congrArg Session.updatedAt h).symm⟩
  · simp only [Session.timedOut, Bool.and_eq_true, beq_iff_eq, Option.isSome_iff_exists] at h
    obtain ⟨⟨⟨⟨⟨⟨h1, h2⟩, h3⟩, h4⟩, ⟨t, h5⟩⟩, ⟨u, h6⟩⟩, h7⟩ := h
    cases s
    dsimp only at h1 h2 h3 h4 h5 h6 h7 ⊢
    subst h1 h2 h3 h4 h5 h6 h7
    rfl

/-- The fault record changes the lease's fault columns only. -/
theorem recordLeaseFault_terminal (kind phase evidence message : String) (now : Time)
    (hdb : ∀ x, db.leases.find? leaseId = some x → x.state.terminal = true) :
    ∀ x, (recordLeaseFault leaseId kind phase evidence message now db).leases.find? leaseId =
      some x → x.state.terminal = true := by
  intro x hx
  obtain ⟨hmem, hid⟩ := Table.find?_eq_some.mp hx
  simp only [recordLeaseFault, Db.onLeases, Table.mem_update] at hmem
  obtain ⟨a, ha, rfl⟩ := hmem
  have hkey : a.id = leaseId := by
    by_cases h : a.id == leaseId
    · simpa using h
    · simpa [h] using hid
  have hterm := hdb a (Table.find?_eq_some.mpr ⟨ha, hkey⟩)
  by_cases h : a.id == leaseId <;> simpa [h] using hterm

section Fault

variable (hdb : ∀ x, db.leases.find? leaseId = some x → x.state.terminal = true)
  (hauth : svc.authorizeLease env.seen leaseId token = .ok l)

include hdb hauth

theorem perform_fault_same_iff (fault : ProjectFault) :
    SameDesktops db ((Call.reportProjectFault leaseId token fault).perform svc env db) ↔
      db.spares svc env l fault := by
  have hcancel : ∀ (d : Db), (∀ x, d.leases.find? leaseId = some x → x.state.terminal = true) →
      ∀ reason, Call.performAll
        [(do let _ ← svc.cancelLease env leaseId token reason : PoolTx Unit)] d = d := by
    intro d hd reason
    rw [Call.performAll_singleton]
    refine Tx.commit_eq_self ?_
    simpa using cancelLease_finished hd reason
  unfold Call.perform Db.spares
  simp only [Call.transactions, Service.reportProjectFault, hauth]
  cases hkind : FaultKind.parse (svc.lower (svc.strip fault.faultKind)) with
  | none => exact iff_of_true (SameDesktops.refl db) trivial
  | some kind =>
    dsimp only
    have hrec := fun phase message ↦
      recordLeaseFault_terminal kind.text phase fault.evidence message env.now hdb
    have hlocal : ∀ message reason, SameDesktops db (Call.performAll
        [write (.recordLeaseFault leaseId kind.text (svc.lower (svc.strip fault.phase))
          fault.evidence message env.now),
         (do let _ ← svc.cancelLease env leaseId token reason : PoolTx Unit)] db) := by
      intro message reason
      rw [Call.performAll_write, hcancel]
      · exact ⟨rfl, rfl⟩
      · exact hrec _ _
    cases hsid : l.sessionId with
    | none => cases kind <;> exact iff_of_true (hlocal _ _) trivial
    | some sid =>
      cases kind
      case aedtTransportDeath =>
        refine Iff.trans ?_ (@suspectTransport_eq_iff db sid
          (orDefault (svc.strip fault.failureMessage) "project client lost AEDT transport") env.now)
        dsimp only
        rw [Call.performAll_write, Call.performAll_write, hcancel]
        · exact ⟨fun h ↦ h.1, fun h ↦ ⟨h, rfl⟩⟩
        · exact hrec _ _
      case aedtDeath =>
        dsimp only
        cases hs : env.seen.sessions.find? sid with
        | none => exact iff_of_true ⟨rfl, rfl⟩ fun _ h ↦ by cases h
        | some s =>
          refine (@reportAedtDeath_eq_iff (recordLeaseFault leaseId _ _ _ _ _ db) _ _ _ _).trans ?_
          exact ⟨fun h _ hx ↦ by cases hx; exact h, fun h ↦ h s rfl⟩
      case solverTimeout =>
        exact @solverTimeout_eq_iff (recordLeaseFault leaseId _ _ _ _ _ db) _ _ _ _ _ _
      all_goals exact iff_of_true (hlocal _ _) trivial

end Fault

/-- A call made with the token of a terminal lease changes no session and no allocation exactly
when it is not a fault report that finds its Desktop in reach.  The call may have read the lease
(as `l`) in an earlier state than the one in which its transactions run. -/
theorem finished_client_same_desktops_iff (call : Call) (x : Lease)
    (hx : db.leases.find? leaseId = some x) (hdead : x.state.terminal = true)
    (hauth : svc.authorizeLease env.seen leaseId token = .ok l) (hl : l.state.terminal = true)
    (hcall : call.madeWith leaseId token) :
    SameDesktops db (call.perform svc env db) ↔ call.spares svc env l db := by
  have hdb : ∀ y, db.leases.find? leaseId = some y → y.state.terminal = true := by
    intro y hy
    rw [hx] at hy
    cases hy
    exact hdead
  have hseen : ∀ y, env.seen.leases.find? leaseId = some y → y.state.terminal = true := by
    intro y hy
    rw [authorizeLease_ok hauth] at hy
    cases hy
    exact hl
  by_cases hfault : ∃ id t fault, call = .reportProjectFault id t fault
  · obtain ⟨id, t, fault, rfl⟩ := hfault
    obtain ⟨rfl, rfl⟩ := hcall
    exact perform_fault_same_iff hdb hauth fault
  · push Not at hfault
    have hquiet : ∀ m ∈ call.transactions svc env, m.commit db = db := fun m hm ↦
      Tx.commit_eq_self (finished_writes_nothing hdb hseen hcall hfault hm)
    have hsame : call.perform svc env db = db := by
      unfold Call.perform
      revert hquiet
      generalize call.transactions svc env = ms
      intro hquiet
      induction ms with
      | nil => rfl
      | cons m ms ih =>
          unfold Call.performAll
          rw [hquiet m List.mem_cons_self, ih fun m' hm' ↦ hquiet m' (List.mem_cons_of_mem _ hm')]
          exact ite_self db
    rw [hsame]
    refine iff_of_true (SameDesktops.refl db) ?_
    cases call <;> first | trivial | exact (hfault _ _ _ rfl).elim

def afterFirstProject : Db :=
  script sampleService (openDesktop .empty ++
    [.call {} 100010 (.requestLease (sampleRequest 1 0))] ++ attach 1 100011 ++
    [.call {} 100020 (.cancelLease 1 (clientToken 1) "done"),
     .call {} 100021 (.completeRelease 1 "host-token" 1 true ""),
     .call {} 100022 (.heartbeatSession 1 "host-token" {})]) {}

def lateTimeout : Call := .reportProjectFault 1 (clientToken 1) { faultKind := "solver_timeout" }

def lateEnv : Env := { cfg := {}, now := 100030, clock := 100030, seen := afterFirstProject }

def afterLateTimeout : Db := lateTimeout.perform sampleService lateEnv afterFirstProject

def lateDeath : Call :=
  .reportProjectFault 1 (clientToken 1) { faultKind := "aedt_transport_death" }

set_option maxRecDepth 10000 in
theorem finished_client_same_desktops_witness :
    (∀ s ∈ afterLateTimeout.sessions.rows, s.state.assignable = false) ∧
      SameDesktops afterLateTimeout (lateDeath.perform sampleService
        { lateEnv with now := 100040, clock := 100040, seen := afterLateTimeout }
        afterLateTimeout) := by
  have hdrained : ∀ s ∈ afterLateTimeout.sessions.rows, s.state.assignable = false := by decide
  refine ⟨hdrained, ?_⟩
  refine (@finished_client_same_desktops_iff sampleService _ afterLateTimeout _ 1 (clientToken 1)
    lateDeath _ (by rfl) (by rfl) (by rfl) (by rfl) ⟨rfl, rfl⟩).mpr ?_
  exact fun s hs _ ↦ hdrained s hs

set_option maxRecDepth 10000 in
/-- The Desktop is idle and healthy, the client is done with it, and yet its report drains it. -/
theorem finished_client_drains_desktop :
    ¬ ∀ (svc : Service) (db : Db), Reachable svc AnyWrite db → ∀ (leaseId : ℕ) (token : String)
      (env : Env) (l : Lease) (call : Call), env.seen = db →
      svc.authorizeLease db leaseId token = .ok l → l.state.terminal = true →
      call.madeWith leaseId token → SameDesktops db (call.perform svc env db) := by
  intro h
  have hsame := h sampleService afterFirstProject (reachable_script (by decide)) 1
    (clientToken 1) lateEnv _ lateTimeout rfl (by rfl) (by rfl) ⟨rfl, rfl⟩
  exact absurd (congrArg (fun t ↦ t.rows.map (·.state)) hsame.1) (by decide)

end SlurmScheduler.Pool
