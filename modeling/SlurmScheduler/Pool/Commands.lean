import SlurmScheduler.Pool.Quarantine
import Mathlib.Data.List.TakeWhile

namespace SlurmScheduler.Pool

open Relational

/-- `part in text` -/
def mentions (part text : String) : Bool := decide (part.toList <:+: text.toList)

/-- `is_timeout_owner` -/
def Service.namesTimeout (svc : Service) (message : String) : Bool :=
  mentions "timeout" (svc.lower message) || mentions "heartbeat expired" (svc.lower message)

structure SessionCommands where
  closeProjects : List Lease
  deferredProjects : List Lease
  drain : Bool
  quarantineReason : String
  siblingLiveCount : ℕ
  siblingGraceDeadline : Option Time
  globalStopAllowed : Bool
  recycleAfterGlobalStop : Bool

/-- `session_commands`; the session is read before the leases. -/
def Service.sessionCommands (svc : Service) (env : Env) (db : Db) (sid : ℕ) (token : String) :
    Except PoolError SessionCommands := do
  let s ← svc.authorizeSession env.seen sid token
  let rows := db.leases.select fun l ↦ l.sessionId == some sid && l.state == .releasing
  let siblingLive := db.leases.count fun l ↦ l.sessionId == some sid &&
    (l.state == .offered || l.state == .leased || l.state == .attaching || l.state == .active)
  let graceExpired := s.quarantineUntil.any (· ≤ env.now)
  let quarantined := s.quarantineReason != ""
  let drain := s.state == .draining || s.state == .unhealthy
  let globalStopAllowed := drain && quarantined && (siblingLive == 0 || graceExpired)
  return {
    closeProjects := rows.filter fun l ↦ !(quarantined && svc.namesTimeout l.failureMessage)
    deferredProjects := rows.filter fun l ↦ quarantined && svc.namesTimeout l.failureMessage
    drain
    quarantineReason := s.quarantineReason
    siblingLiveCount := siblingLive
    siblingGraceDeadline := s.quarantineUntil
    globalStopAllowed
    recycleAfterGlobalStop := globalStopAllowed }

def Write.hidesTimeout (svc : Service) (db : Db) (l : Lease) : Write → Bool
  | .recordLeaseFault id _ _ _ message _ =>
      id == l.id && message != "" && !svc.namesTimeout message
  | .beginRelease id _ reason _ => id == l.id && !svc.namesTimeout reason
  | .failCohort key _ reason settle _ => settle && db.inCohort key l && !svc.namesTimeout reason
  | .expireCohort key _ => db.inCohort key l && l.solvePermitAt.isNone &&
      !svc.namesTimeout cohortExpiryReason
  | _ => false

def Write.sparesTimeout (svc : Service) (leaseId : ℕ) (db : Db) (w : Write) : Bool :=
  db.leases.rows.all fun l ↦
    l.id != leaseId || l.state != .releasing || !w.hidesTimeout svc db l

variable {svc : Service} {db : Db} {l l' : Lease}

/-- A statement that may replace the text of a member of the cohort, depending on its permit. -/
structure Retold (db : Db) (key reason : String) (q : Option Time → Bool) (l l' : Lease) :
    Prop where
  id : l'.id = l.id
  exactReservation : l'.exactSessionReservationId = l.exactSessionReservationId
  permit : l'.solvePermitAt = l.solvePermitAt
  text : l'.failureMessage = l.failureMessage ∨
    (db.inCohort key l = true ∧ q l.solvePermitAt = true ∧ l'.failureMessage = reason)

namespace Retold

variable {key reason : String} {q : Option Time → Bool} {a b c : Lease}

theorem refl (l : Lease) : Retold db key reason q l l := ⟨rfl, rfl, rfl, .inl rfl⟩

theorem trans (h : Retold db key reason q a b) (h' : Retold db key reason q b c) :
    Retold db key reason q a c := by
  refine ⟨h'.id.trans h.id, h'.exactReservation.trans h.exactReservation,
    h'.permit.trans h.permit, ?_⟩
  rcases h'.text with hc | ⟨hcohort, hpermit, hc⟩
  · rw [hc]
    exact h.text
  · refine .inr ⟨?_, h.permit ▸ hpermit, hc⟩
    simpa only [Db.inCohort, h.exactReservation] using hcohort

end Retold

section Cohort

variable {key reason : String} {now : Time}

theorem blockCohortReuse_leases : (blockCohortReuse key now db).leases = db.leases := rfl

theorem onReservations_leases {p : Reservation → Bool} {f : Reservation → Reservation}
    {hf : ∀ r, Keyed.key (f r) = Keyed.key r} : (db.onReservations p f hf).leases = db.leases := rfl

theorem settleCohortOwners_retold :
    Table.Moved (Retold db key reason fun _ ↦ true) db.leases
      (settleCohortOwners key now reason db).leases := by
  rw [settleCohortOwners, blockCohortReuse_leases]
  refine Db.leases_moved (fun l _ hp ↦ ?_) fun l _ _ ↦ .refl l
  simp only [Bool.and_eq_true] at hp
  exact ⟨rfl, rfl, rfl, .inr ⟨hp.1, rfl, rfl⟩⟩

theorem failCohort_retold :
    Table.Moved (Retold db key reason fun _ ↦ true) db.leases
      (failCohort key now reason true db).leases := by
  have hfail : Table.Moved (Retold db key reason fun _ ↦ true)
      (settleCohortOwners key now reason db).leases
      (failCohort key now reason true db).leases := by
    rw [failCohort, onReservations_leases]
    refine Db.leases_moved (fun l _ hp ↦ ?_) fun l _ _ ↦ .refl l
    simp only [Bool.and_eq_true] at hp
    exact ⟨rfl, rfl, rfl, .inr ⟨hp.1, rfl, rfl⟩⟩
  exact settleCohortOwners_retold.trans hfail fun _ _ _ ↦ Retold.trans

theorem expireCohort_retold :
    Table.Moved (Retold db key cohortExpiryReason (·.isNone)) db.leases
      (expireCohort key now db).leases := by
  have howners : Table.Moved (Retold db key cohortExpiryReason (·.isNone)) db.leases
      (db.onLeases (fun l ↦ db.inCohort key l && l.state.ownsProject && l.solvePermitAt.isNone)
        (fun l ↦ { l with
          state := .releasing, failureMessage := cohortExpiryReason
          releaseRequestedAt := some (l.releaseRequestedAt.getD now), updatedAt := now })
        fun _ ↦ rfl).leases := by
    refine Db.leases_moved (fun l _ hp ↦ ?_) fun l _ _ ↦ .refl l
    simp only [Bool.and_eq_true] at hp
    exact ⟨rfl, rfl, rfl, .inr ⟨hp.1.1, hp.2, rfl⟩⟩
  refine howners.trans (S := Retold db key cohortExpiryReason (·.isNone)) ?_
    fun _ _ _ ↦ Retold.trans
  rw [expireCohort, onReservations_leases]
  refine Db.leases_moved (fun l _ hp ↦ ?_) fun l _ _ ↦ .refl l
  simp only [Bool.and_eq_true] at hp
  exact ⟨rfl, rfl, rfl, .inr ⟨hp.1.1, hp.2, rfl⟩⟩

end Cohort

/-- The row of a table without new rows that a lease has become. -/
theorem retold_row {t : Table Lease} {key reason : String} {q : Option Time → Bool}
    (h : Table.Moved (Retold db key reason q) db.leases t) (hl : l ∈ db.leases) (hl' : l' ∈ t)
    (hid : l'.id = l.id) : Retold db key reason q l l' := by
  obtain ⟨a, ha, hm⟩ := h.exists_left hl'
  rwa [Table.eq_of_key_eq ha hl (hm.id.symm.trans hid)] at hm

theorem release_text {w : Write} (hl : l ∈ db.leases) (hl' : l' ∈ (w.exec db).leases)
    (hm : LeaseMove (fun a ↦ w.keeps a = true) l l') (hrel : l.state = .releasing)
    (hrel' : l'.state = .releasing) (hspared : w.hidesTimeout svc db l = false)
    (htext : svc.namesTimeout l.failureMessage = true) :
    svc.namesTimeout l'.failureMessage = true := by
  by_cases hkeeps : w.keeps .reasons = true
  · rwa [hm.reason hkeeps hrel hrel']
  cases w <;> try exact (hkeeps rfl).elim
  case failCohort key now reason settle refresh =>
    cases settle with
    | false => exact (hkeeps rfl).elim
    | true =>
      simp only [Write.exec, refreshSessions_leases] at hl'
      rcases (retold_row failCohort_retold hl hl' hm.id).text with hsame | ⟨hcohort, -, hsame⟩
      · rwa [hsame]
      · rw [hsame]
        simpa [Write.hidesTimeout, hcohort] using hspared
  case expireCohort key now =>
    rcases (retold_row expireCohort_retold hl hl' hm.id).text with hsame | ⟨hcohort, hnone, hsame⟩
    · rwa [hsame]
    · rw [hsame]
      simpa [Write.hidesTimeout, hcohort, hnone] using hspared
  case recordLeaseFault id kind phase evidence message now =>
    rw [Db.onLeases_row hl hl' hm.id]
    simp only [Write.hidesTimeout, Bool.and_eq_false_iff, bne_eq_false_iff_eq,
      Bool.not_eq_false'] at hspared
    split
    · rename_i hid
      rw [beq_iff_eq] at hid
      by_cases hblank : message = ""
      · simpa [hblank] using htext
      · have hnamed := hspared.resolve_left (by simp [hid, hblank])
        simpa [hblank] using hnamed
    · exact htext
  case beginRelease id sid reason now =>
    have hrow : l' ∈ (db.onLeases (·.id == id) (fun x ↦ { x with
        state := .releasing, failureMessage := reason, releaseRequestedAt := some now
        updatedAt := now }) fun _ ↦ rfl).leases := by
      cases sid <;> exact hl'
    rw [Db.onLeases_row hl hrow hm.id]
    simp only [Write.hidesTimeout, Bool.and_eq_false_iff, Bool.not_eq_false'] at hspared
    split
    · rename_i hid
      rw [beq_iff_eq] at hid
      exact hspared.resolve_left (by simp [hid])
    · exact htext

def Db.Quarantines (db : Db) (sid : ℕ) : Prop :=
  ∀ s ∈ db.sessions.rows, s.id = sid → s.quarantineReason ≠ ""

instance (sid : ℕ) : Decidable (db.Quarantines sid) :=
  inferInstanceAs (Decidable (∀ s ∈ db.sessions.rows, s.id = sid → s.quarantineReason ≠ ""))

/-- As long as the lease is on the session its release is pending with a text that names the
timeout, or it is over. -/
structure Lease.TimedOut (svc : Service) (leaseId sid : ℕ) (l : Lease) : Prop where
  id : l.id = leaseId
  owner : l.sessionId = some sid → l.state = .queued ∨ l.state.terminal = true ∨
    (l.state = .releasing ∧ svc.namesTimeout l.failureMessage = true)

theorem timedOut_rules (svc : Service) (leaseId sid : ℕ) : LeaseRules
    (fun db w ↦ w.sparesTimeout svc leaseId db = true ∧ db.Quarantines sid)
    (fun db ↦ Sound db ∧ Healthy db) (Lease.TimedOut svc leaseId sid) where
  plain {db w l l'} _ _ hC hl hl' hm hq := by
    refine ⟨hm.id.trans hq.id, fun hsid ↦ ?_⟩
    have hold : l.sessionId = some sid := by
      rcases hm.session with h | h
      · rw [← h, hsid]
      · simp [h] at hsid
    rcases hq.owner hold with hqueued | hterm | ⟨hrel, htext⟩
    · exact (LeaseState.movesTo_queued hm.state hqueued).imp_right .inl
    · exact .inr (.inl (LeaseState.movesTo_terminal hm.state hterm ▸ hterm))
    · rcases LeaseState.movesTo_releasing hm.state hrel with h | h | h
      · exact .inl h
      · have hspared := List.all_eq_true.mp hC.1 l hl
        simp only [hq.id, hrel, bne_self_eq_false, Bool.false_or, Bool.not_eq_true'] at hspared
        exact .inr (.inr ⟨h, release_text hl hl' hm hrel h hspared htext⟩)
      · exact .inr (.inl h)
  seated {db l s _ _ _} hdb hC _ _ hs hplace hq := by
    refine ⟨hq.id, fun hsid ↦ ?_⟩
    have hid : s.id = sid := Option.some.inj hsid
    exact (hC.2 s hs hid (hdb.2 s hs hplace.assignable)).elim
  granted _ _ _ _ _ hm hq := by
    refine ⟨hm.id.trans hq.id, fun hsid ↦ ?_⟩
    rcases hm.permit with rfl | ⟨hold, hactive, -⟩
    · exact hq.owner hsid
    · have hidle := hq.owner (hm.session ▸ hsid)
      simp [hactive, LeaseState.terminal, LeaseState.live, LeaseState.holdsSlot] at hidle

theorem solverTimeout_leases {leaseId target aid : ℕ} {message : String} {until_ now : Time} :
    (solverTimeout leaseId target aid message until_ now db).leases =
      (db.onLeases (fun l ↦ l.id == leaseId &&
          (l.state == .leased || l.state == .attaching || l.state == .active))
        (fun l ↦ { l with
          state := .releasing, failureMessage := orDefault message "solver timeout"
          releaseRequestedAt := some now, updatedAt := now }) fun _ ↦ rfl).leases := rfl

/-- The report of a timeout starts the release with a text that may name it. -/
theorem solverTimeout_timedOut {sid target aid : ℕ} {message : String} {until_ now : Time}
    (hl : l ∈ db.leases) (hstate : l.state = .leased ∨ l.state = .attaching ∨ l.state = .active)
    (htext : svc.namesTimeout (orDefault message "solver timeout") = true) :
    ∃ x ∈ (solverTimeout l.id target aid message until_ now db).leases,
      Lease.TimedOut svc l.id sid x := by
  have hreported : (l.id == l.id &&
      (l.state == .leased || l.state == .attaching || l.state == .active)) = true := by
    rcases hstate with h | h | h <;> simp [h]
  rw [solverTimeout_leases]
  exact ⟨_, Db.mem_onLeases.mpr ⟨l, hl, if_pos hreported⟩, rfl, fun _ ↦ .inr (.inr ⟨rfl, htext⟩)⟩

/-- The commands of a quarantined session close no lease whose release names a timeout. -/
theorem sessionCommands_deferred {env : Env} {sid leaseId : ℕ} {token : String}
    {c : SessionCommands} (hl : l ∈ db.leases) (htimed : Lease.TimedOut svc leaseId sid l)
    (hseen : env.seen.Quarantines sid) (hc : svc.sessionCommands env db sid token = .ok c) :
    (∀ x ∈ c.closeProjects, x.id ≠ leaseId) ∧ ∀ x ∈ db.leases, x.id = leaseId →
      x.sessionId = some sid → x.state = .releasing → x ∈ c.deferredProjects := by
  have hnamed : ∀ x ∈ db.leases, x.id = leaseId → x.sessionId = some sid → x.state = .releasing →
      svc.namesTimeout x.failureMessage = true := by
    intro x hx hid hsid hrel
    rw [Table.eq_of_key_eq hx hl (hid.trans htimed.id.symm)] at hsid hrel ⊢
    rcases htimed.owner hsid with h | h | ⟨-, htext⟩
    · simp [hrel] at h
    · simp [hrel, LeaseState.terminal, LeaseState.live, LeaseState.holdsSlot] at h
    · exact htext
  unfold Service.sessionCommands at hc
  cases hauth : svc.authorizeSession env.seen sid token with
  | error e =>
      rw [hauth] at hc
      cases hc
  | ok s =>
      obtain ⟨hs, hsid, -⟩ := authorizeSession_mem hauth
      have hquarantined : (s.quarantineReason != "") = true := by
        simpa using hseen s hs hsid
      rw [hauth] at hc
      cases hc
      refine ⟨fun x hx hid ↦ ?_, fun x hx hid hxsid hrel ↦ ?_⟩
      · obtain ⟨hrow, hclose⟩ := List.mem_filter.mp hx
        obtain ⟨hxmem, hmatch⟩ := Table.mem_select.mp hrow
        simp only [Bool.and_eq_true, beq_iff_eq] at hmatch
        simp [hquarantined, hnamed x hxmem hid hmatch.1 hmatch.2] at hclose
      · refine List.mem_filter.mpr ⟨Table.mem_select.mpr ⟨hx, by simp [hxsid, hrel]⟩, ?_⟩
        rw [hquarantined, hnamed x hx hid hxsid hrel]
        rfl

/-- A client reported a solver timeout with a text that names it.  As long as no later report or
failure of its release hides the timeout, its quarantined Desktop is not told to close it. -/
theorem timed_out_owner_deferred (svc : Service) (es es' : List PoolExecution) (e : PoolExecution)
    (db : Db) (l : Lease) (sid target aid : ℕ) (message : String) (until_ now : Time)
    (h : History svc AnyWrite {} (es ++ e :: es') db)
    (hwrite : e.write = .solverTimeout l.id target aid message until_ now)
    (hl : l ∈ e.before.leases)
    (hstate : l.state = .leased ∨ l.state = .attaching ∨ l.state = .active)
    (htext : svc.namesTimeout (orDefault message "solver timeout") = true)
    (hlater : ∀ x ∈ es', x.write.sparesTimeout svc l.id x.before = true ∧ x.before.Quarantines sid)
    (env : Env) (token : String) (c : SessionCommands) (hseen : env.seen.Quarantines sid)
    (hc : svc.sessionCommands env db sid token = .ok c) :
    (∀ x ∈ c.closeProjects, x.id ≠ l.id) ∧ ∀ x ∈ db.leases, x.id = l.id →
      x.sessionId = some sid → x.state = .releasing → x ∈ c.deferredProjects := by
  obtain ⟨d, w⟩ := e
  change w = _ at hwrite
  subst hwrite
  have htimed := h.since healthy_invariant
    ((timedOut_rules svc l.id sid).some_lease.stable fun _ hdb ↦ hdb.1)
    ⟨sound_empty, fun s hs ↦ by cases hs⟩ hlater
    fun _ _ _ ↦ solverTimeout_timedOut hl hstate htext
  obtain ⟨x, hx, htimed⟩ := htimed.1
  exact sessionCommands_deferred hx htimed hseen hc

/-- The client of the sample Desktop reports a solver timeout, and the host sends a heartbeat. -/
def timeoutScript (message : String) : List Event :=
  openDesktop .empty ++ [.call {} 100010 (.requestLease (sampleRequest 1 0))] ++ attach 1 100011 ++
    [.call {} 100020 (.reportProjectFault 1 (clientToken 1)
      { faultKind := "solver_timeout", failureMessage := message }),
     .call {} 100030 (.heartbeatSession 1 "host-token" {})]

def timedOut (message : String) : Db := script sampleService (timeoutScript message) {}

def timeoutHistory (message : String) : List PoolExecution :=
  scriptExecutions sampleService (timeoutScript message) {}

def commandEnv (db : Db) : Env := { cfg := {}, now := 100040, clock := 100040, seen := db }

def reportsTimeout (message : String) (e : PoolExecution) : Bool :=
  match e.write with
  | .solverTimeout id _ _ m _ _ => id == 1 && m == message
  | _ => false

def afterReport (message : String) (es : List PoolExecution) : List PoolExecution :=
  (es.dropWhile (!reportsTimeout message ·)).tail

theorem exists_report {es : List PoolExecution} {message : String}
    (h : es.any (reportsTimeout message) = true) :
    ∃ pre e target aid until_ now, es = pre ++ e :: afterReport message es ∧
      e.write = .solverTimeout 1 target aid message until_ now := by
  obtain ⟨x, hx, hreports⟩ := List.any_eq_true.mp h
  cases hdrop : es.dropWhile (!reportsTimeout message ·) with
  | nil =>
      have hnone := List.dropWhile_eq_nil_iff.mp hdrop x hx
      simp [hreports] at hnone
  | cons e post =>
      have hfirst : reportsTimeout message e = true := by
        have hhead := List.head?_dropWhile_not (!reportsTimeout message ·) es
        simpa [hdrop] using hhead
      obtain ⟨d, w⟩ := e
      cases w <;> try cases hfirst
      rename_i id target aid m until_ now
      simp only [reportsTimeout, Bool.and_eq_true, beq_iff_eq] at hfirst
      obtain ⟨rfl, rfl⟩ := hfirst
      refine ⟨es.takeWhile (!reportsTimeout m ·), ⟨d, .solverTimeout 1 target aid m until_ now⟩,
        target, aid, until_, now, ?_, rfl⟩
      rw [afterReport, hdrop, List.tail_cons, ← hdrop, List.takeWhile_append_dropWhile]

def Db.firstLease (db : Db) : Lease := (db.leases.find? 1).getD { id := 0, requestKey := "" }

theorem report_lease {es : List PoolExecution} {e : PoolExecution} {message : String} (he : e ∈ es)
    (h : es.all fun x ↦ !reportsTimeout message x ||
      ((x.before.leases.find? 1).isSome && x.before.firstLease.id == 1 &&
        x.before.firstLease.state == .active))
    (hreports : reportsTimeout message e = true) :
    e.before.firstLease ∈ e.before.leases ∧ e.before.firstLease.id = 1 ∧
      e.before.firstLease.state = .active := by
  have hrow := List.all_eq_true.mp h e he
  simp only [hreports, Bool.not_true, Bool.false_or, Bool.and_eq_true, beq_iff_eq] at hrow
  exact ⟨find?_getD_mem hrow.1.1, hrow.1.2, hrow.2⟩

theorem exists_commands {r : Except PoolError SessionCommands} {q : SessionCommands → Bool}
    (h : r.toOption.any q = true) : ∃ c, r = .ok c ∧ q c = true := by
  cases r with
  | error => cases h
  | ok c => exact ⟨c, rfl, h⟩

theorem timed_out_owner_deferred_default : ∃ c,
    sampleService.sessionCommands (commandEnv (timedOut "")) (timedOut "") 1 "host-token" = .ok c ∧
      ∀ x ∈ c.closeProjects, x.id ≠ 1 := by
  obtain ⟨pre, e, target, aid, until_, now, hsplit, hwrite⟩ := @exists_report (timeoutHistory "") "" (by decide)
  have hhistory : History sampleService AnyWrite {} (timeoutHistory "") (timedOut "") :=
    history_script sound_empty (by decide)
  obtain ⟨hl, hid, hactive⟩ := @report_lease (timeoutHistory "") e "" (hsplit ▸ List.mem_append_right _ List.mem_cons_self)
    (by decide) (by simp [reportsTimeout, hwrite])
  have hlater : ∀ x ∈ afterReport "" (timeoutHistory ""), x.write.sparesTimeout sampleService 1 x.before = true ∧
      x.before.Quarantines 1 := by decide
  obtain ⟨c, hc, -⟩ := exists_commands (r := sampleService.sessionCommands
    (commandEnv (timedOut "")) (timedOut "") 1 "host-token") (q := fun _ ↦ true) (by decide +kernel)
  rw [hsplit] at hhistory
  have hdeferred := timed_out_owner_deferred sampleService pre _ e (timedOut "")
    e.before.firstLease 1 target aid "" until_ now hhistory (hid.symm ▸ hwrite) hl
    (.inr (.inr hactive)) (by decide) (hid.symm ▸ hlater) _ "host-token" c
    (by decide +kernel) hc
  exact ⟨c, hc, hid ▸ hdeferred.1⟩

/-- A lost license names no timeout, and the quarantined Desktop is told to close its owner. -/
theorem silent_timeout_closed :
    ¬ ∀ (svc : Service) (es es' : List PoolExecution) (e : PoolExecution) (db : Db) (l : Lease)
      (sid target aid : ℕ) (message : String) (until_ now : Time),
      History svc AnyWrite {} (es ++ e :: es') db →
      e.write = .solverTimeout l.id target aid message until_ now → l ∈ e.before.leases →
      l.state = .active → (∀ x ∈ es', x.before.Quarantines sid) →
      ∀ (env : Env) (token : String) (c : SessionCommands), env.seen.Quarantines sid →
        svc.sessionCommands env db sid token = .ok c → ∀ x ∈ c.closeProjects, x.id ≠ l.id := by
  intro h
  obtain ⟨pre, e, target, aid, until_, now, hsplit, hwrite⟩ :=
    @exists_report (timeoutHistory "license lost") "license lost" (by decide)
  have hhistory : History sampleService AnyWrite {} (timeoutHistory "license lost")
    (timedOut "license lost") := history_script sound_empty (by decide)
  obtain ⟨hl, hid, hactive⟩ := @report_lease (timeoutHistory "license lost") e "license lost"
    (hsplit ▸ List.mem_append_right _ List.mem_cons_self) (by decide)
    (by simp [reportsTimeout, hwrite])
  have hlater : ∀ x ∈ afterReport "license lost" (timeoutHistory "license lost"),
      x.before.Quarantines 1 := by decide
  rw [hsplit] at hhistory
  have hkept := h sampleService pre _ e (timedOut "license lost") e.before.firstLease 1 target aid
    "license lost" until_ now hhistory (hid.symm ▸ hwrite) hl hactive hlater
    (commandEnv (timedOut "license lost")) "host-token"
  obtain ⟨c, hc, hclosed⟩ := exists_commands (r := sampleService.sessionCommands
    (commandEnv (timedOut "license lost")) (timedOut "license lost") 1 "host-token")
    (q := (·.closeProjects.any (·.id == 1))) (by decide +kernel)
  obtain ⟨x, hx, hone⟩ := List.any_eq_true.mp hclosed
  exact hkept c (by decide +kernel) hc x hx ((beq_iff_eq.mp hone).trans hid.symm)

end SlurmScheduler.Pool
