import SlurmScheduler.Client.Lease
import SlurmScheduler.Pool.Scripts

namespace SlurmScheduler.Client

open Relational Concurrent Raising
open Pool (LeaseStatus)

variable {svc : Pool.Service} {S : Set Pool.Db} {α : Type} {P : AedtProjectLease → Prop}
  {A : (q : Question) → q.Answer S → Prop} {id v : ℕ}

def Own (id v : ℕ) (lease : AedtProjectLease) : Prop :=
  lease.leaseId = id ∧ lease.protocolVersion = v

def Tells (svc : Pool.Service) (db : Pool.Db) (latest : LeaseStatus) (lease : AedtProjectLease) :
    Prop :=
  svc.leaseStatus db lease.leaseId = some latest ∧
    ∃ before : AedtProjectLease, lease = before.applyStatus latest

def Told (svc : Pool.Service) (S : Set Pool.Db) (latest : LeaseStatus) (lease : AedtProjectLease) :
    Prop := ∃ db ∈ S, Tells svc db latest lease

/-- The client has applied last that its lease is active and has a permit, for the session that the
row names. -/
def UnderPermit (svc : Pool.Service) (S : Set Pool.Db) (latest : LeaseStatus)
    (lease : AedtProjectLease) : Prop :=
  ∃ db ∈ S, Tells svc db latest lease ∧ lease.state = .active ∧ lease.solvePermitGranted = true ∧
    ∃ l ∈ db.leases, l.id = lease.leaseId ∧ l.state = .active ∧ l.solvePermitAt.isSome = true ∧
      l.sessionId = some lease.sessionId

def CohortCompleted (svc : Pool.Service) (S : Set Pool.Db) (latest : LeaseStatus)
    (lease : AedtProjectLease) : Prop :=
  ∃ db ∈ S, Tells svc db latest lease ∧
    db.granted lease.sessionId lease.solvePermitGeneration ≠ [] ∧
    ∀ l ∈ db.granted lease.sessionId lease.solvePermitGeneration,
      l.completed lease.sessionId lease.solvePermitGeneration = true

/-- What a normal return of the call promises. -/
def Wait.Promises (svc : Pool.Service) (S : Set Pool.Db) : Wait → LeaseStatus → AedtProjectLease → Prop
  | nativePipelineBarrier .. => CohortCompleted svc S
  | _ => UnderPermit svc S

theorem self_returns {f : AedtProjectLease → α} :
    (self S f).Returns A P fun a lease ↦ a = f lease ∧ P lease :=
  returns_lift (Proc.yields_read fun _ h ↦ ⟨rfl, h⟩)

theorem ask_returns {q : Question} : (ask S q).Returns A P fun _ ↦ P :=
  returns_lift (Proc.yields_query fun _ _ _ h ↦ h)

theorem raiseFor_returns {check : AedtProjectLease → Option String} :
    (raiseFor S check).Returns A P fun _ lease ↦ check lease = none ∧ P lease := by
  refine returns_bind self_returns fun message ↦ ?_
  cases message with
  | some e => exact returns_throw
  | none => exact returns_pure fun _ h ↦ ⟨h.1.symm, h.2⟩

theorem call_returns {r : Request} : (call svc S r).Returns A (Own id v) fun status lease ↦
    Own id v lease ∧ ∃ db ∈ S, svc.leaseStatus db id = some status := by
  refine returns_bind ask_returns fun answer ↦ ?_
  cases answer with
  | error e => exact returns_throw
  | ok db =>
      refine returns_bind self_returns fun leaseId ↦ ?_
      cases hstatus : svc.leaseStatus db leaseId with
      | none => exact returns_throw
      | some status =>
          refine returns_pure fun lease h ↦ ⟨h.2, db, db.2, ?_⟩
          rw [← hstatus, h.1, h.2.1]

theorem applied_returns {r : Request} : (applied svc S r).Returns A (Own id v) fun latest lease ↦
    Own id v lease ∧ Told svc S latest lease := by
  refine returns_bind call_returns fun latest ↦ returns_bind
    (T := fun _ lease ↦ Own id v lease ∧ Told svc S latest lease) (returns_lift
      (Proc.yields_write fun lease h ↦ ?_)) fun _ ↦ returns_pure fun _ h ↦ h
  obtain ⟨hown, db, hdb, hstatus⟩ := h
  exact ⟨hown, db, hdb, hown.1 ▸ hstatus, lease, rfl⟩

theorem bindProjectName_returns {projectName : String} :
    (bindProjectName svc S projectName).Returns A (Own id v) fun _ ↦ Own id v :=
  returns_bind call_returns fun _ ↦ returns_lift (Proc.yields_write fun _ h ↦ h.1)

theorem rebind_returns {projectName : String} :
    (rebind svc S projectName).Returns A (Own id v) fun _ ↦ Own id v :=
  returns_bind self_returns fun _ ↦ returns_ite
    (fun _ ↦ bindProjectName_returns.mono (fun _ h ↦ h.2) fun _ _ h ↦ h)
    fun _ ↦ returns_pure fun _ h ↦ h.2

theorem deadlineRemaining_returns :
    (exactSessionCohortDeadlineRemaining S).Returns A P fun _ ↦ P := by
  refine returns_bind self_returns fun deadline ↦ ?_
  cases deadline with
  | none => exact returns_pure fun _ h ↦ h.2
  | some deadline =>
      exact returns_bind ask_returns fun now ↦ returns_pure fun _ h ↦ h.2

def Permitted (svc : Pool.Service) (S : Set Pool.Db) (id v : ℕ) (latest : LeaseStatus)
    (lease : AedtProjectLease) : Prop :=
  Own id v lease ∧ Told svc S latest lease ∧ lease.solvePermitGranted = true

theorem sealBatch_returns : (sealBatch svc S).Returns A (Own id v) fun r lease ↦
    Sum.elim (Permitted svc S id v · lease) (fun _ ↦ Own id v lease) r := by
  refine returns_bind applied_returns fun latest ↦ returns_bind self_returns fun granted ↦
    returns_ite (fun hgranted ↦ returns_pure fun lease h ↦ ?_) fun _ ↦ ?_
  · exact ⟨h.2.1, h.2.2, h.1.symm.trans hgranted⟩
  · refine returns_bind (raiseFor_returns.mono (fun _ h ↦ h.2.1) fun _ _ h ↦ h.2) fun _ ↦
      returns_bind deadlineRemaining_returns fun cohortRemaining ↦
        returns_bind self_returns fun waiting ↦ ?_
    cases cohortRemaining with
    | none => exact returns_throw
    | some c =>
        refine returns_ite (fun _ ↦ ?_) fun _ ↦ returns_throw
        exact returns_bind ask_returns fun now ↦ returns_pure fun _ h ↦ h.2

theorem examine_returns {deadline : ℚ} {latest : LeaseStatus} :
    (examine svc S deadline latest).Returns A
      (fun lease ↦ Own id v lease ∧ Told svc S latest lease) fun r lease ↦
      Sum.elim (Permitted svc S id v · lease) (fun _ ↦ Own id v lease) r := by
  refine returns_bind self_returns fun granted ↦
    returns_ite (fun hgranted ↦ returns_pure fun lease h ↦ ?_) fun _ ↦ ?_
  · exact ⟨h.2.1, h.2.2, h.1.symm.trans hgranted⟩
  · refine returns_bind (raiseFor_returns.mono (fun _ h ↦ h.2.1) fun _ _ h ↦ h.2) fun _ ↦
      returns_bind ask_returns fun now ↦ returns_bind deadlineRemaining_returns fun c ↦ ?_
    exact returns_ite (fun _ ↦ sealBatch_returns) fun _ ↦ returns_pure fun _ h ↦ h

theorem poll_returns {inline : Bool} : (poll svc S inline).Returns A (Own id v)
    fun latest lease ↦ Own id v lease ∧ Told svc S latest lease :=
  returns_ite (fun _ ↦ applied_returns) fun _ ↦ applied_returns

theorem permitRound_returns {clock : PermitClock} :
    (permitRound svc S clock).Returns A (Own id v) fun r lease ↦
      Sum.elim (Permitted svc S id v · lease) (fun _ ↦ Own id v lease) r := by
  refine returns_bind ask_returns fun alive ↦ returns_bind ask_returns fun now ↦
    returns_bind poll_returns fun latest ↦ returns_bind examine_returns fun r ↦ ?_
  cases r with
  | inl latest => exact returns_pure fun _ h ↦ h
  | inr deadline => exact returns_pure fun _ h ↦ h

theorem timeoutSeconds_returns {given : Option Seconds} {setting : String} :
    (timeoutSeconds S given setting).Returns A P fun _ ↦ P := by
  cases given with
  | some t => exact returns_pure fun _ h ↦ h
  | none =>
      refine returns_bind ask_returns fun answer ↦ ?_
      cases answer with
      | none => exact returns_throw
      | some t => exact returns_pure fun _ h ↦ h

theorem fillTimeout_returns {given : Option Seconds} :
    (fillTimeout S given).Returns A P fun _ ↦ P := by
  refine returns_bind timeoutSeconds_returns fun timeout ↦ ?_
  cases timeout with
  | none => exact returns_throw
  | some t => exact returns_ite (fun _ ↦ returns_pure fun _ h ↦ h) fun _ ↦ returns_throw

/-- A lease whose permit the client does not know of yet gets it in a round. -/
theorem waitForSolvePermit_returns {given : Option Seconds} {rounds : ℕ} {granted : Bool}
    (hv : 2 ≤ v) : (waitForSolvePermit svc S given rounds).Returns A
      (fun lease ↦ Own id v lease ∧ lease.solvePermitGranted = granted) fun r lease ↦
      ∀ latest, r = some latest → Own id v lease ∧ Told svc S latest lease ∧
        (granted = false → lease.solvePermitGranted = true) := by
  refine returns_bind self_returns fun early ↦ returns_ite (fun hearly ↦ ?_) fun _ ↦ ?_
  · refine returns_bind (T := fun latest lease ↦ (Own id v lease ∧ Told svc S latest lease) ∧
      granted = true) ?_ fun latest ↦ returns_pure fun lease h latest' hlatest ↦ ?_
    · intro o n lease ho h latest hlatest
      have htold := applied_returns o n lease ho h.2.1 latest hlatest
      have hshown : granted = true := by
        have hor := h.1.symm.trans hearly
        rw [Bool.or_eq_true, decide_eq_true_eq, h.2.1.2, h.2.2] at hor
        exact hor.resolve_left (by omega)
      exact ⟨htold, hshown⟩
    · obtain ⟨⟨hown, htold⟩, hshown⟩ := h
      exact ⟨hown, Option.some.inj hlatest ▸ htold, fun hnone ↦ by simp [hshown] at hnone⟩
  · refine returns_bind (fillTimeout_returns (P := fun lease ↦ Own id v lease)
      |>.mono (fun _ h ↦ h.2.1) fun _ _ h ↦ h) fun timeout ↦ returns_bind ask_returns fun now ↦
      returns_bind ask_returns fun last ↦
        (iterate_returns (I := fun _ ↦ Own id v) fun _ ↦ permitRound_returns).mono (fun _ h ↦ h) ?_
    exact fun r lease h latest hlatest ↦
      ⟨(h latest hlatest).1, (h latest hlatest).2.1, fun _ ↦ (h latest hlatest).2.2⟩

/-- The server asks an active lease that has no permit to wait for one. -/
theorem required_of_told {latest : LeaseStatus} {lease : AedtProjectLease}
    (hS : ∀ db ∈ S, Pool.Sound db)
    (hversion : ∀ db ∈ S, ∀ l ∈ db.leases, l.id = lease.leaseId → 2 ≤ l.protocolVersion)
    (htold : Told svc S latest lease) (hactive : lease.state = .active) :
    (lease.solvePermitRequired && !lease.solvePermitGranted) = !lease.solvePermitGranted := by
  obtain ⟨db, hdb, hstatus, before, rfl⟩ := htold
  obtain ⟨l, hl, hid, hstate, -, hgranted, -, hrequired, -⟩ := Pool.leaseStatus_eq_some hstatus
  have hlactive : l.state = .active := hstate.symm.trans hactive
  obtain ⟨sid, hsid, hpos⟩ := (hS db hdb).seated.session_of_active (hS db hdb).registered hl hlactive
  have hv := hversion db hdb l hl hid
  simp only [AedtProjectLease.applyStatus, hgranted, hrequired, hsid, hlactive]
  cases l.solvePermitAt <;> simp [hv, hpos]

theorem activateAttaching_returns : (activateAttaching svc S).Returns A (Own id v)
    fun latest lease ↦ Own id v lease ∧ Told svc S latest lease ∧ lease.state = .active := by
  refine returns_bind (raiseFor_returns.mono (fun _ h ↦ h) fun _ _ h ↦ h.2) fun _ ↦
    returns_bind applied_returns fun latest ↦ returns_bind raiseFor_returns fun _ ↦
      returns_pure fun lease h ↦ ⟨h.2.1, h.2.2, ?_⟩
  by_contra hne
  simp [hne] at h

section Activation

variable (hS : ∀ db ∈ S, Pool.Sound db)
  (hversion : ∀ db ∈ S, ∀ l ∈ db.leases, l.id = id → 2 ≤ l.protocolVersion)

include hS hversion

theorem orWait_returns {latest : LeaseStatus} {rounds : ℕ} (hv : 2 ≤ v) :
    (orWait svc S latest rounds).Returns A
      (fun lease ↦ Own id v lease ∧ Told svc S latest lease ∧ lease.state = .active) fun r lease ↦
      ∀ latest, r = some latest → Permitted svc S id v latest lease := by
  refine returns_bind self_returns fun waits ↦ returns_ite (fun hwaits ↦ ?_) fun hwaits ↦ ?_
  · refine (waitForSolvePermit_returns hv).mono (fun lease h ↦ ⟨h.2.1, ?_⟩)
      fun r lease h latest hlatest ↦ ⟨(h latest hlatest).1, (h latest hlatest).2.1,
        (h latest hlatest).2.2 rfl⟩
    have hand := h.1.symm.trans hwaits
    simpa using (Bool.and_eq_true_iff.mp hand).2
  · refine returns_pure fun lease h latest' hlatest ↦ Option.some.inj hlatest ▸ ⟨h.2.1, h.2.2.1, ?_⟩
    have hrequired := required_of_told hS (h.2.1.1 ▸ hversion) h.2.2.1 h.2.2.2
    rw [← h.1] at hrequired
    simpa [hrequired] using hwaits

theorem activate_returns {projectName : String} {rounds : ℕ} (hv : 2 ≤ v) :
    (activate svc S projectName rounds).Returns A (Own id v) fun r lease ↦
      ∀ latest, r = some latest → Permitted svc S id v latest lease := by
  refine returns_bind rebind_returns fun _ ↦ returns_bind self_returns fun old ↦
    returns_ite (fun hold ↦ ?_) fun _ ↦ ?_
  · intro o n lease _ h
    have hlt := h.1.symm.trans hold
    rw [decide_eq_true_eq, h.2.2] at hlt
    omega
  · refine returns_bind (applied_returns.mono (fun _ h ↦ h.2) fun _ _ h ↦ h) fun latest ↦
      returns_bind self_returns fun active ↦ returns_ite (fun hactive ↦ ?_) fun _ ↦ ?_
    · refine (orWait_returns hS hversion hv).mono (fun lease h ↦ ⟨h.2.1, h.2.2, ?_⟩) fun _ _ h ↦ h
      exact eq_of_beq (h.1.symm.trans hactive)
    · exact returns_bind (activateAttaching_returns.mono (fun _ h ↦ h.2.1) fun _ _ h ↦ h) fun _ ↦
        orWait_returns hS hversion hv

end Activation

theorem requireSealedBatch_returns :
    (requireSealedBatch svc S).Returns A (Own id v) fun _ ↦ Own id v := by
  refine returns_bind self_returns fun ready ↦ returns_ite (fun _ ↦ returns_pure fun _ h ↦ h.2)
    fun _ ↦ ?_
  exact returns_bind (applied_returns.mono (fun _ h ↦ h.2) fun _ _ h ↦ h.1) fun _ ↦
    raiseFor_returns.mono (fun _ h ↦ h) fun _ _ h ↦ h.2

theorem barrierTimeout_returns {given : Option Seconds} :
    (barrierTimeout S given).Returns A P fun _ ↦ P := by
  refine returns_bind timeoutSeconds_returns fun timeout ↦ ?_
  cases timeout with
  | none => exact returns_throw
  | some t =>
      exact returns_ite (fun _ ↦ returns_throw) fun _ ↦
        returns_ite (fun _ ↦ returns_pure fun _ h ↦ h) fun _ ↦ returns_throw

theorem barrierRound_returns {generation : ℕ} {deadline : ℚ} {latest : LeaseStatus} :
    (barrierRound svc S generation deadline latest).Returns A
      (fun lease ↦ Own id v lease ∧ Told svc S latest lease) fun r lease ↦
      Sum.elim (fun latest ↦ Told svc S latest lease ∧ lease.nativePipelineBarrierGranted = true)
        (fun latest ↦ Own id v lease ∧ Told svc S latest lease) r := by
  refine returns_bind self_returns fun granted ↦
    returns_ite (fun hgranted ↦ returns_pure fun lease h ↦ ?_) fun _ ↦ ?_
  · exact ⟨h.2.2, h.1.symm.trans hgranted⟩
  · refine returns_bind (raiseFor_returns.mono (fun _ h ↦ h.2.1) fun _ _ h ↦ h.2) fun _ ↦
      returns_bind ask_returns fun now ↦ ?_
    refine returns_ite (fun _ ↦ returns_bind self_returns fun _ ↦ returns_throw) fun _ ↦ ?_
    exact returns_bind applied_returns fun _ ↦ returns_pure fun _ h ↦ h

theorem waitForNativePipelineBarrier_returns {given : Option Seconds} {poll : Seconds} {rounds : ℕ}
    (hv : 2 ≤ v) : (waitForNativePipelineBarrier svc S given poll rounds).Returns A (Own id v)
      fun r lease ↦ ∀ latest, r = some latest → Told svc S latest lease ∧
        lease.nativePipelineBarrierGranted = true := by
  refine returns_bind self_returns fun old ↦ returns_ite (fun hold ↦ ?_) fun _ ↦ ?_
  · intro o n lease _ h
    have hlt := h.1.symm.trans hold
    rw [decide_eq_true_eq, h.2.2] at hlt
    omega
  · refine returns_bind (requireSealedBatch_returns.mono (fun _ h ↦ h.2) fun _ _ h ↦ h) fun _ ↦
      returns_bind barrierTimeout_returns fun timeout ↦ returns_bind (T := fun _ ↦ Own id v)
        (returns_ite (fun _ ↦ returns_pure fun _ h ↦ h) fun _ ↦ returns_throw) fun _ ↦ ?_
    exact returns_bind (self_returns.mono (fun _ h ↦ h) fun _ _ h ↦ h.2) fun generation ↦
      returns_bind applied_returns fun latest ↦ returns_bind ask_returns fun now ↦
        iterate_returns (Q := fun latest lease ↦ Told svc S latest lease ∧
          lease.nativePipelineBarrierGranted = true) fun _ ↦ barrierRound_returns

theorem orKept_of_ne {value kept : ℕ} (h : value ≠ 0) : orKept value kept = value := by
  simp [orKept, h]

theorem cohortCompleted_of_told {latest : LeaseStatus} {lease : AedtProjectLease}
    (htold : Told svc S latest lease) (hgranted : lease.nativePipelineBarrierGranted = true) :
    CohortCompleted svc S latest lease := by
  obtain ⟨db, hdb, htells⟩ := htold
  obtain ⟨hstatus, before, hlease⟩ := htells
  obtain ⟨l, hl, hid, -, hsession, -, hgeneration, -, hbarrier⟩ := Pool.leaseStatus_eq_some hstatus
  rw [hlease] at hgranted
  have hshown := hbarrier.symm.trans hgranted
  simp only [Pool.Db.barrierGranted, Bool.and_eq_true, decide_eq_true_eq, Bool.not_eq_true',
    List.isEmpty_eq_false_iff, List.all_eq_true] at hshown
  obtain ⟨⟨⟨⟨hsid, hpos⟩, -⟩, hsome⟩, hall⟩ := hshown
  have hs : lease.sessionId = l.sessionId.getD 0 := by
    rw [hlease, ← hsession]
    exact orKept_of_ne (by omega)
  have hg : lease.solvePermitGeneration = l.solvePermitGeneration := by
    rw [hlease, ← hgeneration]
    exact orKept_of_ne (by omega)
  refine ⟨db, hdb, ⟨hstatus, before, hlease⟩, ?_, ?_⟩
  · rwa [hs, hg]
  · rwa [hs, hg]

def Late (t : ℚ) : (q : Question) → q.Answer S → Prop
  | .monotonic, now => t ≤ now
  | .time, now => t ≤ now
  | _, _ => True

/-- The clocks pass every bound, and no reservation is given more time than `d`. -/
structure TimePasses (o : Oracle Question (Question.Answer S)) (d : Pool.Time) : Prop where
  late : ∀ t, ∃ n, Proc.Within (Late t) o n
  deadline : ∀ db ∈ S, ∀ r ∈ db.reservations, r.expiresAt ≤ d

/-- The cohort of the lease waits no longer than until `d`. -/
def DueBy (d : Pool.Time) (lease : AedtProjectLease) : Prop :=
  ∀ t, lease.exactSessionCohortDeadlineAt = some t → t ≤ d

theorem dueBy_of_told {d : Pool.Time} {latest : LeaseStatus} {lease : AedtProjectLease}
    (hd : ∀ db ∈ S, ∀ r ∈ db.reservations, r.expiresAt ≤ d) (htold : Told svc S latest lease) :
    DueBy d lease := by
  obtain ⟨db, hdb, hstatus, before, rfl⟩ := htold
  intro t ht
  obtain ⟨r, hr, rfl⟩ := Pool.leaseStatus_deadline hstatus ht
  exact hd db hdb r hr

theorem deadlineRemaining_late {d : Pool.Time} {t : ℚ} (ht : (d : ℚ) ≤ t) :
    (exactSessionCohortDeadlineRemaining S).Returns (Late t) (DueBy d) fun c _ ↦
      ∀ r, c = some r → r ≤ 0 := by
  refine returns_bind self_returns fun deadline ↦ ?_
  cases deadline with
  | none => exact returns_pure fun _ _ _ h ↦ by cases h
  | some deadline =>
      refine returns_bind (T := fun now lease ↦ t ≤ now ∧ deadline ≤ d)
        (returns_lift (Proc.yields_query fun lease now hnow h ↦ ⟨hnow, h.2 deadline ?_⟩))
        fun now ↦ returns_pure fun _ h r hr ↦ ?_
      · have hread := h.1
        split at hread
        · exact hread.symm
        · cases hread
      · obtain rfl := Option.some.inj hr
        have hdeadline : (deadline : ℚ) ≤ d := by exact_mod_cast h.2
        linarith [h.1]

theorem sealBatch_late {d : Pool.Time} {t : ℚ} (ht : (d : ℚ) ≤ t)
    (hd : ∀ db ∈ S, ∀ r ∈ db.reservations, r.expiresAt ≤ d) :
    (sealBatch svc S).Returns (Late t) (Own id v) fun r _ ↦ ∀ next, r ≠ .inr next := by
  refine returns_bind applied_returns fun latest ↦ returns_bind self_returns fun granted ↦
    returns_ite (fun _ ↦ returns_pure fun _ _ _ h ↦ by cases h) fun _ ↦ ?_
  refine returns_bind (raiseFor_returns.mono (fun _ h ↦ dueBy_of_told hd h.2.2) fun _ _ h ↦ h.2)
    fun _ ↦ returns_bind (deadlineRemaining_late ht) fun cohortRemaining ↦
      returns_bind self_returns fun waiting ↦ ?_
  cases cohortRemaining with
  | none => exact returns_throw
  | some c =>
      refine returns_ite (fun hpos ↦ ?_) fun _ ↦ returns_throw
      exact returns_bind ask_returns fun now ↦ returns_pure
        fun _ h ↦ absurd (h.2 c rfl) (not_le.mpr hpos)

/-- A late round leaves the deadline of its wait as it is, and goes on only before it. -/
theorem examine_late {d : Pool.Time} {t deadline : ℚ} {latest : LeaseStatus} (ht : (d : ℚ) ≤ t)
    (hd : ∀ db ∈ S, ∀ r ∈ db.reservations, r.expiresAt ≤ d) :
    (examine svc S deadline latest).Returns (Late t)
      (fun lease ↦ Own id v lease ∧ Told svc S latest lease) fun r _ ↦
      ∀ next, r = .inr next → next = deadline ∧ t < deadline := by
  refine returns_bind self_returns fun granted ↦
    returns_ite (fun _ ↦ returns_pure fun _ _ _ h ↦ by cases h) fun _ ↦ ?_
  refine returns_bind (raiseFor_returns.mono (fun _ h ↦ h.2) fun _ _ h ↦ h.2) fun _ ↦
    returns_bind (T := fun now lease ↦ t ≤ now ∧ Own id v lease)
      (returns_lift (Proc.yields_query fun lease now hnow h ↦ ⟨hnow, h.1⟩)) fun now ↦
      returns_bind deadlineRemaining_returns fun c ↦ ?_
  refine returns_ite (fun _ ↦ ?_) fun hremaining ↦ returns_pure fun lease h next hnext ↦ ?_
  · exact (sealBatch_late ht hd).mono (fun _ h ↦ h.2) fun _ _ h next hr ↦ absurd hr (h next)
  · have hleft : 0 < deadline - now := by
      refine lt_of_lt_of_le (not_le.mp hremaining) ?_
      cases c with
      | none => exact le_refl _
      | some c => exact min_le_left _ _
    exact ⟨(Sum.inr.inj hnext).symm, by linarith [h.1]⟩

theorem permitRound_late {d : Pool.Time} {t : ℚ} {clock : PermitClock} (ht : (d : ℚ) ≤ t)
    (hd : ∀ db ∈ S, ∀ r ∈ db.reservations, r.expiresAt ≤ d) :
    (permitRound svc S clock).Returns (Late t) (Own id v) fun r _ ↦
      ∀ next, r = .inr next → next.deadline = clock.deadline ∧ t < clock.deadline := by
  refine returns_bind ask_returns fun alive ↦ returns_bind ask_returns fun now ↦
    returns_bind poll_returns fun latest ↦ returns_bind (examine_late ht hd) fun r ↦ ?_
  cases r with
  | inl latest => exact returns_pure fun _ _ _ h ↦ by cases h
  | inr deadline =>
      refine returns_pure fun _ h next hnext ↦ ?_
      obtain rfl := Sum.inr.inj hnext
      exact h deadline rfl

theorem permitRound_asks {clock : PermitClock} {C : LeaseStatus ⊕ PermitClock → Prop} :
    (permitRound svc S clock).Asks C := asks_bind_left asks_query

theorem barrierRound_asks {generation : ℕ} {deadline : ℚ} {latest : LeaseStatus} :
    (barrierRound svc S generation deadline latest).Asks (·.isRight) :=
  asks_bind fun _ ↦ asks_ite (fun _ ↦ asks_pure (by simp)) fun _ ↦
    asks_bind fun _ ↦ asks_bind_left asks_query

/-- The permit rounds end: some time after every cohort is due, and after that some time after the
deadline of the wait, a round is the last. -/
theorem permitRounds_finish {o : Oracle Question (Question.Answer S)} {d : Pool.Time}
    (ho : TimePasses o d) {clock : PermitClock} :
    Finishes o (iterate (permitRound svc S) · clock) fun _ ↦ Own id v := by
  obtain ⟨due, hdue⟩ := ho.late d
  refine finishes_of_late (R := fun _ _ ↦ Own id v) (N := due) (fun _ ↦ permitRound_asks)
    (fun n clock lease hown next hnext ↦ ?_) fun clock ↦ ?_
  · exact permitRound_returns o n lease Proc.within_any hown (.inr next) hnext
  · obtain ⟨late, hlate⟩ := ho.late (max d clock.deadline)
    intro n lease ⟨hn, hown⟩
    refine finishes_of_late (N := late)
      (R := fun n next lease ↦ (due ≤ n ∧ next.deadline = clock.deadline) ∧ Own id v lease)
      (fun _ ↦ permitRound_asks) (fun n here lease h next hnext ↦ ?_) (fun here n lease h ↦ ?_)
      n lease ⟨⟨hn, rfl⟩, hown⟩
    · have hkept := permitRound_late (le_refl _) ho.deadline o n lease (hdue.later h.1.1) h.2
        (.inr next) hnext next rfl
      exact ⟨⟨h.1.1.trans (Proc.le_asked _), hkept.1.trans h.1.2⟩,
        permitRound_returns o n lease Proc.within_any h.2 (.inr next) hnext⟩
    · refine exists_rounds_of_turn fun next hnext ↦ ?_
      have hlast := permitRound_late (le_max_left _ _) ho.deadline o n lease (hlate.later h.1) h.2.2
        (.inr next) hnext next rfl
      rw [h.2.1.2] at hlast
      exact absurd hlast.2 (not_lt.mpr (le_max_right _ _))

theorem barrierRound_late {generation : ℕ} {t deadline : ℚ} {latest : LeaseStatus} :
    (barrierRound svc S generation deadline latest).Returns (Late t)
      (fun lease ↦ Own id v lease ∧ Told svc S latest lease) fun r _ ↦
      ∀ next, r = .inr next → t < deadline := by
  refine returns_bind self_returns fun granted ↦
    returns_ite (fun _ ↦ returns_pure fun _ _ _ h ↦ by cases h) fun _ ↦ ?_
  refine returns_bind (raiseFor_returns.mono (fun _ h ↦ h.2) fun _ _ h ↦ h.2) fun _ ↦
    returns_bind (T := fun now lease ↦ t ≤ now ∧ Own id v lease)
      (returns_lift (Proc.yields_query fun lease now hnow h ↦ ⟨hnow, h.1⟩)) fun now ↦ ?_
  refine returns_ite (fun _ ↦ returns_bind self_returns fun _ ↦ returns_throw) fun hremaining ↦ ?_
  refine returns_bind (T := fun _ _ ↦ t < deadline) (fun o n lease ho h _ _ ↦ ?_)
    fun _ ↦ returns_pure fun _ h _ _ ↦ h
  linarith [h.1, not_le.mp hremaining]

theorem barrierRounds_finish {o : Oracle Question (Question.Answer S)} {d : Pool.Time}
    (ho : TimePasses o d) {generation : ℕ} {deadline : ℚ} {latest : LeaseStatus} :
    Finishes o (iterate (barrierRound svc S generation deadline) · latest)
      fun _ lease ↦ Own id v lease ∧ Told svc S latest lease := by
  obtain ⟨late, hlate⟩ := ho.late deadline
  refine finishes_of_late (N := late)
    (R := fun _ latest lease ↦ Own id v lease ∧ Told svc S latest lease)
    (fun _ ↦ barrierRound_asks) (fun n latest lease h next hnext ↦ ?_) fun latest n lease h ↦ ?_
  · exact barrierRound_returns o n lease Proc.within_any h (.inr next) hnext
  · exact exists_rounds_of_turn fun next hnext ↦
      lt_irrefl _ (barrierRound_late o n lease (hlate.later h.1) h.2 (.inr next) hnext next rfl)

theorem waitForSolvePermit_finishes {o : Oracle Question (Question.Answer S)} {d : Pool.Time}
    (ho : TimePasses o d) {given : Option Seconds} :
    Finishes o (waitForSolvePermit svc S given ·) fun _ ↦ Own id v := by
  refine finishes_bind self_returns fun early ↦ finishes_ite (fun _ ↦ ?_) fun _ ↦ ?_
  · exact finishes_bind (applied_returns.mono (fun _ h ↦ h.2) fun _ _ h ↦ h) fun _ ↦ finishes_some
  · exact finishes_bind (fillTimeout_returns.mono (fun _ h ↦ h.2) fun _ _ h ↦ h) fun timeout ↦
      finishes_bind ask_returns fun now ↦ finishes_bind ask_returns fun last ↦
        permitRounds_finish ho

theorem orWait_finishes {o : Oracle Question (Question.Answer S)} {d : Pool.Time}
    (ho : TimePasses o d) {latest : LeaseStatus} :
    Finishes o (orWait svc S latest ·) fun _ ↦ Own id v :=
  finishes_bind (self_returns.mono (fun _ h ↦ h) fun _ _ h ↦ h.2) fun _ ↦
    finishes_ite (fun _ ↦ waitForSolvePermit_finishes ho) fun _ ↦ finishes_some

theorem wait_finishes {o : Oracle Question (Question.Answer S)} {d : Pool.Time}
    (ho : TimePasses o d) (wait : Wait) :
    Finishes o (wait.run svc S ·) fun _ ↦ Own id v := by
  have hstatus : ∀ r, (applied svc S r).Returns (fun _ _ ↦ True) (Own id v) fun _ ↦ Own id v :=
    fun r ↦ applied_returns.mono (fun _ h ↦ h) fun _ _ h ↦ h.1
  cases wait with
  | solvePermit given => exact waitForSolvePermit_finishes ho
  | activate projectName =>
      refine finishes_bind rebind_returns fun _ ↦ finishes_bind
        (self_returns.mono (fun _ h ↦ h) fun _ _ h ↦ h.2) fun old ↦
          finishes_ite (fun _ ↦ finishes_bind (hstatus _) fun _ ↦ finishes_some) fun _ ↦ ?_
      refine finishes_bind (hstatus _) fun latest ↦ finishes_bind
        (self_returns.mono (fun _ h ↦ h) fun _ _ h ↦ h.2) fun active ↦
          finishes_ite (fun _ ↦ orWait_finishes ho) fun _ ↦ finishes_bind
            (activateAttaching_returns.mono (fun _ h ↦ h) fun _ _ h ↦ h.1) fun _ ↦
              orWait_finishes ho
  | nativePipelineBarrier given poll =>
      refine finishes_bind (self_returns.mono (fun _ h ↦ h) fun _ _ h ↦ h.2) fun old ↦
        finishes_ite (fun _ ↦ finishes_bind (hstatus _) fun _ ↦ finishes_some) fun _ ↦ ?_
      refine finishes_bind requireSealedBatch_returns fun _ ↦
        finishes_bind barrierTimeout_returns fun timeout ↦ finishes_bind (T := fun _ ↦ Own id v)
          (returns_ite (fun _ ↦ returns_pure fun _ h ↦ h) fun _ ↦ returns_throw) fun _ ↦ ?_
      exact finishes_bind (self_returns.mono (fun _ h ↦ h) fun _ _ h ↦ h.2) fun generation ↦
        finishes_bind applied_returns fun latest ↦ finishes_bind ask_returns fun now ↦
          barrierRounds_finish ho

/-- Wherever the server may answer the client, the lease has its permit only together with its place,
and a client that knows of its permit is not told that it is gone. -/
def PermitsActive (S : Set Pool.Db) (lease : AedtProjectLease) : Prop :=
  ∀ db ∈ S, ∀ l ∈ db.leases, l.id = lease.leaseId →
    if lease.solvePermitGranted then l.state = .active ∧ l.solvePermitAt.isSome = true
    else l.solvePermitAt.isSome = true → l.state = .active

theorem underPermit_of_told {latest : LeaseStatus} {lease : AedtProjectLease}
    (hS : ∀ db ∈ S, Pool.Sound db)
    (hactive : ∀ db ∈ S, ∀ l ∈ db.leases, l.id = lease.leaseId → l.solvePermitAt.isSome = true →
      l.state = .active)
    (htold : Told svc S latest lease) (hgranted : lease.solvePermitGranted = true) :
    UnderPermit svc S latest lease := by
  obtain ⟨db, hdb, hstatus, before, hlease⟩ := htold
  obtain ⟨l, hl, hid, hstate, hsession, hpermit, -⟩ := Pool.leaseStatus_eq_some hstatus
  have hrow : l.solvePermitAt.isSome = true := by
    rw [← hpermit]
    simpa [hlease, AedtProjectLease.applyStatus] using hgranted
  have hlactive := hactive db hdb l hl hid hrow
  obtain ⟨sid, hsid, hpos⟩ := (hS db hdb).seated.session_of_active (hS db hdb).registered hl hlactive
  refine ⟨db, hdb, ⟨hstatus, before, hlease⟩, ?_, hgranted, l, hl, hid, hlactive, hrow, ?_⟩
  · rw [hlease]
    exact hstate.trans hlactive
  · have hkept : lease.sessionId = l.sessionId.getD 0 := by
      rw [hlease, ← hsession]
      refine orKept_of_ne ?_
      rw [hsession, hsid]
      exact hpos
    rw [hkept, hsid]
    rfl

def steadyOracle {db : Pool.Db} (hdb : db ∈ S) : Oracle Question (Question.Answer S) :=
  fun _ q ↦ match q with
    | .request _ => .ok ⟨db, hdb⟩
    | .monotonic => (0 : ℚ)
    | .time => (0 : ℚ)
    | .keepaliveAlive => true
    | .timeout _ => none

/-- The first poll of a wait comes back with the permit that it shows. -/
theorem steady_wait {db : Pool.Db} (hdb : db ∈ S) {lease : AedtProjectLease} {status : LeaseStatus}
    (hstatus : svc.leaseStatus db lease.leaseId = some status)
    (hgranted : lease.solvePermitGranted = true ∨ status.solvePermitGranted = true) :
    ∃ n, ((Wait.solvePermit (some (some 0))).run svc S 1).run.solo (steadyOracle hdb) 0 lease =
      ⟨.ok (some status), n, lease.applyStatus status⟩ := by
  have happlied : ∀ r n, (applied svc S r).run.solo (steadyOracle hdb) n lease =
      ⟨.ok status, n + 1, lease.applyStatus status⟩ := by
    intro r n
    simp only [applied, call, ask, self, solo_run_bind, solo_run_lift, Proc.solo_query,
      steadyOracle, Proc.solo_read, hstatus]
    rfl
  by_cases hearly : (decide (lease.protocolVersion < 2) || lease.solvePermitGranted) = true
  · refine ⟨1, ?_⟩
    simp only [Wait.run, waitForSolvePermit, self, solo_run_bind, solo_run_lift, Proc.solo_read,
      hearly, if_true, Client.status, happlied]
    rfl
  · have hshown : (lease.applyStatus status).solvePermitGranted = true := by
      rw [Bool.not_eq_true, Bool.or_eq_false_iff] at hearly
      exact hgranted.resolve_left (by simp [hearly.2])
    have hfill : (fillTimeout S (some (some 0))).run.solo (steadyOracle hdb) 0 lease =
        ⟨.ok 0, 0, lease⟩ := by
      have hbounds : (0 : ℚ) ≤ 0 ∧ (0 : ℚ) ≤ maxPoolFillTimeoutSeconds := ⟨le_refl _, by decide⟩
      simp only [fillTimeout, timeoutSeconds, solo_run_bind]
      simp only [ExceptT.run_pure, Proc.solo_pure, if_pos hbounds]
    refine ⟨4 + 1, ?_⟩
    simp only [Wait.run, waitForSolvePermit, self, ask, solo_run_bind, solo_run_lift, Proc.solo_read,
      hearly, Bool.false_eq_true, if_false, hfill, Proc.solo_query, steadyOracle, iterate, permitRound, poll,
      examine, Client.status, happlied, hshown, Bool.not_true, Bool.false_and, if_true,
      ExceptT.run_pure, Proc.solo_pure]

def sealedAlone : List Pool.Event :=
  Pool.openDesktop .empty ++
    [.call {} 100010 (.requestLease (Pool.sampleRequest 1 0))] ++ Pool.attach 1 100011 ++
    [.call {} 100012 (.requestSolvePermit 1 (Pool.clientToken 1) true)]

def permitted : Pool.Db := Pool.script Pool.sampleService sealedAlone {}

/-- The heartbeat of the permitted lease has expired. -/
def releasing : Pool.Db :=
  Pool.script Pool.sampleService (sealedAlone ++
    [.call {} 104000 (.reconcile { execute := false })]) {}

theorem reachable_permitted : Pool.Reachable Pool.sampleService Pool.AnyWrite permitted :=
  Pool.reachable_script (by decide +kernel)

theorem reachable_releasing : Pool.Reachable Pool.sampleService Pool.AnyWrite releasing :=
  Pool.reachable_script (by decide +kernel)

def waiting : AedtProjectLease := { leaseId := 1, protocolVersion := 2, state := .active }

end SlurmScheduler.Client
