import SlurmScheduler.Pool.Soundness

namespace SlurmScheduler.Pool

open Relational

/-- `exact_session_cohort_state` -/
inductive CohortState
  | failed | expired | broken | sealed | waiting | active | released
  deriving DecidableEq, Repr

/-- The keys of `get_lease` that the waits of a client read; zero and `none` stand for the empty
value of a key. -/
structure LeaseStatus where
  state : LeaseState
  sessionId : ℕ
  sessionGeneration : ℕ
  requestedSessionId : ℕ
  requestedSessionGeneration : ℕ
  failureMessage : String
  exactSessionReservationId : ℕ
  exactSessionReservationState : Option ReservationState
  exactSessionReservationFailureMessage : String
  exactSessionCohortState : Option CohortState
  exactSessionCohortDeadlineAt : Option Time
  exactSessionCohortFailureMessage : String
  solvePermitRequired : Bool
  solvePermitGranted : Bool
  solvePermitGeneration : ℕ
  nativePipelineExpectedCount : ℕ
  nativePipelineCompletedCount : ℕ
  nativePipelineBarrierGranted : Bool
  nativePipelineBarrierBroken : Bool

def Lease.completed (l : Lease) (sid generation : ℕ) : Bool :=
  l.nativePipelineCompletedAt.isSome && l.nativePipelineSessionId == sid &&
    l.nativePipelineGeneration == generation

def ReservationState.text : ReservationState → String
  | reserved => "reserved"
  | claimed => "claimed"
  | consumed => "consumed"
  | released => "released"
  | failed => "failed"
  | expired => "expired"

def CohortState.text : CohortState → String
  | failed => "failed"
  | expired => "expired"
  | broken => "broken"
  | sealed => "sealed"
  | waiting => "waiting"
  | active => "active"
  | released => "released"

namespace Db

variable (db : Db)

def sealedBatch (l : Lease) : Bool := (db.sessionOf l).any (·.solveBatchSealedAt.isSome)

def arrived (r : Reservation) : Bool :=
  r.state == .consumed && (db.leaseOf r).any (·.state == .active)

def cohortState (l : Lease) (cohort : List Reservation) : CohortState :=
  if cohort.any (·.state == .failed) then .failed
  else if cohort.any (·.state == .expired) then .expired
  else if cohort.any (·.state == .released) && !db.sealedBatch l &&
      cohort.any (·.state.live) then .broken
  else if db.sealedBatch l then .sealed
  else if cohort.any fun r ↦ r.state.live && !db.arrived r then .waiting
  else if cohort.any db.arrived then .active
  else .released

/-- `MIN(expires_at)` over the rows that are still alive -/
def cohortDeadline (cohort : List Reservation) : Option Time :=
  ((cohort.filter (·.state.live)).map (·.expiresAt)).min?

def barrierGranted (l : Lease) (sid : ℕ) : Bool :=
  0 < sid && 0 < l.solvePermitGeneration && l.completed sid l.solvePermitGeneration &&
    !(db.granted sid l.solvePermitGeneration).isEmpty &&
    (db.granted sid l.solvePermitGeneration).all (·.completed sid l.solvePermitGeneration)

end Db

/-- `get_lease` -/
def Service.leaseStatus (svc : Service) (db : Db) (leaseId : ℕ) : Option LeaseStatus :=
  (db.leases.find? leaseId).map fun l ↦
    let sid := l.sessionId.getD 0
    let generation := l.solvePermitGeneration
    let reservation := db.reservations.find? l.exactSessionReservationId
    let cohort := (reservation.map fun r ↦
      db.reservations.select (·.reservationKey == r.reservationKey)).getD []
    let granted := if 0 < sid && 0 < generation then db.granted sid generation else []
    { state := l.state
      sessionId := sid
      sessionGeneration := ((db.sessionOf l).map (·.generation)).getD 0
      requestedSessionId := l.requestedSessionId
      requestedSessionGeneration := l.requestedSessionGeneration
      failureMessage := l.failureMessage
      exactSessionReservationId := l.exactSessionReservationId
      exactSessionReservationState := reservation.map (·.state)
      exactSessionReservationFailureMessage := (reservation.map (·.failureMessage)).getD ""
      exactSessionCohortState := reservation.map fun _ ↦ db.cohortState l cohort
      exactSessionCohortDeadlineAt := Db.cohortDeadline cohort
      exactSessionCohortFailureMessage :=
        ((cohort.map fun r ↦ svc.strip r.failureMessage).find? (· != "")).getD ""
      solvePermitRequired :=
        2 ≤ l.protocolVersion && sid != 0 && l.state == .active && l.solvePermitAt.isNone
      solvePermitGranted := l.solvePermitAt.isSome
      solvePermitGeneration := generation
      nativePipelineExpectedCount := granted.length
      nativePipelineCompletedCount := granted.countP (·.completed sid generation)
      nativePipelineBarrierGranted := db.barrierGranted l sid
      nativePipelineBarrierBroken := !db.barrierGranted l sid &&
        granted.any fun m ↦ !m.completed sid generation && m.state != .active }

theorem leaseStatus_eq_some {svc : Service} {db : Db} {leaseId : ℕ} {status : LeaseStatus}
    (h : svc.leaseStatus db leaseId = some status) : ∃ l ∈ db.leases, l.id = leaseId ∧
      status.state = l.state ∧ status.sessionId = l.sessionId.getD 0 ∧
      status.solvePermitGranted = l.solvePermitAt.isSome ∧
      status.solvePermitGeneration = l.solvePermitGeneration ∧
      status.solvePermitRequired = (decide (2 ≤ l.protocolVersion) && l.sessionId.getD 0 != 0 &&
        l.state == .active && l.solvePermitAt.isNone) ∧
      status.nativePipelineBarrierGranted = db.barrierGranted l (l.sessionId.getD 0) := by
  obtain ⟨l, hl, rfl⟩ := Option.map_eq_some_iff.mp h
  obtain ⟨hmem, hid⟩ := Table.find?_eq_some.mp hl
  exact ⟨l, hmem, hid, rfl, rfl, rfl, rfl, rfl, rfl⟩

/-- The deadline of a cohort is the expiry of one of its reservations. -/
theorem leaseStatus_deadline {svc : Service} {db : Db} {leaseId : ℕ} {status : LeaseStatus}
    {t : Time} (h : svc.leaseStatus db leaseId = some status)
    (ht : status.exactSessionCohortDeadlineAt = some t) :
    ∃ r ∈ db.reservations, r.expiresAt = t := by
  obtain ⟨l, -, rfl⟩ := Option.map_eq_some_iff.mp h
  obtain ⟨r, hr, hexpires⟩ := List.mem_map.mp (List.min?_mem ht)
  have hcohort := (List.mem_filter.mp hr).1
  cases hreservation : db.reservations.find? l.exactSessionReservationId with
  | none => simp [hreservation] at hcohort
  | some own =>
      rw [hreservation] at hcohort
      exact ⟨r, (Table.mem_select.mp hcohort).1, hexpires⟩

theorem Seated.session_of_active {db : Db} (h : Seated db) (hr : Registered db) {l : Lease}
    (hl : l ∈ db.leases) (hactive : l.state = .active) : ∃ sid, l.sessionId = some sid ∧ sid ≠ 0 := by
  obtain ⟨s, hs, hsession, -⟩ := h.seat l hl (by rw [hactive]; rfl)
  exact ⟨s.id, hsession, hr.positive s hs⟩

end SlurmScheduler.Pool
