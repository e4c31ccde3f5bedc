import SlurmScheduler.Pool.Reservations
import SlurmScheduler.Pool.Canary

namespace SlurmScheduler.Pool

open Relational PoolTx

/-- `_lease_fits_session`; `used` is the session's number of occupied slots. -/
def leaseFitsSession (l : Lease) (s : Session) (used : ℕ) (occupants : List Lease)
    (reservedForOthers : ℕ) (pending : List Reservation) : Bool :=
  decide (used + reservedForOthers < s.slotsTotal) && s.reuseBlockedAt.isNone &&
  occupants.all (!·.exclusiveSession) && !(l.exclusiveSession && !occupants.isEmpty) &&
  (l.requestedSessionId == 0 ||
    (s.id == l.requestedSessionId && s.generation == l.requestedSessionGeneration)) &&
  (l.mixedCanarySessionId == 0 || s.id == l.mixedCanarySessionId) &&
  (if l.mixedCanaryAdmissionId != 0 then
    occupants.all (·.mixedCanaryAdmissionId == l.mixedCanaryAdmissionId)
  else occupants.all (·.mixedCanaryAdmissionId == 0)) &&
  if l.protocolVersion < 2 then
    pending.isEmpty && occupants.all fun o ↦
      decide (o.protocolVersion < 2) && o.placementGroup == l.placementGroup
  else
    s.sessionProfile == l.sessionProfile &&
    (occupants.all fun o ↦ 2 ≤ o.protocolVersion && o.sessionProfile == l.sessionProfile) &&
    (pending.all fun r ↦ r.workloadFamily != "" && r.isolationPolicy.isSome &&
      r.sessionProfile == l.sessionProfile) &&
    match l.isolationPolicy with
    | .family =>
        (occupants.all fun o ↦
          o.isolationPolicy == .family && o.workloadFamily == l.workloadFamily) &&
        pending.all fun r ↦
          r.isolationPolicy == some .family && r.workloadFamily == l.workloadFamily
    | .sharedIfCompatible =>
        (occupants.all (·.isolationPolicy == .sharedIfCompatible)) &&
        pending.all (·.isolationPolicy == some .sharedIfCompatible)
    | .exclusive => occupants.isEmpty && pending.isEmpty

def reconcilePlacementBatchSize : ℕ := 32

def Db.placementBatch (db : Db) (cfg : AedtPoolConfig) (now : Time) (leaseIds : Option (List ℕ)) :
    List Lease :=
  let ready := db.leases.select fun l ↦ l.state == .queued &&
    (decide (l.protocolVersion < 2) || decide (now - cfg.queuedStaleSeconds ≤ l.lastHeartbeatAt))
  match leaseIds with
  | some ids => (ready.filter (ids.contains ·.id)).take (max 1 ids.length)
  | none =>
      (ready.filter (db.placementCursor < ·.id) ++ ready.filter (·.id ≤ db.placementCursor)).take
        reconcilePlacementBatchSize

def Db.placementOrder (db : Db) (a b : Session) : Prop :=
  db.used b.id < db.used a.id ∨ (db.used a.id = db.used b.id ∧ a.id ≤ b.id)

instance (db : Db) : DecidableRel db.placementOrder := fun _ _ ↦
  inferInstanceAs (Decidable (_ ∨ (_ ∧ _)))

/-- A session that the placement query of `_place_queued_leases` offers to any lease. -/
def Db.openForPlacement (db : Db) (cfg : AedtPoolConfig) (clock : Time) (s : Session) : Bool :=
  s.state.assignable && s.lastHeartbeatAt.any (clock - cfg.sessionHeartbeatTimeoutSeconds ≤ ·) &&
  s.solveBatchSealedAt.isNone && s.reuseBlockedAt.isNone &&
  (db.allocationOf s).any fun a ↦ a.state.serving &&
    (cfg.allocationMaxAgeSeconds == 0 ||
      decide (clock - cfg.allocationMaxAgeSeconds < a.createdAt))

def Db.placementSessions (db : Db) (cfg : AedtPoolConfig) (clock : Time) (l : Lease) :
    List Session :=
  (db.sessions.select fun s ↦ db.openForPlacement cfg clock s &&
    (l.requestedAllocationId == 0 || s.allocationId == l.requestedAllocationId) &&
    (l.requestedNodeName == "" || s.nodeName == l.requestedNodeName) &&
    (l.requestedSessionId == 0 ||
      (s.id == l.requestedSessionId && s.generation == l.requestedSessionGeneration)) &&
    (l.mixedCanarySessionId == 0 || s.id == l.mixedCanarySessionId) &&
    (l.mixedCanarySessionId != 0 || !db.canaryReserving s.id) &&
    (decide (l.protocolVersion < 2) || s.sessionProfile == l.sessionProfile)
    ).insertionSort db.placementOrder

def Db.reservationOfLease (db : Db) (l : Lease) : Option Reservation :=
  (db.reservations.find? l.exactSessionReservationId).filter fun r ↦
    r.state == .claimed && r.leaseId == some l.id

/-- The inner loop of `_place_queued_leases` on one session. -/
def Db.accepts (db : Db) (l : Lease) (s : Session) : Bool :=
  let others := db.reservations.select fun r ↦ r.holds s.id &&
    (l.exactSessionReservationId == 0 || r.id != l.exactSessionReservationId)
  let key := ((db.reservationOfLease l).map (·.reservationKey)).getD ""
  let pending := others.filter fun r ↦ key == "" || r.reservationKey != key
  (l.exactSessionReservationId == 0 || (db.reservationOfLease l).isSome) &&
    leaseFitsSession l s (db.used s.id) (db.occupants s.id) others.length pending

/-- `next(index for index in range(slots_total) if index not in occupied)` -/
def Db.freeSlot (db : Db) (s : Session) : Option ℕ :=
  (List.range s.slotsTotal).find? fun i ↦
    !(db.occupants s.id).any fun o ↦ o.slotIndex.getD 0 == i

def placeLease (cfg : AedtPoolConfig) (now clock : Time) (l : Lease) : PoolTx Unit := do
  let expired := !(l.clientDeadlineAt.any (now < ·))
  let terminal ← read (·.taskTerminal l.taskId)
  let admitted ← read (·.admittedProjectCount l.taskId l.exactSessionReservationId l.id)
  if expired || terminal || cfg.targetProjects == 0 || cfg.targetProjects ≤ admitted then
    return ()
  let selected ← read fun db ↦ (db.placementSessions cfg clock l).find? (db.accepts l)
  match selected with
  | none => return ()
  | some s =>
      let slot ← read (·.freeSlot s)
      let slot ← require slot (.runtime "StopIteration")
      let queued ← read fun db ↦ (db.leases.find? l.id).any (·.state == .queued)
      if queued then
        let consumable ← read fun db ↦
          l.exactSessionReservationId == 0 || (db.reservationOfLease l).isSome
        Tx.require consumable (.runtime "exact-session reservation changed during placement")
        write (.place l s.id slot (clock + cfg.offerAckSeconds) now)

/-- `_place_queued_leases`; `clock` is the service's own `_now()` during the pass. -/
def placeQueuedLeases (cfg : AedtPoolConfig) (now clock : Time) (leaseIds : Option (List ℕ))
    (refreshReservations : Bool) : PoolTx Unit := do
  if !cfg.operational then return ()
  refreshMixedCanaryAdmissions now
  if refreshReservations then refreshExactSessionReservations now
  let queued ← read (·.placementBatch cfg now leaseIds)
  if leaseIds.isNone then
    write (.advanceCursor ((queued.getLast?.map (·.id)).getD 0))
  Tx.forEach queued (placeLease cfg now clock)

def Db.exactSessionReservationsAreActive (db : Db) (sid : ℕ) : Bool :=
  (db.reservations.select fun r ↦ r.sessionId == sid && r.state.live).all fun r ↦
    r.state == .consumed && (db.leaseOf r).any fun l ↦
      l.sessionId == some r.sessionId && l.state == .active

def Db.granted (db : Db) (sid generation : ℕ) : List Lease :=
  db.leases.select fun l ↦ l.sessionId == some sid && l.solvePermitGeneration == generation &&
    l.solvePermitAt.isSome

/-- The granted lease attested its pipeline for this session and generation and was released. -/
def Lease.attested (l : Lease) (sid generation : ℕ) : Bool :=
  l.state == .released && l.nativePipelineCompletedAt.isSome &&
    l.nativePipelineSessionId == sid && l.nativePipelineGeneration == generation

def Lease.waiting (l : Lease) : Bool := l.state == .active && l.solvePermitAt.isNone

def parallelSafeNativeSolveFamilies : List String := []

/-- The members of the next wave: the oldest waiting lease, and its family where that is safe. -/
def nextWave (svc : Service) (occupants : List Lease) : List Lease :=
  match occupants.filter (·.waiting) with
  | [] => []
  | first :: rest =>
      let family := svc.lower (svc.strip first.workloadFamily)
      if parallelSafeNativeSolveFamilies.contains family then
        first :: rest.filter fun l ↦ svc.lower (svc.strip l.workloadFamily) == family
      else [first]

/-- An unsealed session may be sealed: its canary and exact cohorts are complete, all occupants
are active, and the batch is full, exclusive or allowed to be underfilled. -/
def Db.sealable (db : Db) (s : Session) (allowUnderfilled : Bool) : Bool :=
  let occupants := db.occupants s.id
  db.mixedCanaryBatchIsComplete s.id && db.exactSessionReservationsAreActive s.id &&
  !occupants.isEmpty && occupants.all (·.state == .active) &&
  (decide (s.slotsTotal ≤ occupants.length) || occupants.any (·.exclusiveSession) ||
    allowUnderfilled)

def grantSolveBatchIfReady (svc : Service) (sid : ℕ) (now : Time) (allowUnderfilled : Bool) :
    PoolTx Unit := do
  if sid == 0 then return ()
  refreshMixedCanaryAdmissions now
  refreshExactSessionReservations now
  let session ← read (·.sessions.find? sid)
  match session.filter (·.state.assignable) with
  | none => return ()
  | some s =>
      let wave ← read fun db ↦ (nextWave svc (db.occupants sid)).map (·.id)
      if s.solveBatchSealedAt.isNone then
        let ready ← read (·.sealable s allowUnderfilled)
        if ready then write (.grantWave sid wave now)
      else
        let granted ← read (·.granted sid s.solveBatchGeneration)
        if granted.isEmpty || granted.any (·.state.live) then return ()
        if !granted.all (·.attested sid s.solveBatchGeneration) then
          write (.failPredecessor sid now)
          return ()
        if !wave.isEmpty then write (.grantWave sid wave now)

end SlurmScheduler.Pool
