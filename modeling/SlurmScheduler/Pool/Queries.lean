import SlurmScheduler.Pool.Schema

namespace SlurmScheduler.Pool

open Relational

structure AedtPoolConfig where
  enabled : Bool := true
  adapterReady : Bool := true
  validationPassed : Bool := true
  targetProjects : ℕ := 500
  projectsPerSession : ℕ := 2
  projectCpus : ℕ := 4
  leaseTtlSeconds : ℕ := 1800
  queuedStaleSeconds : ℕ := 90
  offerAckSeconds : ℕ := 60
  admissionDeadlineSeconds : ℕ := 600
  sessionHeartbeatTimeoutSeconds : ℕ := 1800
  unhealthyRecycleGraceSeconds : ℕ := 180
  sessionStartTimeoutSeconds : ℕ := 600
  allocationMaxAgeSeconds : ℕ := 158400

def AedtPoolConfig.operational (c : AedtPoolConfig) : Bool :=
  c.enabled && c.adapterReady && c.validationPassed

/-- What the service takes from its environment: secrets, the hash of a token, Python's
`str.strip` and `str.lower`, the JSON profile comparison and the account selector. -/
structure Service where
  bootstrapToken : String
  tokenHash : String → String
  strip : String → String
  lower : String → String
  expectedSessionProfile : String
  /-- `none` when the text is not JSON, otherwise whether it is the expected profile. -/
  parseSessionProfile : String → Option Bool
  endpointPort : String → ℕ
  taskAccountFingerprint : Task → String
  selectorConfigured : Bool := false

namespace Service

variable (svc : Service)

def canonicalExpectedSessionProfile (value : String) : Except PoolError String :=
  if svc.strip value == "" then .error (.value "AEDT host session profile is required")
  else match svc.parseSessionProfile (svc.strip value) with
    | none => .error (.value "AEDT host session profile must be valid JSON")
    | some false =>
        .error (.value "AEDT host session profile does not match the canonical contract")
    | some true => .ok svc.expectedSessionProfile

def canonicalWorkloadFamily (value projectName : String) : String :=
  let explicit := svc.lower (svc.strip value)
  if explicit == "" then svc.lower (svc.strip projectName) else explicit

def shortNodeName (value : String) : String :=
  String.ofList ((svc.lower (svc.strip value)).toList.takeWhile (· != '.'))

/-- `isolation_policy`, or `none` when the normalized text names no policy. -/
def parseIsolationPolicy (value : String) : Option IsolationPolicy :=
  match svc.lower (svc.strip (if value == "" then "family" else value)) with
  | "family" => some .family
  | "shared_if_compatible" => some .sharedIfCompatible
  | "exclusive" => some .exclusive
  | _ => none

def isPooled (task : Task) : Bool := svc.lower (svc.strip task.aedtBackend) == "pooled"

end Service

def sessionStartAckTimeoutMessage : String := "session start acknowledgement timed out"
def sessionHeartbeatTimeoutMessage : String := "session heartbeat expired"
def transportSuspectPrefix : String := "client transport suspect:"
def nativeSuspectPrefix : String := "host native liveness suspect:"
def demandDrainReason : String := "AEDT pool project demand"
def faultedDesktopAllocationRecycleReason : String := "AEDT pool faulted Desktop allocation recycle"
def unhealthyAllocationRecycleReason : String :=
  "AEDT pool unhealthy/quarantined session allocation recycle"
def allocationAgeRotationReason : String := "AEDT pool allocation age rotation"
def storagePressureDrainReason : String :=
  "account storage pressure; draining before quota exhaustion"
def cohortExpiryReason : String := "exact-session reservation cohort expired before solve permit"
def targetUnavailableReason : String :=
  "exact-session reservation target became unavailable before solve permit"
def canaryAbortReason : String := "mixed canary admission aborted before exact batch activation"

def startsWith (pre s : String) : Bool := pre.toList.isPrefixOf s.toList

def likePrefix (pre s : String) : Bool :=
  (pre.toList.map Char.toLower).isPrefixOf (s.toList.map Char.toLower)

def notBlank (s : String) : Bool := s.toList.any (· != ' ')

def orDefault (s d : String) : String := if s == "" then d else s

/-- The messages under which `heartbeat_session` takes an unhealthy session back. -/
def recoverableMessage (m : String) : Bool :=
  m == sessionHeartbeatTimeoutMessage || startsWith transportSuspectPrefix m ||
    startsWith nativeSuspectPrefix m

/-- The same three messages as the `UPDATE` of the recovery spells them. -/
def recoverableMessageSql (m : String) : Bool :=
  m == sessionHeartbeatTimeoutMessage || likePrefix transportSuspectPrefix m ||
    likePrefix nativeSuspectPrefix m

def Lease.holds (l : Lease) (sid : ℕ) : Bool := l.sessionId == some sid && l.state.holdsSlot

def Reservation.holds (r : Reservation) (sid : ℕ) : Bool := r.sessionId == sid && r.state.holdsSlot

/-- `COALESCE(last_heartbeat_at, started_at, created_at)` -/
def Session.lastSeen (s : Session) : Time := s.lastHeartbeatAt.getD (s.startedAt.getD s.createdAt)

/-- `COALESCE(drain_requested_at, last_heartbeat_at, updated_at, created_at)` -/
def Session.unhealthySince (s : Session) : Time :=
  s.drainRequestedAt.getD (s.lastHeartbeatAt.getD s.updatedAt)

namespace Db

variable (db : Db)

def occupants (sid : ℕ) : List Lease := db.leases.select (·.holds sid)

def used (sid : ℕ) : ℕ := db.leases.count (·.holds sid)

def held (sid : ℕ) : ℕ := db.reservations.count (·.holds sid)

def leaseOf (r : Reservation) : Option Lease := r.leaseId.bind db.leases.find?

def sessionOf (l : Lease) : Option Session := l.sessionId.bind db.sessions.find?

def allocationOf (s : Session) : Option Allocation := db.allocations.find? s.allocationId

def allocationServing (s : Session) : Bool := (db.allocationOf s).any (·.state.serving)

/-- `exact_session_reservation_id IN (SELECT id … WHERE reservation_key = ?)` -/
def inCohort (reservationKey : String) (l : Lease) : Bool :=
  db.reservations.rows.any fun r ↦
    r.id == l.exactSessionReservationId && r.reservationKey == reservationKey

/-- `id IN (SELECT lease_id FROM aedt_mixed_canary_slots WHERE admission_id = ?)` -/
def inAdmission (admissionId : ℕ) (l : Lease) : Bool :=
  db.canarySlots.rows.any fun c ↦ c.admissionId == admissionId && c.leaseId == some l.id

def cohortSessions (reservationKey : String) : List ℕ :=
  ((db.reservations.select (·.reservationKey == reservationKey)).map (·.sessionId)).dedup

def permittedLease (r : Reservation) : Bool := (db.leaseOf r).any (·.solvePermitAt.isSome)

def canaryReserving (sid : ℕ) : Bool :=
  db.admissions.rows.any fun a ↦ a.sessionId == sid && a.state.reserving

def taskTerminal (taskId : ℕ) : Bool := (db.tasks.find? taskId).any (·.status.terminal)

/-- The admission keys counted by `_admitted_project_count`: a task's id, or a lease's. -/
def admissionKeys (excludeTask excludeReservation excludeLease : ℕ) : List (ℕ ⊕ ℕ) :=
  ((db.leases.select fun l ↦ l.state.holdsSlot &&
      (excludeLease == 0 || l.id != excludeLease) &&
      (excludeTask == 0 || l.taskId != excludeTask)).map fun l ↦
        if 0 < l.taskId then Sum.inl l.taskId else Sum.inr l.id) ++
  ((db.reservations.select fun r ↦ r.state.holdsSlot &&
      (excludeReservation == 0 || r.id != excludeReservation) &&
      (excludeTask == 0 || r.taskId != excludeTask)).map fun r ↦ Sum.inl r.taskId)

def admittedProjectCount (excludeTask excludeReservation excludeLease : ℕ) : ℕ :=
  (db.admissionKeys excludeTask excludeReservation excludeLease).dedup.length

def latestReservation (taskId : ℕ) : Option Reservation :=
  (db.reservations.select (·.taskId == taskId)).getLast?

end Db

end SlurmScheduler.Pool
