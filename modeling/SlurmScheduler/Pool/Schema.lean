import SlurmScheduler.Relational.Table
import SlurmScheduler.Relational.Transaction

namespace SlurmScheduler.Pool

open Relational

abbrev Time := ℕ

inductive SessionState
  | starting | ready | busy | draining | unhealthy | failed | closed
  deriving DecidableEq, Repr

namespace SessionState

def assignable : SessionState → Bool
  | ready | busy => true
  | _ => false

def terminal : SessionState → Bool
  | failed | closed => true
  | _ => false

/-- `SESSION_VISIBLE_STATES` -/
def visible (s : SessionState) : Bool := !s.terminal

end SessionState

inductive LeaseState
  | queued | offered | leased | attaching | active | releasing
  | released | failed | cancelled | expired
  deriving DecidableEq, Repr

namespace LeaseState

/-- `LEASE_SLOT_STATES` -/
def holdsSlot : LeaseState → Bool
  | offered | leased | attaching | active | releasing => true
  | _ => false

/-- `LEASE_LIVE_STATES` -/
def live (s : LeaseState) : Bool := s == queued || s.holdsSlot

/-- `LEASE_TERMINAL_STATES` -/
def terminal (s : LeaseState) : Bool := !s.live

def ownsProject : LeaseState → Bool
  | attaching | active | releasing => true
  | _ => false

end LeaseState

inductive ReservationState
  | reserved | claimed | consumed | released | failed | expired
  deriving DecidableEq, Repr

namespace ReservationState

def holdsSlot : ReservationState → Bool
  | reserved | claimed => true
  | _ => false

def live : ReservationState → Bool
  | reserved | claimed | consumed => true
  | _ => false

end ReservationState

inductive AdmissionState
  | open | filled | aborting | aborted | closed
  deriving DecidableEq, Repr

namespace AdmissionState

def pending : AdmissionState → Bool
  | .open | filled => true
  | _ => false

def reserving (s : AdmissionState) : Bool := s.pending || s == aborting

end AdmissionState

inductive TaskStatus
  | queued | attaching | running | completed | failed | cancelled
  deriving DecidableEq, Repr

namespace TaskStatus

/-- `TASK_TERMINAL_STATES` -/
def terminal : TaskStatus → Bool
  | completed | failed | cancelled => true
  | _ => false

def text : TaskStatus → String
  | queued => "queued"
  | attaching => "attaching"
  | running => "running"
  | completed => "completed"
  | failed => "failed"
  | cancelled => "cancelled"

end TaskStatus

inductive AllocationStatus
  | pending | warm | active | draining | closing | closed | failed
  deriving DecidableEq, Repr

namespace AllocationStatus

def serving : AllocationStatus → Bool
  | warm | active => true
  | _ => false

/-- The states from which a pool fault moves an allocation to `draining`. -/
def drainable : AllocationStatus → Bool
  | warm | active | draining => true
  | _ => false

end AllocationStatus

inductive IsolationPolicy
  | family | sharedIfCompatible | exclusive
  deriving DecidableEq, Repr

structure Session where
  id : ℕ
  sessionKey : String := ""
  allocationId : ℕ := 0
  accountName : String := ""
  nodeName : String := ""
  hostId : String := ""
  hostTaskId : ℕ := 0
  hostProcessId : String := ""
  hostSlurmJobId : String := ""
  actualNodeName : String := ""
  startClaimedAt : Option Time := none
  endpoint : String := ""
  processId : String := ""
  sessionProfile : String := ""
  artifactDir : String := ""
  hostStdoutPath : String := ""
  hostStderrPath : String := ""
  errorLogPath : String := ""
  journalPath : String := ""
  nativeSnapshotPath : String := ""
  runtimeMetadata : String := "{}"
  lastFaultEvidence : String := "{}"
  lastFaultAt : Option Time := none
  hostTokenHash : String := ""
  slotsTotal : ℕ := 2
  state : SessionState := .starting
  generation : ℕ := 1
  failureMessage : String := ""
  createdAt : Time := 0
  startedAt : Option Time := none
  lastHeartbeatAt : Option Time := none
  reuseBlockedAt : Option Time := none
  idleSince : Option Time := none
  drainRequestedAt : Option Time := none
  quarantineUntil : Option Time := none
  quarantineReason : String := ""
  solveBatchSealedAt : Option Time := none
  solveBatchGeneration : ℕ := 0
  closedAt : Option Time := none
  updatedAt : Time := 0

structure Lease where
  id : ℕ
  requestKey : String
  projectName : String := ""
  placementGroup : String := ""
  workloadFamily : String := ""
  sessionProfile : String := ""
  projectNamespace : String := ""
  isolationPolicy : IsolationPolicy := .family
  workspacePath : String := ""
  protocolVersion : ℕ := 1
  taskId : ℕ := 0
  requestedAllocationId : ℕ := 0
  requestedNodeName : String := ""
  requestedSessionId : ℕ := 0
  requestedSessionGeneration : ℕ := 0
  exactSessionReservationId : ℕ := 0
  exclusiveSession : Bool := false
  sessionId : Option ℕ := none
  slotIndex : Option ℕ := none
  state : LeaseState := .queued
  clientTokenHash : String := ""
  failureMessage : String := ""
  requestedAt : Time := 0
  offeredAt : Option Time := none
  offerExpiresAt : Option Time := none
  acceptedAt : Option Time := none
  activatedAt : Option Time := none
  solvePermitAt : Option Time := none
  solvePermitGeneration : ℕ := 0
  nativePipelineCompletedAt : Option Time := none
  nativePipelineSessionId : ℕ := 0
  nativePipelineGeneration : ℕ := 0
  clientDeadlineAt : Option Time := none
  acquiredAt : Option Time := none
  lastHeartbeatAt : Time := 0
  expiresAt : Time := 0
  releaseRequestedAt : Option Time := none
  finishedAt : Option Time := none
  faultPhase : String := ""
  faultKind : String := ""
  faultEvidence : String := "{}"
  mixedCanaryAdmissionId : ℕ := 0
  mixedCanarySessionId : ℕ := 0
  updatedAt : Time := 0

structure Reservation where
  id : ℕ
  reservationKey : String
  taskId : ℕ
  sessionId : ℕ
  sessionGeneration : ℕ := 0
  sessionProfile : String := ""
  workloadFamily : String := ""
  /-- Operator reservations carry no policy. -/
  isolationPolicy : Option IsolationPolicy := none
  state : ReservationState := .reserved
  leaseId : Option ℕ := none
  failureMessage : String := ""
  expiresAt : Time := 0
  createdAt : Time := 0
  claimedAt : Option Time := none
  consumedAt : Option Time := none
  finishedAt : Option Time := none
  updatedAt : Time := 0

structure Admission where
  id : ℕ
  sessionId : ℕ
  placementGroup : String := ""
  sessionProfile : String := ""
  expectedProjects : ℕ := 0
  state : AdmissionState := .open
  expiresAt : Time := 0
  createdAt : Time := 0
  filledAt : Option Time := none
  finishedAt : Option Time := none
  updatedAt : Time := 0

structure CanarySlot where
  id : ℕ
  admissionId : ℕ
  dedupeKey : String := ""
  workloadFamily : String := ""
  projectNamespace : String := ""
  leaseId : Option ℕ := none
  admittedAt : Option Time := none
  createdAt : Time := 0
  updatedAt : Time := 0

structure Validation where
  id : ℕ
  passed : Bool := false
  pooledProjects : ℕ := 0
  mixedFamilyIsolationPassed : Bool := false
  createdAt : Time := 0

structure Task where
  id : ℕ
  name : String := ""
  project : String := ""
  command : String := ""
  envSetup : String := ""
  requiredCapability : String := ""
  envProfile : String := ""
  cpus : ℕ := 1
  aedtBackend : String := "standalone"
  partition : String := "auto"
  nodeName : String := ""
  nodeNamePolicy : String := ""
  dedupeKey : String := ""
  requestedAllocationId : ℕ := 0
  status : TaskStatus := .queued
  allocationId : ℕ := 0
  accountName : Option String := none
  requestedAccountName : Option String := none
  stdoutPath : String := ""
  stderrPath : String := ""
  failureMessage : String := ""
  finishedAt : Option Time := none
  updatedAt : Time := 0

structure Allocation where
  id : ℕ
  accountName : String := ""
  partition : String := ""
  nodeName : String := ""
  slurmJobId : String := ""
  state : AllocationStatus := .pending
  failureMessage : String := ""
  drainReason : String := ""
  drainAt : Option Time := none
  createdAt : Time := 0
  updatedAt : Time := 0
  deriving DecidableEq

instance : Keyed Session := ⟨Session.id⟩
instance : Keyed Lease := ⟨Lease.id⟩
instance : Keyed Reservation := ⟨Reservation.id⟩
instance : Keyed Admission := ⟨Admission.id⟩
instance : Keyed CanarySlot := ⟨CanarySlot.id⟩
instance : Keyed Validation := ⟨Validation.id⟩
instance : Keyed Task := ⟨Task.id⟩
instance : Keyed Allocation := ⟨Allocation.id⟩

@[simp] theorem key_session (s : Session) : Keyed.key s = s.id := rfl
@[simp] theorem key_lease (l : Lease) : Keyed.key l = l.id := rfl
@[simp] theorem key_reservation (r : Reservation) : Keyed.key r = r.id := rfl
@[simp] theorem key_admission (a : Admission) : Keyed.key a = a.id := rfl
@[simp] theorem key_canarySlot (c : CanarySlot) : Keyed.key c = c.id := rfl

/-- `placementCursor` is the service's `_placement_cursor`, a field in memory. -/
structure Db where
  sessions : Table Session := .empty
  leases : Table Lease := .empty
  reservations : Table Reservation := .empty
  admissions : Table Admission := .empty
  canarySlots : Table CanarySlot := .empty
  validations : Table Validation := .empty
  tasks : Table Task := .empty
  allocations : Table Allocation := .empty
  settings : List (String × String) := []
  placementCursor : ℕ := 0

inductive PoolError
  | value (message : String)
  | key (id : ℕ)
  | permission (message : String)
  | runtime (message : String)
  | integrity (index : String)
  deriving DecidableEq, Repr

end SlurmScheduler.Pool
