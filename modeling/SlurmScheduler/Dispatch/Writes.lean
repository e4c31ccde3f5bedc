import SlurmScheduler.Dispatch.Licenses

namespace SlurmScheduler.Dispatch

open Relational
open Pool (Time TaskStatus AllocationStatus)

inductive TaskChange
  -- attaching
  | claim (allocationId : ℕ) (accountName attachToken : String)
  | launchStarted
  | attachRejected (message : String)
  | attachFailed (message : String) (files : Option Launch)
  | strictHeld (message : String) (launch : Launch)
  | strictRejected (message : String) (launch : Launch)
  | strictRetryHeld (message : String)
  | strictRetryRejected (message : String)
  | attached (launch : Launch)
  -- probes
  | probeRunning
  | probeCompleted (exitCode : Option ℤ)
  | probeCancelled
  | probeFailed (exitCode : Option ℤ) (message : String)
  -- decisions of the scheduler
  | timedOut (message : String)
  | allocationLost (message : String)
  | sameNodeFailed (message : String)
  | requestFailed (message : String)
  | pressureFailed (attempts : ℕ) (message : String)
  | pressureRequeued (attempts : ℕ) (accountName : String)
  | rebalanced (accountName : String)
  | recovered (accountName : String)
  -- users and the pool runtime
  | cancelled
  | hostFailed (message : String)
  deriving DecidableEq

namespace Task

variable (t : Task)

def withLaunch (l : Launch) : Task :=
  { t with
    remoteDir := l.remoteDir, stdoutPath := l.stdoutPath, stderrPath := l.stderrPath
    exitCodePath := l.exitCodePath, wrapperPid := l.wrapperPid }

def finish (status : TaskStatus) (now : Time) : Task :=
  { t with status, finishedAt := some now }

def fail (message : String) (now : Time) : Task :=
  { t.finish .failed now with failureMessage := message }

def requeue (accountName : String) : Task :=
  { t.withLaunch {} with
    status := .queued, allocationId := 0, accountName := some accountName, attachToken := ""
    launchStartedAt := none, failureMessage := "", attachedAt := none, startedAt := none }

end Task

namespace TaskChange

def apply (now : Time) : TaskChange → Task → Task
  | claim allocationId accountName attachToken, t =>
      { t.withLaunch {} with
        status := .attaching, allocationId, accountName := some accountName, attachToken
        launchStartedAt := none, failureMessage := "", attachedAt := some now, startedAt := none
        finishedAt := none, exitCode := none }
  | launchStarted, t => { t with launchStartedAt := some now }
  | attachRejected message, t => t.fail message now
  | attachFailed message files, t =>
      match files with
      | some l => (t.withLaunch { l with wrapperPid := t.wrapperPid }).fail message now
      | none => t.fail message now
  | strictHeld message launch, t => { t.withLaunch launch with failureMessage := message }
  | strictRejected message launch, t => (t.withLaunch launch).fail message now
  | strictRetryHeld message, t => { t with failureMessage := message }
  | strictRetryRejected message, t => t.fail message now
  | attached launch, t =>
      { t.withLaunch launch with status := .running, startedAt := some now }
  | probeRunning, t => { t with status := .running, startedAt := some now }
  | probeCompleted exitCode, t => { t.finish .completed now with exitCode }
  | probeCancelled, t => t.finish .cancelled now
  | probeFailed exitCode message, t => { t.fail message now with exitCode }
  | timedOut message, t => { t.fail message now with exitCode := some 124 }
  | allocationLost message, t => t.fail message now
  | sameNodeFailed message, t => t.fail message now
  | requestFailed message, t => t.fail message now
  | pressureFailed attempts message, t => { t.fail message now with attemptCount := attempts }
  | pressureRequeued attempts accountName, t =>
      { t.requeue accountName with attemptCount := attempts }
  | rebalanced accountName, t => t.requeue accountName
  | recovered accountName, t => t.requeue accountName
  | cancelled, t => t.finish .cancelled now
  | hostFailed message, t => t.fail message now

def stamp (now : Time) (c : TaskChange) (t : Task) : Task :=
  { c.apply now t with updatedAt := now }

theorem id_stamp (now : Time) (c : TaskChange) (t : Task) : (c.stamp now t).id = t.id := by
  cases c <;> try rfl
  case attachFailed message files => cases files <;> rfl

end TaskChange

/-- `ALLOCATION_SUBMISSION_RESERVED` -/
def submissionReserved : String := "scheduler allocation submission reserved"

/-- `ALLOCATION_SUBMISSION_IN_PROGRESS` -/
def submissionInProgress : String := "scheduler allocation submission in progress"

inductive AllocationChange
  -- refresh
  | jobMissing
  | vanished
  | jobStarted (partition : Option String) (nodeName : String)
  | nodeKnown (nodeName : String)
  | pendingBecause (reason : String)
  | jobEnded
  | jobFailed
  -- lifecycle
  | ageLimit
  -- close
  | claimed
  | probeFailed (message : String)
  | closing (reason : String)
  | cancelFailed (previous : AllocationStatus) (message : String)
  | closed
  -- submission
  | submissionStarted
  | submissionLost (message : String)
  | submissionFailed (message : String)
  | acknowledged (slurmJobId : String)
  -- recovery
  | recoveryHeld (message : String)
  | adopted (slurmJobId : String)
  | abandoned (message : String)
  deriving DecidableEq

namespace AllocationChange

def apply (now : Time) : AllocationChange → Allocation → Allocation
  | jobMissing, a => { a with state := .closed, closedAt := some now }
  | vanished, a => { a with state := .closed, closedAt := some now }
  | jobStarted partition nodeName, a =>
      { a with
        state := .warm, startedAt := some now, pendingReason := "", nodeName
        partition := partition.getD a.partition }
  | nodeKnown nodeName, a => { a with nodeName }
  | pendingBecause reason, a => { a with pendingReason := reason }
  | jobEnded, a => { a with state := .closed, closedAt := some now }
  | jobFailed, a => { a with state := .failed, closedAt := some now }
  | ageLimit, a => { a with state := .draining, drainAt := some now, drainReason := "age limit" }
  | claimed, a => { a with state := .active, lastActiveAt := some now }
  | probeFailed message, a => { a with failureMessage := message }
  | closing reason, a => { a with state := .closing, drainReason := reason }
  | cancelFailed previous message, a => { a with state := previous, failureMessage := message }
  | closed, a => { a with state := .closed, failureMessage := "", closedAt := some now }
  | submissionStarted, a =>
      { a with
        pendingReason := submissionInProgress, submittedAt := some now, failureMessage := "" }
  | submissionLost message, a => { a with failureMessage := message }
  | submissionFailed message, a =>
      { a with
        state := .failed, pendingReason := "", failureMessage := message, closedAt := some now }
  | acknowledged slurmJobId, a =>
      { a with state := .pending, pendingReason := "", failureMessage := "", slurmJobId }
  | recoveryHeld message, a => { a with failureMessage := message }
  | adopted slurmJobId, a =>
      { a with state := .pending, slurmJobId, pendingReason := "", failureMessage := "" }
  | abandoned message, a =>
      { a with
        state := .failed, pendingReason := "", failureMessage := message, closedAt := some now }

def stamp (now : Time) (c : AllocationChange) (a : Allocation) : Allocation :=
  { c.apply now a with updatedAt := now }

theorem id_stamp (now : Time) (c : AllocationChange) (a : Allocation) :
    (c.stamp now a).id = a.id := by
  cases c <;> rfl

end AllocationChange

/-- What the active tasks of an allocation reserve. -/
structure Reserved where
  activeTasks : ℕ := 0
  cpus : ℕ := 0
  memoryMb : ℕ := 0
  gpus : ℕ := 0
  deriving DecidableEq

/-- A row of `capacity_rows`, computed from a snapshot of the allocation. -/
structure CapacityRow where
  id : ℕ
  state : AllocationStatus
  freeCpus : ℕ
  freeMemoryMb : ℕ
  freeGpus : ℕ
  activeTasks : ℕ

def capacityRow (allocation : Allocation) (stats : Reserved) : CapacityRow where
  id := allocation.id
  state :=
    if allocation.state != .draining then if stats.activeTasks != 0 then .active else .warm
    else allocation.state
  freeCpus := allocation.totalCpus - stats.cpus
  freeMemoryMb := allocation.totalMemoryMb - stats.memoryMb
  freeGpus := allocation.totalGpus - stats.gpus
  activeTasks := stats.activeTasks

def CapacityRow.stamp (row : CapacityRow) (now : Time) (a : Allocation) : Allocation :=
  { a with
    state := row.state, freeCpus := row.freeCpus, freeMemoryMb := row.freeMemoryMb
    freeGpus := row.freeGpus
    lastActiveAt := if row.activeTasks != 0 then some now else a.lastActiveAt, updatedAt := now }

inductive JobChange
  | recovered
  | submitting (accountName : String)
  | submitFailed (message : String)
  | submitted (slurmJobId : String)
  | refreshed (status : JobStatus)
  | cancelled
  deriving DecidableEq

def JobStatus.terminal : JobStatus → Bool
  | completed | failed | cancelled => true
  | _ => false

def JobChange.stamp (now : Time) (c : JobChange) (j : Job) : Job :=
  let j := { j with updatedAt := now }
  match c with
  | recovered => { j with status := .queued, failureMessage := "" }
  | submitting accountName => { j with status := .submitting, accountName }
  | submitFailed message =>
      { j with status := .failed, failureMessage := message, finishedAt := some now }
  | submitted slurmJobId =>
      { j with status := .submitted, submittedAt := some now, slurmJobId }
  | refreshed status =>
      { j with status, finishedAt := if status.terminal then some now else j.finishedAt }
  | cancelled => { j with status := .cancelled, finishedAt := some now }

theorem JobChange.id_stamp (now : Time) (c : JobChange) (j : Job) : (c.stamp now j).id = j.id := by
  cases c <;> rfl

/-- What `update_pooled_task_if_reserved_capacity` compares with. -/
structure PooledClaim where
  allocationId : ℕ
  heartbeatCutoff : Time
  now : Time
  projectCpus : ℕ

inductive Write
  -- tasks
  | createTask (columns : Task)
  | updateTask (seen : Task) (change : TaskChange)
  | updateTaskIfStatus (seen : Task) (expected : List TaskStatus) (change : TaskChange)
  | updateTaskIfAttachClaim (seen : Task) (attachToken : String) (launchNotStarted : Bool)
      (change : TaskChange)
  | updatePooledTaskIfReservedCapacity (seen : Task) (claim : PooledClaim) (change : TaskChange)
  -- allocations
  | createAllocation (columns : Allocation)
  | updateAllocation (seen : Allocation) (change : AllocationChange)
  | updateAllocationIfSubmissionClaim (id : ℕ) (phase : String) (change : AllocationChange)
  | updateAllocationCapacity (seen : Allocation) (stats : Reserved)
  -- jobs
  | createJob
  | updateJob (id : ℕ) (change : JobChange)
  -- the pool service
  | pool (w : Pool.Write)
  -- memory
  | started (needsReconcile : Bool)
  | reconciled
  | trackTimedOut (task : Task)
  | timedOutReturned (task : Task) (returned : Bool)
  | forgetTimedOut (taskId : ℕ)
  | submitted (outcomes : List (ℕ × Submission))
  | setLicenseClaim (key : String) (claim : LicenseClaim)
  | onLicenseClaims (task : Task) (keys : List String) (event : LicenseEvent)
  | publishLicenseSnapshot (usage : LicenseUsage) (settlementSeconds : ℕ)
  | setLicenseUsage (usage : LicenseUsage)
  -- outside
  | remote (r : Remote)
  | elapse (seconds : ℕ)

/-- `LOWER(TRIM(COALESCE(aedt_backend, ''))) = 'pooled'` -/
def Task.sqlPooled (t : Task) : Bool :=
  ((t.aedtBackend.toList.dropWhile (· == ' ')).reverse.dropWhile (· == ' ')).reverse.map
    Char.toLower == "pooled".toList

namespace State

variable (s : State)

def onTasks (p : Task → Bool) (f : Task → Task) (hf : ∀ t, (f t).id = t.id) : State :=
  { s with tasks := s.tasks.update p f hf }

def onAllocations (p : Allocation → Bool) (f : Allocation → Allocation)
    (hf : ∀ a, (f a).id = a.id) : State :=
  { s with allocations := s.allocations.update p f hf }

def onMemory (f : Memory → Memory) : State := { s with memory := f s.memory }

def heldSession (c : PooledClaim) (r : Pool.Reservation) (x : Pool.Session) : Bool :=
  x.id == r.sessionId && x.allocationId == c.allocationId &&
    x.generation == r.sessionGeneration && x.sessionProfile == r.sessionProfile &&
    x.state.assignable && (s.allocation? x.allocationId).any (·.state.serving) &&
    x.lastHeartbeatAt.any (c.heartbeatCutoff ≤ ·) && x.quarantineUntil.all (· ≤ c.now) &&
    x.reuseBlockedAt.isNone && x.solveBatchSealedAt.isNone && x.drainRequestedAt.isNone

/-- The `WHERE` of `update_pooled_task_if_reserved_capacity`. -/
def reservedCapacity (c : PooledClaim) (t : Task) : Bool :=
  t.status == .queued && t.sqlPooled && t.requestedAllocationId == c.allocationId &&
    max 1 c.projectCpus ≤ t.cpus &&
    (s.pool.reservations.rows.any fun r ↦ r.taskId == t.id && r.state == .reserved &&
      c.now < r.expiresAt && s.pool.sessions.rows.any (s.heldSession c r)) &&
    (s.allocation? c.allocationId).any fun a ↦
      (s.tasks.count fun u ↦ u.claims c.allocationId && u.sqlPooled) <
        a.totalCpus / max 1 c.projectCpus

end State

/-- `WHERE id = ? AND status = 'attaching' AND attach_token = ?`, and the launch guard. -/
def Task.attachClaim (t : Task) (id : ℕ) (attachToken : String) (launchNotStarted : Bool) : Bool :=
  attachToken != "" && t.id == id && t.status == .attaching && t.attachToken == attachToken &&
    (!launchNotStarted || t.launchStartedAt.isNone)

/-- `WHERE id = ? AND state = 'pending' AND slurm_job_id IS NULL AND pending_reason = ?` -/
def Allocation.submissionClaim (a : Allocation) (id : ℕ) (phase : String) : Bool :=
  phase != "" && a.id == id && a.state == .pending && a.slurmJobId == "" &&
    a.pendingReason == phase

def Task.created (columns : Task) (now : Time) (id : ℕ) : Task where
  id := id
  name := columns.name
  project := columns.project
  command := columns.command
  envSetup := columns.envSetup
  requiredCapability := columns.requiredCapability
  envProfile := columns.envProfile
  cpus := columns.cpus
  aedtBackend := columns.aedtBackend
  partition := columns.partition
  nodeName := columns.nodeName
  nodeNamePolicy := columns.nodeNamePolicy
  dedupeKey := columns.dedupeKey
  requestedAllocationId := columns.requestedAllocationId
  accountName := columns.accountName
  requestedAccountName := columns.accountName
  memoryMb := columns.memoryMb
  schedulingProfile := columns.schedulingProfile
  gpus := columns.gpus
  exclusiveNode := columns.exclusiveNode
  timeoutSeconds := columns.timeoutSeconds
  sameNodeAsTaskId := columns.sameNodeAsTaskId
  createdAt := now
  updatedAt := now

/-- The columns that `create_allocation` sets: everything is free at first. -/
def Allocation.created (columns : Allocation) (now : Time) (id : ℕ) : Allocation where
  id := id
  accountName := columns.accountName
  partition := columns.partition
  nodeName := columns.nodeName
  drainReason := columns.drainReason
  pendingReason := columns.pendingReason
  totalCpus := columns.totalCpus
  freeCpus := columns.totalCpus
  totalMemoryMb := columns.totalMemoryMb
  freeMemoryMb := columns.totalMemoryMb
  totalGpus := columns.totalGpus
  freeGpus := columns.totalGpus
  resourcePool := columns.resourcePool
  exclusiveNode := columns.exclusiveNode
  createdAt := now
  updatedAt := now

namespace Write

def exec : Write → State → State
  | createTask columns, s =>
      { s with tasks := s.tasks.insert (columns.created s.clock) }
  | updateTask seen change, s =>
      s.onTasks (fun t ↦ t.id == seen.id) (change.stamp s.clock) (change.id_stamp s.clock)
  | updateTaskIfStatus seen expected change, s =>
      s.onTasks (fun t ↦ t.id == seen.id && expected.contains t.status) (change.stamp s.clock)
        (change.id_stamp s.clock)
  | updateTaskIfAttachClaim seen attachToken launchNotStarted change, s =>
      s.onTasks (·.attachClaim seen.id attachToken launchNotStarted) (change.stamp s.clock)
        (change.id_stamp s.clock)
  | updatePooledTaskIfReservedCapacity seen claim change, s =>
      s.onTasks (fun t ↦ t.id == seen.id && s.reservedCapacity claim t) (change.stamp s.clock)
        (change.id_stamp s.clock)
  | createAllocation columns, s =>
      { s with allocations := s.allocations.insert (columns.created s.clock) }
  | updateAllocation seen change, s =>
      s.onAllocations (fun a ↦ a.id == seen.id) (change.stamp s.clock) (change.id_stamp s.clock)
  | updateAllocationIfSubmissionClaim id phase change, s =>
      s.onAllocations (·.submissionClaim id phase) (change.stamp s.clock)
        (change.id_stamp s.clock)
  | updateAllocationCapacity seen stats, s =>
      s.onAllocations (fun a ↦ a.id == seen.id) ((capacityRow seen stats).stamp s.clock)
        fun _ ↦ rfl
  | createJob, s =>
      { s with jobs := s.jobs.insert fun id ↦ { id, updatedAt := s.clock } }
  | updateJob id change, s =>
      { s with
        jobs := s.jobs.update (fun j ↦ j.id == id) (change.stamp s.clock)
          (change.id_stamp s.clock) }
  | pool w, s => s.absorb (w.exec s.poolView)
  | started needsReconcile, s => s.onMemory fun m ↦ { m with started := true, needsReconcile }
  | reconciled, s => s.onMemory fun m ↦ { m with needsReconcile := false }
  | trackTimedOut task, s => s.onMemory fun m ↦
      { m with
        timedOutTaskCancellations := m.timedOutTaskCancellations ++ [(task.id, { task })] }
  | timedOutReturned task returned, s => s.onMemory fun m ↦
      { m with
        timedOutTaskCancellations := m.timedOutTaskCancellations.map fun e ↦
          if e.1 == task.id && e.2.task.attachToken == task.attachToken then
            (e.1, { e.2 with returned := some returned })
          else e }
  | forgetTimedOut taskId, s => s.onMemory fun m ↦
      { m with
        timedOutTaskCancellations := m.timedOutTaskCancellations.filter (·.1 != taskId) }
  | submitted outcomes, s => s.onMemory fun m ↦
      { m with submissions := m.submissions ++ outcomes }
  | setLicenseClaim key claim, s => s.onMemory fun m ↦
      { m with licenseClaims := assign key claim m.licenseClaims }
  | onLicenseClaims _ keys event, s => s.onMemory fun m ↦
      { m with licenseClaims := LicenseClaims.on keys event s.clock m.licenseClaims }
  | publishLicenseSnapshot usage settlementSeconds, s => s.onMemory fun m ↦
      { m with
        licenseUsage := some usage, licenseSnapshotCompletedAt := some s.clock
        licenseClaims :=
          LicenseClaims.reconcile settlementSeconds usage.queryStartedAt m.licenseClaims }
  | setLicenseUsage usage, s => s.onMemory fun m ↦ { m with licenseUsage := some usage }
  | remote r, s => { s with remote := s.remote ++ [r] }
  | elapse seconds, s => { s with clock := s.clock + seconds }

end Write

instance : Statement State Write := ⟨Write.exec⟩

end SlurmScheduler.Dispatch
