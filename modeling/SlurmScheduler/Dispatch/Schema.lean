import SlurmScheduler.Pool.Service
import SlurmScheduler.Concurrent.Discipline

namespace SlurmScheduler.Dispatch

open Relational
open Pool (Time TaskStatus AllocationStatus)

inductive SchedulingProfile
  | standard | feaBursty
  deriving DecidableEq, Repr

inductive JobStatus
  | queued | submitting | submitted | running | completed | failed | cancelled
  deriving DecidableEq, Repr

structure Launch where
  remoteDir : String := ""
  stdoutPath : String := ""
  stderrPath : String := ""
  exitCodePath : String := ""
  wrapperPid : String := ""
  deriving DecidableEq

structure Task extends Pool.Task where
  memoryMb : ℕ := 4096
  schedulingProfile : SchedulingProfile := .standard
  gpus : ℕ := 0
  exclusiveNode : Bool := false
  timeoutSeconds : ℕ := 0
  sameNodeAsTaskId : ℕ := 0
  exitCode : Option ℤ := none
  attemptCount : ℕ := 0
  remoteDir : String := ""
  exitCodePath : String := ""
  wrapperPid : String := ""
  attachToken : String := ""
  launchStartedAt : Option Time := none
  createdAt : Time := 0
  attachedAt : Option Time := none
  startedAt : Option Time := none

structure Allocation extends Pool.Allocation where
  totalCpus : ℕ := 1
  freeCpus : ℕ := 1
  totalMemoryMb : ℕ := 0
  freeMemoryMb : ℕ := 0
  totalGpus : ℕ := 0
  freeGpus : ℕ := 0
  resourcePool : String := "cpu"
  exclusiveNode : Bool := false
  pendingReason : String := ""
  submittedAt : Option Time := none
  startedAt : Option Time := none
  lastActiveAt : Option Time := none
  closedAt : Option Time := none

structure Job where
  id : ℕ
  status : JobStatus := .queued
  accountName : String := ""
  slurmJobId : String := ""
  failureMessage : String := ""
  submittedAt : Option Time := none
  finishedAt : Option Time := none
  updatedAt : Time := 0

instance : Keyed Task := ⟨fun t ↦ t.id⟩
instance : Keyed Allocation := ⟨fun a ↦ a.id⟩
instance : Keyed Job := ⟨Job.id⟩

@[simp] theorem key_task (t : Task) : Keyed.key t = t.id := rfl
@[simp] theorem key_allocation (a : Allocation) : Keyed.key a = a.id := rfl
@[simp] theorem key_job (j : Job) : Keyed.key j = j.id := rfl

/-- The statuses in which a task owns a part of its allocation. -/
def claiming : List TaskStatus := [.attaching, .running]

def cancellable : List TaskStatus := [.queued, .attaching, .running]

def Task.claims (t : Task) (aid : ℕ) : Bool := t.allocationId == aid && claiming.contains t.status

def liveStates : List AllocationStatus := [.pending, .warm, .active, .draining, .closing]

def servingStates : List AllocationStatus := [.warm, .active, .draining]

inductive ClaimState
  | attaching | running | terminal
  deriving DecidableEq, Repr

structure LicenseClaim where
  taskId : ℕ
  project : String := ""
  costs : List (String × ℕ) := []
  state : ClaimState := .attaching
  claimedAt : Time := 0
  launchStartedAt : Option Time := none
  runningAt : Option Time := none

structure LicenseFeature where
  feature : String
  total : ℕ
  used : ℕ
  deriving DecidableEq

structure LicenseUsage where
  serverUp : Bool := true
  features : List LicenseFeature := []
  error : String := ""
  queryStartedAt : Time := 0

structure TimedOutCancellation where
  task : Task
  returned : Option Bool := none

inductive Submission
  | created (slurmJobId : String)
  /-- `AllocationSubmissionNotCreated` -/
  | notCreated (error : String)
  | ambiguous (error : String)
  deriving DecidableEq

structure Memory where
  started : Bool := false
  needsReconcile : Bool := false
  timedOutTaskCancellations : List (ℕ × TimedOutCancellation) := []
  licenseClaims : List (String × LicenseClaim) := []
  licenseUsage : Option LicenseUsage := none
  licenseSnapshotCompletedAt : Option Time := none
  /-- the results that the workers of a fan-out have handed over -/
  submissions : List (ℕ × Submission) := []

inductive Remote
  /-- `attach_task` has been entered. -/
  | attachTask (taskId : ℕ) (attachToken : String)
  /-- `cancel_task` has returned without raising. -/
  | cancelledTask (taskId : ℕ) (attachToken : String)
  /-- `cancel_task` has raised. -/
  | cancelTaskRaised (taskId : ℕ) (attachToken : String)
  /-- `scancel` has been issued for the job of an allocation. -/
  | cancelAllocation (allocationId : ℕ) (slurmJobId : String) (force : Bool)
  /-- That `scancel` has raised. -/
  | cancelRaised (allocationId : ℕ)
  /-- `scancel` has been issued for a job that belongs to no row. -/
  | cancelOrphan (slurmJobId : String)
  /-- `scancel` has returned for the job of a row that no longer waits for one. -/
  | reap (allocationId : ℕ) (slurmJobId : String)
  /-- `submit_allocation` has been entered. -/
  | submitAllocation (allocationId : ℕ)
  /-- Slurm has created a job for an allocation. -/
  | createdJob (allocationId : ℕ) (slurmJobId : String)
  /-- `submit` has been entered for a batch job. -/
  | submitJob (jobId : ℕ)
  deriving DecidableEq

structure State where
  tasks : Table Task := .empty
  allocations : Table Allocation := .empty
  jobs : Table Job := .empty
  /-- The pool's own tables; its `tasks` and `allocations` are the two above. -/
  pool : Pool.Db := {}
  memory : Memory := {}
  remote : List Remote := []
  clock : Time := 0

namespace State

variable (s : State)

def task? (id : ℕ) : Option Task := s.tasks.find? id

def allocation? (id : ℕ) : Option Allocation := s.allocations.find? id

def job? (id : ℕ) : Option Job := s.jobs.find? id

def poolView : Pool.Db :=
  { s.pool with
    tasks := s.tasks.view Task.toTask
    allocations := s.allocations.view Allocation.toAllocation }

/-- The pool's columns of the shared rows and its own tables, from a database it has written. -/
def absorb (db : Pool.Db) : State :=
  { s with
    pool := { db with tasks := .empty, allocations := .empty }
    tasks := s.tasks.update (fun _ ↦ true)
      (fun t ↦ { t with toTask := { (db.tasks.find? t.id).getD t.toTask with id := t.id } })
    allocations := s.allocations.update (fun _ ↦ true)
      (fun a ↦ { a with
        toAllocation := { (db.allocations.find? a.id).getD a.toAllocation with id := a.id } }) }

/-- `list_tasks_by_statuses`: the newest rows first. -/
def listTasksByStatuses (statuses : List TaskStatus) (limit : ℕ) : List Task :=
  (s.tasks.select fun t ↦ statuses.contains t.status).reverse.take limit

def findActiveTaskByDedupeKey (dedupeKey : String) : Option Task :=
  if dedupeKey == "" then none
  else (s.tasks.select fun t ↦ t.dedupeKey == dedupeKey && !t.status.terminal).head?

/-- `list_live_task_claims_for_allocation`, which has no limit. -/
def liveTaskClaims (aid : ℕ) : List Task := s.tasks.select (·.claims aid)

/-- `list_allocations_with_live`: the newest rows and the newest live rows. -/
def listAllocationsWithLive (limit liveLimit : ℕ) : List Allocation :=
  let recent := s.allocations.rows.reverse.take limit
  let live := (s.allocations.select fun a ↦ liveStates.contains a.state).reverse.take liveLimit
  s.allocations.rows.reverse.filter fun a ↦
    recent.any (·.id == a.id) || live.any (·.id == a.id)

/-- `allocation_has_aedt_pool_claim` -/
def hasAedtPoolClaim (aid : ℕ) : Bool :=
  s.pool.sessions.rows.any fun r ↦ r.allocationId == aid && r.state.visible

end State

structure LicensePolicy where
  enabled : Bool := false
  monitorEnabled : Bool := false
  settlementSeconds : ℕ := 0
  reserveByFeature : List (String × ℕ) := []
  persistentCostByProject : List (String × List (String × ℕ)) := []
  reserveExemptProjects : List String := []
  /-- `unknown_fea_project_policy == "block"` -/
  blockUnknownFeaProjects : Bool := false

namespace LicensePolicy

def reserve (p : LicensePolicy) (feature : String) : ℕ :=
  ((p.reserveByFeature.find? (·.1 == feature)).map (·.2)).getD 0

/-- `_license_configured_features` -/
def configuredFeatures (p : LicensePolicy) : List String :=
  (p.reserveByFeature.map (·.1) ++ p.persistentCostByProject.flatMap fun e ↦ e.2.map (·.1)).dedup

end LicensePolicy

/-- The settings of a scheduler and the pool service beside it. -/
structure Site where
  svc : Pool.Service
  accounts : List String
  allocationDrainAfterSeconds : ℕ := 0
  allocationForceCancelAfterSeconds : ℕ := 0
  feaPressureMaxAttempts : ℕ := 3
  taskTimeoutCancelMaxPerTick : ℕ := 8
  gpuPrewarmCpuReservePerFreeGpu : ℕ := 0
  reconcileOnStart : Bool := true
  license : LicensePolicy := {}
  /-- the characters of `str.isdigit`, and the values that `int` gives to those it takes -/
  isDigit : Char → Bool := Char.isDigit
  digitValue : Char → Option ℕ := fun c ↦ if c.isDigit then some (c.toNat - '0'.toNat) else none

end SlurmScheduler.Dispatch
