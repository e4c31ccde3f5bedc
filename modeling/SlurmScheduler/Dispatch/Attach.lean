import SlurmScheduler.Dispatch.Tasks
import SlurmScheduler.Pool.Config

namespace SlurmScheduler.Dispatch

open Relational Concurrent Proc
open Pool (Time TaskStatus AllocationStatus)

/-- `allocation_demand_profile`: the allocation was opened for FEA work. -/
def Allocation.demandsFea (a : Allocation) : Bool := Pool.startsWith "queued FEA " a.drainReason

/-- `allocation_profile_conflicts` with a fresh reading of the active tasks. -/
def allocationProfileConflicts (allocation : Allocation) (task : Task) : Action Bool := do
  let active ← read (·.listTasksByStatuses claiming 5000)
  pure (allocation.demandsFea && !task.isFeaBursty ||
    active.any fun t ↦ t.allocationId == allocation.id && t.isFeaBursty != task.isFeaBursty)

/-- `active_task_allocation_sets` -/
structure ActiveAllocations where
  allocationIds : List ℕ
  exclusiveIds : List ℕ

def activeTaskAllocationSets : Action ActiveAllocations := do
  let active ← read (·.listTasksByStatuses claiming 5000)
  let active := active.filter (·.allocationId != 0)
  pure ⟨active.map (·.allocationId), (active.filter (·.exclusiveNode)).map (·.allocationId)⟩

/-- `same_node_target_for_task`: the allocation of a live reference whose node is known. -/
def sameNodeTargetForTask (task : Task) : Action (Option ℕ) := do
  match ← read (·.task? task.sameNodeAsTaskId) with
  | none => pure none
  | some reference =>
      if !claiming.contains reference.status || reference.allocationId == 0 then pure none else
      match ← read (·.allocation? reference.allocationId) with
      | none => pure none
      | some allocation =>
          if allocation.state == .closed || allocation.state == .failed ||
              allocation.nodeName == "" then pure none
          else pure (some allocation.id)

def taskCanShareDedicatedAedtPool (site : Site) (allocation : Allocation) (task : Task) :
    Action Bool := do
  if task.requestedAllocationId != allocation.id then pure false else
  if task.isFeaInfra site.svc then pure true else
  let reserved ← read (·.hasAutoAedtReservation task.id)
  pure (site.svc.isPooled task.toTask && reserved)

def Allocation.whole (a : Allocation) : Bool :=
  a.freeCpus == a.totalCpus && a.freeMemoryMb == a.totalMemoryMb && a.freeGpus == a.totalGpus

/-- `allocation_matches_task_constraints`.  The last decision stands for accounts, capabilities,
partitions, node names, storage and worker limits, and for the cached profile sets. -/
def allocationMatchesTaskConstraints (site : Site) (allocation : Allocation) (task : Task)
    (active : ActiveAllocations) : Action Bool := do
  let fits ←
    if allocation.isDedicatedAedtPool then taskCanShareDedicatedAedtPool site allocation task
    else pure (allocation.exclusiveNode == task.exclusiveNode)
  if !fits then pure false else
  if task.requestedAllocationId != 0 && allocation.id != task.requestedAllocationId then
    pure false else
  let target ←
    if task.sameNodeAsTaskId != 0 then sameNodeTargetForTask task else pure (some allocation.id)
  if target != some allocation.id then pure false else
  if task.exclusiveNode && (active.allocationIds.contains allocation.id || !allocation.whole) then
    pure false else
  if !task.exclusiveNode && active.exclusiveIds.contains allocation.id then pure false else
  askDecision

def taskCanOverlapSameNodeAllocation (allocation : Allocation) (task : Task) : Action Bool := do
  if task.sameNodeAsTaskId == 0 || task.gpus != 0 || task.exclusiveNode || 4 < task.cpus then
    pure false else
  let target ← sameNodeTargetForTask task
  pure (target == some allocation.id)

/-- `borrowable_cpus`: a free GPU keeps some of the CPUs for itself. -/
def Site.borrowableCpus (site : Site) (a : Allocation) : ℕ :=
  if a.totalGpus != 0 && a.freeGpus == a.totalGpus then a.freeCpus
  else a.freeCpus - a.freeGpus * site.gpuPrewarmCpuReservePerFreeGpu

def Site.hasRoom (site : Site) (a : Allocation) (task : Task) : Bool :=
  task.memoryMb ≤ a.freeMemoryMb &&
    if task.gpus != 0 then task.gpus ≤ a.freeGpus && task.cpus ≤ a.freeCpus
    else if a.totalGpus != 0 then task.cpus ≤ site.borrowableCpus a
    else task.cpus ≤ a.freeCpus

def allocationGpuMatchesTask (allocation : Allocation) (task : Task) : Action Bool :=
  if task.gpus == 0 then pure true else
  if allocation.freeGpus < task.gpus then pure false else askDecision

def allocationCanRunTask (site : Site) (allocation : Allocation) (task : Task)
    (active : ActiveAllocations) : Action Bool := do
  if !(← allocationMatchesTaskConstraints site allocation task active) then pure false else
  if task.isFeaBursty then
    if !(← allocationGpuMatchesTask allocation task) then pure false else
    if task.isFeaInfra site.svc then pure true else askDecision
  else if ← taskCanOverlapSameNodeAllocation allocation task then pure true
  else if !site.hasRoom allocation task then pure false
  else allocationGpuMatchesTask allocation task

def allocationAcceptsNewTasks (site : Site) (allocation : Allocation) : Action Bool := do
  let stopBefore ← askNumber
  let now ← read (·.clock)
  pure (site.allocationDrainAfterSeconds == 0 ||
    allocation.age now < site.allocationDrainAfterSeconds - stopBefore)

/-- `_license_task_admitted_locked`: the limit on the snapshot's age follows the tick. -/
def licenseTaskAdmitted (site : Site) (task : Task) : Action Bool := do
  let maxAge ← askNumber
  read fun s ↦ (site.licenseTaskAdmitted task s.memory s.clock maxAge).isOk

/-- `update_pooled_task_if_reserved_capacity` and whether it has changed a row. -/
def updatePooledTask (seen : Task) (claim : PooledClaim) (change : TaskChange) : Action Bool :=
  transact fun s ↦ ([.updatePooledTaskIfReservedCapacity seen claim change],
    (s.task? seen.id).any (s.reservedCapacity claim))

/-- `max(floor, int(get_setting(key) or default))`, and the default for a text that `int` does not
take. -/
def Site.settingOr (site : Site) (s : State) (key : String) (default floor : ℕ) : ℕ :=
  let value := s.pool.setting key ""
  if value == "" then default
  else ((site.svc.int value).map fun n ↦ (max (floor : ℤ) n).toNat).getD default

def Site.heartbeatTimeout (site : Site) (s : State) : ℕ :=
  site.settingOr s "aedt_pool_session_heartbeat_timeout_seconds" 600 30

/-- `aedt_pool_project_cpus` -/
def Site.projectCpus (site : Site) (s : State) : ℕ :=
  site.settingOr s "aedt_pool_project_cpus" 4 1

def claimTask (site : Site) (task : Task) (allocation : Allocation) (attachToken : String) :
    Action Bool := do
  let change := .claim allocation.id allocation.accountName attachToken
  if site.svc.isPooled task.toTask then do
    let heartbeatTimeout ← read site.heartbeatTimeout
    let now ← read (·.clock)
    let projectCpus ← read site.projectCpus
    updatePooledTask task ⟨allocation.id, now - heartbeatTimeout, now, projectCpus⟩ change
  else updateTaskIfStatus task [.queued] change

/-- `_license_record_claim_locked` -/
def recordLicenseClaim (site : Site) (task : Task) (attachToken : String) : Action Unit :=
  match site.licenseCostsForTask task with
  | some (cost :: costs) => Proc.step
      (fun s ↦ [.setLicenseClaim attachToken
        { taskId := task.id, project := task.project, costs := cost :: costs
          claimedAt := s.clock }])
      fun _ ↦ .ret ()
  | _ => pure ()

def reservationAdmitted (site : Site) (task : Task) (allocation : Allocation) : Action Bool := do
  if !site.accounts.contains allocation.accountName then pure false else
  let blocked ← askDecision
  if blocked then pure false else
  if ← allocationProfileConflicts allocation task then pure false else
  if !(allocation.state == .warm || allocation.state == .active) then pure false else
  if allocation.slurmJobId == "" then pure false else
  if !(← allocationAcceptsNewTasks site allocation) then pure false else
  let active ← activeTaskAllocationSets
  if !(← allocationCanRunTask site allocation task active) then pure false else
  let fits ← askDecision
  if task.isFeaBursty && !fits then pure false else
  licenseTaskAdmitted site task

def reserveTaskOnAllocation (site : Site) (taskId allocationId : ℕ) :
    Action (Option (Task × Allocation)) :=
  locked .assignment do
    let current ← read (·.task? taskId)
    let allocation ← read (·.allocation? allocationId)
    match current, allocation with
    | some task, some allocation =>
        if task.status != .queued then pure none else
        if !(← reservationAdmitted site task allocation) then pure none else
        let attachToken ← askToken
        if !(← claimTask site task allocation attachToken) then pure none else
        recordLicenseClaim site task attachToken
        recalculateAllocationCapacity (some allocation.id)
        let reserved : Task :=
          { task with
            status := .attaching, allocationId := allocation.id
            accountName := some allocation.accountName, attachToken, launchStartedAt := none }
        pure (some (reserved, allocation))
    | _, _ => pure none

def capacityOf (allocation : Allocation) : Action Unit :=
  recalculateAllocationCapacity (if allocation.id != 0 then some allocation.id else none)

/-- `strict_node_attach_readback_error`: empty when the placement is the requested one. -/
def strictNodeReadbackError (site : Site) (task : Task) (allocation : Option Allocation)
    (expectedAllocationId : ℕ) : Action String := do
  if !task.hasStrictNodeContract site.svc then pure "" else
  let expectedNode := site.svc.strip task.nodeName
  if expectedNode == "" then pure "strict node placement has no requested node" else
  let mismatch (actual : ℕ) : String :=
    "strict node placement allocation mismatch (expected " ++ toString expectedAllocationId ++
      ", task " ++ toString task.allocationId ++ ", readback " ++ toString actual ++ ")"
  match allocation with
  | none => pure (mismatch 0)
  | some a =>
      if task.allocationId != expectedAllocationId || a.id != expectedAllocationId then
        pure (mismatch a.id) else
      let allocationNode := site.svc.strip a.nodeName
      if allocationNode != expectedNode then
        pure ("strict node placement DB readback mismatch (requested " ++ expectedNode ++
          ", allocation on " ++ Pool.orDefault allocationNode "unknown" ++ ")") else
      let slurmJobId := site.svc.strip a.slurmJobId
      if slurmJobId == "" then
        pure "strict node placement allocation has no Slurm job id" else
      match ← allocationNodeName slurmJobId with
      | .error e => pure ("strict node placement Slurm readback failed: " ++ e)
      | .ok node =>
          let slurmNode := site.svc.strip node
          if slurmNode == expectedNode then pure "" else
          pure ("strict node placement Slurm readback mismatch (requested " ++ expectedNode ++
            ", job " ++ slurmJobId ++ " on " ++ Pool.orDefault slurmNode "unknown" ++ ")")

/-- The end of an attempt that is still the row's; `current` is the row as it was read last. -/
def endAttempt (site : Site) (task current : Task) (change : TaskChange) : Action Unit := do
  if ← updateTaskIfAttachClaim task task.attachToken false change then onTaskTerminal site current

def rejectLaunched (site : Site) (task current : Task) (launch : Launch) (strictError : String) :
    Action Unit := do
  match ← cancelTaskRemote task with
  | some e => do
      let _ ← updateTaskIfAttachClaim task task.attachToken false (.strictHeld
        (strictNodeCancellationPendingPrefix ++ strictError ++ "; last cancel error: " ++ e)
        launch)
  | none => endAttempt site task current (.strictRejected strictError launch)

def acknowledgeLaunch (site : Site) (task : Task) (allocation : Allocation) (launch : Launch) :
    Action Unit := do
  let current ← read (·.task? task.id)
  let currentAllocation ← read (·.allocation? allocation.id)
  let current := current.getD task
  let strictError ← strictNodeReadbackError site current currentAllocation allocation.id
  if strictError != "" then do
    rejectLaunched site task current launch strictError
    capacityOf allocation
  else if ← updateTaskIfAttachClaim task task.attachToken false (.attached launch) then
    licenseEvent site task .running
  else do
    let _ ← cancelTaskRemote task
    capacityOf allocation

/-- `finish_reserved_task_attach`; `task` and `allocation` are the rows of the reservation. -/
def finishReservedTaskAttach (site : Site) (task : Task) (allocation : Allocation) :
    Action Unit := do
  let current ← read (·.task? task.id)
  let currentAllocation ← read (·.allocation? allocation.id)
  let current := current.getD task
  let strictError ← strictNodeReadbackError site current currentAllocation allocation.id
  if strictError != "" then do
    endAttempt site task current (.attachRejected strictError)
    capacityOf allocation
  else if !(← updateTaskIfAttachClaim task task.attachToken true .launchStarted) then do
    licenseEvent site task .prelaunchReleased
    capacityOf allocation
  else do
    licenseEvent site task .launchStarted
    write (.remote (.attachTask task.id task.attachToken))
    match ← attachTaskCall task.id with
    | .refused message files => do
        endAttempt site task task (.attachFailed message (some files))
        capacityOf allocation
    | .raised message => do
        endAttempt site task task (.attachFailed message none)
        capacityOf allocation
    | .launched launch => acknowledgeLaunch site task allocation launch

/-- `assign_queued_task` without the choice of the allocation, which is asked for. -/
def assignQueuedTask (site : Site) (taskId : ℕ) (background : Bool) : Action Unit := do
  let blocked ← askDecision
  let task ← read (·.task? taskId)
  if blocked || !task.any (·.status == .queued) then pure () else
  let chosen ← askRows
  match chosen with
  | [] => pure ()
  | allocationId :: _ => do
      match ← reserveTaskOnAllocation site taskId allocationId with
      | none => pure ()
      | some (reserved, allocation) =>
          if background then spawn (.finishBackgroundTaskAttach reserved allocation)
          else finishReservedTaskAttach site reserved allocation

end SlurmScheduler.Dispatch
