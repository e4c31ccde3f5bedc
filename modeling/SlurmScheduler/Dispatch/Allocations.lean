import SlurmScheduler.Dispatch.Calls

namespace SlurmScheduler.Dispatch

open Relational Concurrent Proc
open Pool (Time TaskStatus AllocationStatus)

def reservedBy (tasks : List Task) (allocationId : ℕ) : Reserved :=
  let mine := tasks.filter (·.claims allocationId)
  let standard := mine.filter (·.schedulingProfile != .feaBursty)
  { activeTasks := mine.length
    cpus := (standard.map (·.cpus)).sum
    memoryMb := (standard.map (·.memoryMb)).sum
    gpus := (mine.map (·.gpus)).sum }

def capacityWrites (tasks : List Task) (allocations : List Allocation) : List Write :=
  (allocations.filter fun a ↦ servingStates.contains a.state).map fun a ↦
    .updateAllocationCapacity a (reservedBy tasks a.id)

def recalculateAllocationCapacity (allocationId : Option ℕ) : Action Unit :=
  match allocationId with
  | none => do
      let tasks ← read (·.listTasksByStatuses claiming 5000)
      let allocations ← read (·.listAllocationsWithLive 500 5000)
      writeAll (capacityWrites tasks allocations)
  | some id => do
      let tasks ← read (·.liveTaskClaims id)
      let allocation ← read (·.allocation? id)
      writeAll (capacityWrites tasks allocation.toList)

def licenseEvent (site : Site) (task : Task) (event : LicenseEvent) : Action Unit :=
  when site.license.enabled <| locked .assignment <| transact fun s ↦
    ([.onLicenseClaims task (site.licenseClaimsForTask task s.memory.licenseClaims) event], ())

/-- `on_task_terminal`, of which only `_license_mark_terminal` has an effect here. -/
def onTaskTerminal (site : Site) (task : Task) : Action Unit := licenseEvent site task .terminal

def failRunningTasks (site : Site) (allocationId : ℕ) (message : String) : Action Unit := do
  let tasks ← read (·.listTasksByStatuses claiming 5000)
  forEach (tasks.filter (·.claims allocationId)) fun task ↦ do
    write (.updateTask task (.allocationLost message))
    onTaskTerminal site task

/-- `allocation_is_dedicated_aedt_pool` -/
def Allocation.isDedicatedAedtPool (a : Allocation) : Bool :=
  Pool.startsWith "AEDT pool" a.drainReason

def keepClaimed (current : Allocation) : Action Bool := do
  when (current.state == .warm) (write (.updateAllocation current .claimed))
  pure true

def Site.hasClient (site : Site) (a : Allocation) : Bool :=
  site.accounts.contains a.accountName && a.slurmJobId != ""

/-- The safety checks of `close_allocation`, from the last reading of the row. -/
def closeRefused (site : Site) (current : Allocation) (force allowAedtPoolOwner : Bool) :
    Action Bool := do
  if !force && !allowAedtPoolOwner && current.isDedicatedAedtPool then pure true else
  let owned ← read (·.hasAedtPoolClaim current.id)
  if !force && owned then pure true else
  let liveClaims ← read (·.liveTaskClaims current.id)
  if !liveClaims.isEmpty && !force then keepClaimed current else
  if !site.hasClient current || force then pure false else
  match ← liveAllocationTaskSteps current.slurmJobId with
  | .error e => do
      write (.updateAllocation current
        (.probeFailed ("allocation close safety probe failed: " ++ e)))
      pure true
  | .ok [] => pure false
  | .ok (_ :: _) => keepClaimed current

/-- `client.cancel`, where there is a job to cancel. -/
def cancelParent (site : Site) (current : Allocation) (force : Bool) : Action (Option String) :=
  if site.hasClient current then do
    write (.remote (.cancelAllocation current.id current.slurmJobId force))
    cancelCall current.slurmJobId
  else pure none

def commitClose (site : Site) (current : Allocation) (reason : String) (force : Bool) :
    Action Bool := do
  write (.updateAllocation current (.closing reason))
  match ← cancelParent site current force with
  | some e => do
      write (.remote (.cancelRaised current.id))
      write (.updateAllocation current (.cancelFailed current.state e))
      pure false
  | none => do
      write (.updateAllocation current .closed)
      pure true

def closedStates : List AllocationStatus := [.closed, .failed, .closing]

def closeAllocation (site : Site) (allocationId : ℕ) (reason : String)
    (force allowAedtPoolOwner : Bool) : Action Bool :=
  locked .assignment do
    match ← read (·.allocation? allocationId) with
    | none => pure false
    | some current =>
        if closedStates.contains current.state then pure false else
        if ← closeRefused site current force allowAedtPoolOwner then pure false else
        commitClose site current reason force

def closeEmptyAedtPoolAllocation (site : Site) (allocationId : ℕ)
    (expectedState : Option AllocationStatus) : Action Bool := do
  match ← read (·.allocation? allocationId) with
  | none => pure false
  | some allocation =>
      if expectedState.any (· != allocation.state) then pure false else
      if !allocation.isDedicatedAedtPool then pure false else
      if ← read (·.hasAedtPoolClaim allocationId) then pure false else
      if !(← read (·.liveTaskClaims allocationId)).isEmpty then pure false else
      closeAllocation site allocationId "AEDT pool empty" false true

/-- `needle in text` -/
def containsText (needle text : String) : Bool := text.toList.tails.any needle.toList.isPrefixOf

def Site.protectedGpuWarmPool (site : Site) (a : Allocation) : Bool :=
  Pool.startsWith "gpu:" a.resourcePool &&
    containsText "warm pool" (site.svc.lower a.drainReason)

inductive CloseError
  | notFound
  | protectedWarmPool (allocationId : ℕ)
  | activeTasks (allocationId : ℕ) (taskIds : List ℕ)
  deriving DecidableEq, Repr

structure CloseReply where
  ok : Bool
  id : ℕ
  previousState : AllocationStatus
  state : AllocationStatus
  force : Bool
  closedTaskIds : List ℕ
  deriving DecidableEq

def requestCloseAllocation (site : Site) (allocationId : ℕ) (force allowProtected : Bool) :
    Action (Except CloseError CloseReply) := do
  match ← read (·.allocation? allocationId) with
  | none => pure (.error .notFound)
  | some allocation =>
      let previousState := allocation.state
      if previousState == .closed || previousState == .failed then
        pure (.ok ⟨true, allocationId, previousState, previousState, force, []⟩) else
      if site.protectedGpuWarmPool allocation && !allowProtected then
        pure (.error (.protectedWarmPool allocationId)) else
      let active ← read (·.liveTaskClaims allocationId)
      let activeTaskIds := active.map (·.id)
      if !activeTaskIds.isEmpty && !force then
        pure (.error (.activeTasks allocationId activeTaskIds)) else
      when (!activeTaskIds.isEmpty)
        (failRunningTasks site allocationId "allocation manually closed")
      let _ ← closeAllocation site allocationId "manual close" force false
      let updated ← read (·.allocation? allocationId)
      let state := (updated.getD allocation).state
      pure (.ok ⟨state == .closed, allocationId, previousState, state, force, activeTaskIds⟩)

def applyAllocationState (allocation : Allocation) (info : JobStateInfo) : Action Unit :=
  let nodeName := if allocation.nodeName != "" then allocation.nodeName else info.nodeName
  match info.status, allocation.state with
  | .running, .pending =>
      let spread := allocation.partition.toList.contains ',' && info.partition != "" &&
        !info.partition.toList.contains ','
      write (.updateAllocation allocation
        (.jobStarted (if spread then some info.partition else none) nodeName))
  | .running, _ =>
      when (allocation.nodeName == "" && info.nodeName != "")
        (write (.updateAllocation allocation (.nodeKnown info.nodeName)))
  | .submitted, .pending =>
      when (info.pendingReason != "" && info.pendingReason != allocation.pendingReason)
        (write (.updateAllocation allocation (.pendingBecause info.pendingReason)))
  | .submitted, .closing => write (.updateAllocation allocation .vanished)
  | .completed, _ => write (.updateAllocation allocation .jobEnded)
  | .cancelled, _ => write (.updateAllocation allocation .jobEnded)
  | .failed, _ => write (.updateAllocation allocation .jobFailed)
  | _, _ => pure ()

def refreshAllocation (states : List (String × JobStateInfo)) (allocation : Allocation) :
    Action Unit :=
  match lookup allocation.slurmJobId states with
  | some info =>
      if info.missing then write (.updateAllocation allocation .jobMissing)
      else applyAllocationState allocation info
  | none =>
      when (allocation.state == .closing) (write (.updateAllocation allocation .vanished))

def refreshAllocations (site : Site) : Action Unit := do
  let allocations ← read (·.listAllocationsWithLive 500 10000)
  let active := allocations.filter fun a ↦
    liveStates.contains a.state && a.slurmJobId != "" && site.accounts.contains a.accountName
  let outcomes ← fanOutByAccount (byAccount (·.accountName) active) fun _ rows ↦
    jobStates (rows.map (·.slurmJobId))
  forEach outcomes fun (_, rows, outcome) ↦
    match outcome with
    | .error _ => pure ()
    | .ok states => forEach rows (refreshAllocation states)
  recalculateAllocationCapacity none

/-- `_age_seconds` -/
def Allocation.age (a : Allocation) (now : Time) : ℕ :=
  now - a.startedAt.getD (a.submittedAt.getD a.createdAt)

def runningTaskCount (allocationId : ℕ) : Action ℕ := do
  let tasks ← read (·.listTasksByStatuses claiming 5000)
  pure (tasks.countP (·.claims allocationId))

def expirePendingAllocationIfStale (site : Site) (allocation : Allocation) : Action Unit :=
  if allocation.isDedicatedAedtPool then pure () else do
    let stale ← askDecision
    let reason ← askText
    when stale do
      let _ ← closeAllocation site allocation.id reason false false

def ageAllocation (site : Site) (allocation : Allocation) : Action Unit := do
  let now ← read (·.clock)
  let age := allocation.age now
  if site.allocationDrainAfterSeconds ≤ age && allocation.state != .draining then do
    write (.updateAllocation allocation .ageLimit)
    when ((← runningTaskCount allocation.id) == 0) do
      let _ ← closeAllocation site allocation.id "drained" false false
  else
    let drained ←
      if allocation.state == .draining then do
        pure ((← runningTaskCount allocation.id) == 0)
      else pure false
    if drained then do
      let _ ← closeAllocation site allocation.id "drained" false false
    else when (site.allocationForceCancelAfterSeconds ≤ age) do
      failRunningTasks site allocation.id "allocation force-cancelled near walltime"
      let _ ← closeAllocation site allocation.id "force timeout" true false

def applyAllocationLifecycle (site : Site) : Action Unit := do
  let allocations ← read (·.listAllocationsWithLive 500 5000)
  forEach allocations fun allocation ↦
    if allocation.state == .pending then expirePendingAllocationIfStale site allocation
    else if servingStates.contains allocation.state then ageAllocation site allocation
    else pure ()

def closeUnneededAllocations (site : Site) : Action Unit := do
  let ids ← askRows
  forEach ids fun id ↦ do
    let reason ← askText
    let _ ← closeAllocation site id reason false false

def closeAllocationAfterExclusiveTask (site : Site) (task : Task) : Action Unit :=
  when (task.exclusiveNode && task.allocationId != 0) do
    match ← read (·.allocation? task.allocationId) with
    | none => pure ()
    | some allocation =>
        let _ ← closeAllocation site allocation.id
          ("exclusive task " ++ toString task.id ++ " finished") false false

end SlurmScheduler.Dispatch
