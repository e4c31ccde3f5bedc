import SlurmScheduler.Dispatch.Submission

namespace SlurmScheduler.Dispatch

open Relational Concurrent Proc
open Pool (Time TaskStatus AllocationStatus)

def recoverSubmittingJobs : Action Unit := do
  let jobs ← read (·.listJobs 5000)
  forEach (jobs.filter (·.status == .submitting)) fun job ↦ write (.updateJob job.id .recovered)

def Task.reservedOnly (t : Task) : Bool := t.attachToken != "" && t.launchStartedAt.isNone

def recoverAttachingTasks (site : Site) : Action Unit := do
  let attaching ← read (·.listTasksByStatuses [.attaching] 5000)
  forEach (attaching.filter (·.reservedOnly)) fun task ↦ do
    if ← updateTaskIfAttachClaim task task.attachToken true
        (.recovered task.requestedAccount) then
      licenseEvent site task .prelaunchReleased

/-- One row of `_reconstruct_license_admission_claims`. -/
def reconstructLicenseClaim (site : Site) (task : Task) : Action Unit :=
  match site.licenseCostsForTask task with
  | some (cost :: costs) => transact fun s ↦
      let key := site.licenseClaimKey task
      (if s.memory.licenseClaims.any (·.1 == key) then []
        else [.setLicenseClaim key (.fromTask task (cost :: costs))], ())
  | _ => pure ()

def reconstructLicenseAdmissionClaims (site : Site) : Action Unit :=
  when site.license.enabled do
    let active ← read (·.listTasksByStatuses claiming 5000)
    locked .assignment (forEach active (reconstructLicenseClaim site))

def recoverTransientStates (site : Site) : Action Unit := do
  recoverSubmittingJobs
  recoverAttachingTasks site
  recoverAllocationSubmissionClaims site
  reconstructLicenseAdmissionClaims site

/-- The constructor has rebuilt the license claims once before `start`.  The closes are those of
`retire_legacy_unprofiled_pending_demand_allocations`. -/
def start (site : Site) : Action Unit :=
  locked .scheduler do
    if ← read (·.memory.started) then pure () else
    reconstructLicenseAdmissionClaims site
    recoverTransientStates site
    closeUnneededAllocations site
    write (.started site.reconcileOnStart)

def serving (p : Action Unit) : Action Unit := do
  if ← read (·.memory.started) then p

def setLicenseUsage (usage : LicenseUsage) : Action Unit :=
  locked .assignment (write (.setLicenseUsage usage))

def keepLicenseUsage : Action Bool :=
  locked .assignment <| transact fun s ↦
    match s.memory.licenseUsage with
    | some usage =>
        if usage.features.isEmpty then ([], false) else
        ([.setLicenseUsage { usage with
          error := "lmstat returned no feature block; showing the last good snapshot" }], true)
    | none => ([], false)

def refreshLicenseUsage (site : Site) : Action Unit := do
  let queryStartedAt ← read (·.clock)
  match ← lmstat with
  | .error e => setLicenseUsage { serverUp := false, error := e, queryStartedAt }
  | .ok reply => do
      let usage := { reply with queryStartedAt }
      let kept ← if usage.features.isEmpty then keepLicenseUsage else pure false
      if kept then pure () else
      if usage.serverUp && !usage.features.isEmpty && usage.error == "" then
        locked .assignment
          (write (.publishLicenseSnapshot usage site.license.settlementSeconds))
      else setLicenseUsage usage

/-- `_eligible_allocations` -/
def State.eligible (site : Site) (s : State) (allocationId : ℕ) : Bool :=
  (s.allocation? allocationId).any fun a ↦
    (a.state == .warm || a.state == .active) && site.svc.strip a.nodeName != "" &&
      a.drainReason == Pool.demandDrainReason

def planned (eligible : ℕ → Bool) (args : Pool.ReconcileArgs) : Pool.ReconcileArgs :=
  { args with
    plan := { args.plan with placements := args.plan.placements.filter (eligible ·.allocationId) } }

def plannedCall (eligible : ℕ → Bool) : Pool.Call → Pool.Call
  | .registerSession q pass => .registerSession q (planned eligible pass)
  | .reapDeadSession sid expected absent pass =>
      .reapDeadSession sid expected absent (planned eligible pass)
  | .reconcile args => .reconcile (planned eligible args)
  | call => call

def poolTransaction (site : Site) (call : Pool.Call) (env : Pool.Env) (i : ℕ) : Action Bool :=
  transact fun s ↦
    match ((plannedCall (s.eligible site) call).transactions site.svc env)[i]? with
    | none => ([], true)
    | some m =>
        match m s.poolView with
        | (.ok _, writes) => (writes.map .pool, true)
        | (.error _, _) => ([], false)

def poolCall (site : Site) (call : Pool.Call) (env : Pool.Env) : Action Bool :=
  fold (List.range (call.transactions site.svc env).length) true fun ok i ↦
    if ok then poolTransaction site call env i else pure false

def failUnclaimedSessionStart (site : Site) (sid : ℕ) (reason : String) : Action Unit := do
  let env ← askPoolEnv
  let _ ← poolCall site (.failUnclaimedSessionStart sid reason) env

def bindSessionHostTask (site : Site) (sid taskId : ℕ) : Action Bool := do
  let env ← askPoolEnv
  poolCall site (.bindSessionHostTask sid taskId) env

def failHostTask (site : Site) (sid : ℕ) (task : Task) (reason : String) : Action Unit := do
  write (.updateTask task (.hostFailed reason))
  failUnclaimedSessionStart site sid reason

def createTask (columns : Task) : Action ℕ :=
  transact fun s ↦ ([.createTask columns], s.tasks.nextKey)

def hostTask (session : Pool.Session) (allocation : Allocation) (memoryMb : ℕ) : Task where
  id := 0
  name := "aedt-session-host-" ++ toString session.id
  accountName := some allocation.accountName
  cpus := 1
  memoryMb := memoryMb
  schedulingProfile := .feaBursty
  nodeName := allocation.nodeName
  dedupeKey := "aedt-session-host:" ++ toString session.id
  project := "_aedt_pool_hosts"
  requestedAllocationId := allocation.id

def Task.alreadyExact (t : Task) (allocationId : ℕ) : Bool :=
  t.requestedAllocationId == allocationId && t.allocationId == allocationId &&
    claiming.contains t.status

def reserveHost (site : Site) (session : Pool.Session) (allocation : Allocation) (taskId : ℕ) :
    Action Unit := do
  match ← reserveTaskOnAllocation site taskId allocation.id with
  | none => do
      let current ← read (·.task? taskId)
      if current.any (·.alreadyExact allocation.id) then pure () else
      let licenseReason ← askText
      failHostTask site session.id (current.getD { id := taskId })
        (Pool.orDefault licenseReason "could not reserve exact dedicated AEDT allocation")
  | some (reserved, current) => do
      let _ ← bindSessionHostTask site session.id taskId
      spawn (.finishBackgroundTaskAttach reserved current)

def startSessionHost (site : Site) (session : Pool.Session) (allocation : Allocation) :
    Action Unit := do
  let memoryMb ← askNumber
  let columns := hostTask session allocation memoryMb
  let taskId ← createTask columns
  if !(← bindSessionHostTask site session.id taskId) then
    let error ← askText
    failHostTask site session.id { columns with id := taskId } error
  else
    let task ← read (·.task? taskId)
    let storageFailure ← askText
    if storageFailure != "" then
      failHostTask site session.id (task.getD { id := taskId }) storageFailure
    else reserveHost site session allocation taskId

def ensureSessionHost (site : Site) (session : Pool.Session) : Action Unit := do
  let active ← read fun s ↦ s.tasks.rows.any fun t ↦
    t.dedupeKey == "aedt-session-host:" ++ toString session.id && !t.status.terminal
  if session.hostId != "" || active then pure () else
  match ← read (·.allocation? session.allocationId) with
  | none => failUnclaimedSessionStart site session.id "dedicated AEDT allocation no longer exists"
  | some allocation =>
      let blocked ← askDecision
      if blocked then
        failUnclaimedSessionStart site session.id
          "AEDT session start blocked by the account storage guard"
      else if (allocation.state == .warm || allocation.state == .active) &&
          allocation.drainReason == Pool.demandDrainReason then
        startSessionHost site session allocation
      else
        failUnclaimedSessionStart site session.id
          "dedicated AEDT allocation is not eligible for a new host"

def ensureSessionHosts (site : Site) : Action Unit := do
  let sessions ← read fun s ↦ s.pool.sessions.select fun x ↦ x.state == .starting
  forEach sessions (ensureSessionHost site)

def closeEmptyAllocations (site : Site) (expectedState : Option AllocationStatus) :
    Action Unit := do
  let ids ← askRows
  forEach ids fun id ↦ do
    let _ ← closeEmptyAedtPoolAllocation site id expectedState

def poolRuntime (site : Site) : Action Unit :=
  locked .poolRuntime do
    closeEmptyAllocations site (some .pending)
    ensureSessionHosts site
    let requests ← askRows
    forEach requests fun _ ↦ openAllocationRecord site Pool.demandDrainReason
    closeEmptyAllocations site none

def assignTasks (site : Site) (background : Bool) : Action Unit := do
  let ids ← askRows
  forEach ids fun id ↦ assignQueuedTask site id background

def refreshLicenseUsageIfDue (site : Site) : Action Unit := do
  let due ← askDecision
  when (site.license.monitorEnabled && due) (spawn .refreshLicenseUsage)

def reconcileIfNeeded (site : Site) : Action Unit := do
  if ← read (·.memory.needsReconcile) then do
    write .reconciled
    reconcileSlurmState site

def openAllocations (site : Site) : Action Unit := do
  let requests ← askRows
  forEach requests fun _ ↦ do
    let reason ← askText
    openAllocationRecord site reason

def maintainAllocationPool (site : Site) : Action Unit := do
  recoverAllocationSubmissionClaims site
  openAllocations site
  closeUnneededAllocations site
  openPlannedAllocations site

/-- The stages of a tick; a stage that raises ends it, which is a crash of this thread only. -/
def tick (site : Site) : Action Unit :=
  locked .scheduler <| serving do
    reconcileIfNeeded site
    failStaleSameNodeTasks site
    failStaleRequestedAllocationTasks site
    closeUnneededAllocations site
    refreshLicenseUsageIfDue site
    openAllocations site
    assignTasks site false
    assignTasks site true
    refreshAllocations site
    refreshTasks site
    applyAllocationLifecycle site
    handleFeaMemoryPressure site
    enforceFeaNodeCpuCap site
    openAllocations site
    assignTasks site false
    maintainAllocationPool site
    refreshSubmittedJobs site
    submitNextQueuedJob

/-- `maybe_assign_same_node_task`, on the thread of a request. -/
def maybeAssignSameNodeTask (site : Site) (taskId : ℕ) : Action Unit := do
  match ← read (·.task? taskId) with
  | none => pure ()
  | some task =>
      if task.sameNodeAsTaskId == 0 then pure () else
      failStaleSameNodeTasks site
      assignQueuedTask site taskId false

/-- The answer to a submission; `refused` stands for the status 422. -/
inductive SubmissionAnswer
  | created (taskId : ℕ)
  | deduplicated (taskId : ℕ)
  | conflict
  | refused
  deriving DecidableEq

def normalizeNodeNamePolicy (site : Site) (value : String) : Option String :=
  let raw := site.svc.lower (site.svc.strip value)
  if raw == "" || raw == "preferred" || raw == "strict" then some raw else none

def validateNodeNamePolicy (site : Site) (nodeName value : String) : Option String :=
  match normalizeNodeNamePolicy site value with
  | some "strict" => if site.svc.strip nodeName == "" then none else some "strict"
  | policy => policy

def Task.breaksStrictContract (existing : Task) (nodeName nodeNamePolicy : String) : Bool :=
  nodeNamePolicy == "strict" &&
    (existing.nodeNamePolicy != "strict" || existing.nodeName != nodeName)

def lookUpDedupeKey (dedupeKey : String) : Action (Option Task) :=
  if dedupeKey == "" then pure none else read (·.findActiveTaskByDedupeKey dedupeKey)

/-- The part of `create_task_record` after the lookup.  The answer of the outside is whether the
numbers of the payload parse and a command and a directory are given. -/
def insertTaskRecord (site : Site) (columns : Task) : Action SubmissionAnswer := do
  let accepted ← askDecision
  if !accepted || columns.requestedAllocationId != 0 then pure .refused else
  let taskId ← createTask columns
  when (columns.sameNodeAsTaskId != 0) (maybeAssignSameNodeTask site taskId)
  pure (.created taskId)

/-- The columns are those of the payload.  The first answer of the outside is whether the project
and the backend of the payload are accepted; what the project adds to a payload is neither the key
nor the contract. -/
def createTaskRecord (site : Site) (columns : Task) : Action SubmissionAnswer := do
  let expanded ← askDecision
  if !expanded then pure .refused else
  let nodeName := site.svc.strip columns.nodeName
  match validateNodeNamePolicy site nodeName columns.nodeNamePolicy with
  | none => pure .refused
  | some nodeNamePolicy => do
      let dedupeKey := site.svc.strip columns.dedupeKey
      match ← lookUpDedupeKey dedupeKey with
      | some existing =>
          pure (if existing.breaksStrictContract nodeName nodeNamePolicy then .conflict
            else .deduplicated existing.id)
      | none =>
          insertTaskRecord site
            { columns with toTask := { columns.toTask with nodeName, nodeNamePolicy, dedupeKey } }

def createGitTask (site : Site) (columns : Task) : Action Unit := do
  let taskId ← createTask
    { columns with
      toTask := { columns.toTask with dedupeKey := "", requestedAllocationId := 0 } }
  maybeAssignSameNodeTask site taskId

def program (site : Site) : Call → Action Unit
  | .start => start site
  | .tick => tick site
  | .finishBackgroundTaskAttach task allocation => finishReservedTaskAttach site task allocation
  | .cancelTimedOutTaskRemote task => cancelTimedOutTaskRemote task
  | .cancelTaskRemoteBestEffort task => cancelTaskRemoteBestEffort site task
  | .submitAccount allocations => submitAccountWorker allocations
  | .refreshLicenseUsage => refreshLicenseUsage site
  | .createTaskRecord columns => serving do
      let _ ← createTaskRecord site columns
  | .createTask columns => serving (createGitTask site columns)
  | .maybeAssignSameNodeTask taskId => serving (maybeAssignSameNodeTask site taskId)
  | .cancelTask taskId => serving (cancelTask site taskId)
  | .requestCancelTask taskId expected => serving do
      let _ ← requestCancelTask site taskId expected
  | .apiCancelTask taskId expectedStatuses => serving do
      let _ ← apiCancelTask site taskId expectedStatuses
  | .apiCancelTasks query => serving do
      let _ ← apiCancelTasks site query
  | .requestCloseAllocation allocationId force allowProtected => serving do
      let _ ← requestCloseAllocation site allocationId force allowProtected
  | .createJob => serving (write .createJob)
  | .cancelJob jobId => serving (cancelJob site jobId)
  | .pool call env => serving do
      let _ ← poolCall site call env
  | .poolRuntime => serving (poolRuntime site)
  | .elapse seconds => write (.elapse seconds)

def Call.external : Call → Bool
  | .finishBackgroundTaskAttach .. | .cancelTimedOutTaskRemote .. => false
  | .cancelTaskRemoteBestEffort .. | .submitAccount .. | .refreshLicenseUsage => false
  | _ => true

def State.reboot (s : State) : State := { s with memory := {} }

/-- The scheduler, the pool service and the outside. -/
def system (site : Site) : System State Write Lock Call Question Question.Answer where
  program := program site
  external := Call.external
  reboot := State.reboot

end SlurmScheduler.Dispatch
