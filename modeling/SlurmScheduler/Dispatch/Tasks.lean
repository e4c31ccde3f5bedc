import SlurmScheduler.Dispatch.Allocations

namespace SlurmScheduler.Dispatch

open Relational Concurrent Proc
open Pool (Time TaskStatus AllocationStatus)

/-- `update_task_if_status` and whether it has changed a row. -/
def updateTaskIfStatus (seen : Task) (expected : List TaskStatus) (change : TaskChange) :
    Action Bool :=
  transact fun s ↦ ([.updateTaskIfStatus seen expected change],
    (s.task? seen.id).any fun t ↦ expected.contains t.status)

/-- `update_task_if_attach_claim` and whether it has changed a row. -/
def updateTaskIfAttachClaim (seen : Task) (attachToken : String) (launchNotStarted : Bool)
    (change : TaskChange) : Action Bool :=
  transact fun s ↦ ([.updateTaskIfAttachClaim seen attachToken launchNotStarted change],
    (s.task? seen.id).any (·.attachClaim seen.id attachToken launchNotStarted))

namespace Task

variable (t : Task)

def isFeaBursty : Bool := t.schedulingProfile == .feaBursty

/-- `task_is_fea_infra` -/
def isFeaInfra (svc : Pool.Service) : Bool := svc.strip t.project == "_aedt_pool_hosts"

/-- `task_requested_account_name` -/
def requestedAccount : String := t.requestedAccountName.getD (t.accountName.getD "")

/-- `started_at or attached_at or created_at` -/
def beganAt : Time := t.startedAt.getD (t.attachedAt.getD t.createdAt)

/-- `task_timed_out` -/
def timedOut (now : Time) : Bool :=
  t.timeoutSeconds != 0 && t.timeoutSeconds ≤ now - t.beganAt

/-- `task_has_strict_node_contract`: a policy that is not recognized counts as strict. -/
def hasStrictNodeContract (svc : Pool.Service) : Bool :=
  let policy := svc.lower (svc.strip t.nodeNamePolicy)
  policy != "" && policy != "preferred"

end Task

/-- `client.cancel_task` for the attempt of a snapshot: the error that it raises, if any. -/
def cancelTaskRemote (task : Task) : Action (Option String) := do
  match ← cancelTaskCall task.id with
  | none => do
      write (.remote (.cancelledTask task.id task.attachToken))
      pure none
  | some e => do
      write (.remote (.cancelTaskRaised task.id task.attachToken))
      pure (some e)

def Site.hasAccount (site : Site) (accountName : Option String) : Bool :=
  site.accounts.contains (accountName.getD "")

def finalizeTimedOutTask (site : Site) (task : Task) : Action Bool := do
  let updated ← updateTaskIfStatus task claiming
    (.timedOut ("task timed out after " ++ toString task.timeoutSeconds ++ "s"))
  if !updated then pure false else
  onTaskTerminal site task
  closeAllocationAfterExclusiveTask site task
  pure true

def cancelTimedOutTaskRemote (task : Task) : Action Unit := do
  let error ← cancelTaskRemote task
  write (.timedOutReturned task error.isNone)

def scheduleTimedOutTaskCancellation (site : Site) (task : Task) : Action Unit := do
  let tracked ← read fun s ↦ s.memory.timedOutTaskCancellations.any (·.1 == task.id)
  if tracked then pure () else
  if !site.hasAccount task.accountName then do
    let _ ← finalizeTimedOutTask site task
  else do
    write (.trackTimedOut task)
    spawn (.cancelTimedOutTaskRemote task)

def drainTimedOutTaskCancellations (site : Site) : Action Unit := do
  let taskIds ← read fun s ↦ s.memory.timedOutTaskCancellations.map (·.1)
  forEach taskIds fun taskId ↦ do
    match ← read fun s ↦ s.memory.timedOutTaskCancellations.find? (·.1 == taskId) with
    | some (_, { task, returned := some _ }) => do
        write (.forgetTimedOut taskId)
        let _ ← finalizeTimedOutTask site task
    | _ => pure ()

def strictNodeCancellationPendingPrefix : String := "strict node placement cancellation pending: "

/-- `text.split(separator, 1)[0]` -/
def textBefore (separator text : String) : String :=
  let rec go : List Char → List Char
    | [] => []
    | c :: cs => if separator.toList.isPrefixOf (c :: cs) then [] else c :: go cs
  String.ofList (go text.toList)

def removePrefix (pre text : String) : String :=
  if Pool.startsWith pre text then String.ofList (text.toList.drop pre.toList.length) else text

def strictNodeCancellationIsPending (site : Site) (task : Task) : Bool :=
  task.status == .attaching && task.hasStrictNodeContract site.svc &&
    Pool.startsWith strictNodeCancellationPendingPrefix task.failureMessage

def retryStrictNodeCancellation (site : Site) (task : Task) : Action Unit := do
  match ← cancelTaskRemote task with
  | some e => do
      let detail := textBefore "; last cancel error:" task.failureMessage
      let _ ← updateTaskIfAttachClaim task task.attachToken false
        (.strictRetryHeld (detail ++ "; last cancel error: " ++ e))
  | none => do
      let placementError := textBefore "; last cancel error:"
        (removePrefix strictNodeCancellationPendingPrefix task.failureMessage)
      if ← updateTaskIfAttachClaim task task.attachToken false
          (.strictRetryRejected placementError) then
        onTaskTerminal site task
      recalculateAllocationCapacity
        (if task.allocationId != 0 then some task.allocationId else none)

def applyTaskProbe (site : Site) (task : Task) (probe : TaskProbe) : Action Unit :=
  match probe.status with
  | .running =>
      when (task.status != .running) do
        write (.updateTask task .probeRunning)
        licenseEvent site task .running
  | .completed => do
      write (.updateTask task (.probeCompleted probe.exitCode))
      onTaskTerminal site task
      closeAllocationAfterExclusiveTask site task
  | .cancelled => do
      write (.updateTask task .probeCancelled)
      onTaskTerminal site task
      closeAllocationAfterExclusiveTask site task
  | .failed => do
      let message :=
        if task.failureMessage != "" then task.failureMessage else probe.failureMessage
      write (.updateTask task (.probeFailed probe.exitCode message))
      onTaskTerminal site task
      closeAllocationAfterExclusiveTask site task
  | _ => pure ()

def retryPendingCancellations (site : Site) (active : List Task) : Action (List Task) :=
  fold active [] fun candidates task ↦
    if strictNodeCancellationIsPending site task then do
      when (site.hasAccount task.accountName) (retryStrictNodeCancellation site task)
      pure candidates
    else pure (candidates ++ [task])

/-- The tasks of `rows` that a bounded sample of ids has picked. -/
def sampled (ids : List ℕ) (rows : List Task) : List Task := rows.filter (ids.contains ·.id)

def refreshTasks (site : Site) : Action Unit := do
  drainTimedOutTaskCancellations site
  let active ← read (·.listTasksByStatuses claiming 5000)
  let candidates ← retryPendingCancellations site active
  let now ← read (·.clock)
  let expired := (candidates.filter (·.timedOut now)).insertionSort fun a b ↦
    a.beganAt < b.beganAt ∨ a.beganAt = b.beganAt ∧ a.id ≤ b.id
  forEach (expired.take site.taskTimeoutCancelMaxPerTick)
    (scheduleTimedOutTaskCancellation site)
  let refreshable := candidates.filter fun t ↦
    !t.timedOut now && !(t.status == .attaching && t.exitCodePath == "")
  let sample ← askRows
  let probed := (sampled sample refreshable).filter fun t ↦ site.hasAccount t.accountName
  let outcomes ← fanOutByAccount (byAccount (fun t ↦ t.accountName.getD "") probed) fun _ rows ↦
    taskProbes (rows.map (·.id))
  forEach outcomes fun (_, rows, outcome) ↦
    match outcome with
    | .error _ => pure ()
    | .ok probes => forEach rows fun task ↦
        match probes.find? (·.1 == task.id) with
        | none => pure ()
        | some probe => applyTaskProbe site task probe.2
  drainTimedOutTaskCancellations site
  recalculateAllocationCapacity none

def sameNodeFailure (referenceId : ℕ) (reference : Option Task) : Option String :=
  match reference with
  | none => some ("same_node_as task " ++ toString referenceId ++ " not found")
  | some r =>
      if r.status.terminal then
        some ("same_node_as task " ++ toString referenceId ++ " is " ++ r.status.text)
      else none

def failStaleSameNodeTasks (site : Site) : Action Unit := do
  let tasks ← read (·.listTasksByStatuses cancellable 5000)
  forEach (tasks.filter (·.sameNodeAsTaskId != 0)) fun task ↦ do
    let reference ← read (·.task? task.sameNodeAsTaskId)
    match sameNodeFailure task.sameNodeAsTaskId reference with
    | none => pure ()
    | some message => do
        write (.updateTask task (.sameNodeFailed message))
        onTaskTerminal site task
        when (task.allocationId != 0) (recalculateAllocationCapacity none)

def lostStates : List AllocationStatus := [.draining, .closing, .closed, .failed]

def allocationStatusText : AllocationStatus → String
  | .pending => "pending"
  | .warm => "warm"
  | .active => "active"
  | .draining => "draining"
  | .closing => "closing"
  | .closed => "closed"
  | .failed => "failed"

/-- `task_has_auto_aedt_reservation` -/
def State.hasAutoAedtReservation (s : State) (taskId : ℕ) : Bool :=
  s.pool.reservations.rows.any fun r ↦
    r.taskId == taskId && Pool.likePrefix "aedt-auto:" r.reservationKey

def failStaleRequestedAllocationTasks (site : Site) : Action Unit := do
  let tasks ← read (·.listTasksByStatuses [.queued] 5000)
  forEach (tasks.filter (·.requestedAllocationId != 0)) fun task ↦ do
    let allocation ← read (·.allocation? task.requestedAllocationId)
    if allocation.any fun a ↦ !lostStates.contains a.state then pure () else
    let reserved ← read (·.hasAutoAedtReservation task.id)
    if site.svc.isPooled task.toTask && reserved then pure () else
    let state := (allocation.map fun a ↦ allocationStatusText a.state).getD "not found"
    write (.updateTask task (.requestFailed
      ("requested allocation " ++ toString task.requestedAllocationId ++ " is " ++ state)))
    onTaskTerminal site task

def cancelReclaimed (site : Site) (task : Task) : Action Unit :=
  when (site.hasAccount task.accountName) do
    let _ ← cancelTaskRemote task

def requeueTaskForRebalance (site : Site) (task : Task) : Action Unit := do
  licenseEvent site task .terminal
  write (.updateTask task (.rebalanced task.requestedAccount))

def requeuePressureKilledTask (site : Site) (task : Task) : Action Unit :=
  let attempts := task.attemptCount + 1
  if site.feaPressureMaxAttempts ≤ attempts then do
    write (.updateTask task (.pressureFailed attempts
      ("memory pressure hard limit after " ++ toString attempts ++ " attempts")))
    onTaskTerminal site task
  else do
    licenseEvent site task .terminal
    write (.updateTask task (.pressureRequeued attempts task.requestedAccount))

def Site.reclaimable (site : Site) (t : Task) : Bool :=
  t.isFeaBursty && !site.svc.isPooled t.toTask

def enforceFeaNodeCpuCap (site : Site) : Action Unit := do
  let running ← read (·.listTasksByStatuses [.running] 5000)
  let chosen ← askRows
  let victims := sampled chosen (running.filter site.reclaimable)
  forEach victims fun task ↦ do
    cancelReclaimed site task
    requeueTaskForRebalance site task
  when (!victims.isEmpty) (recalculateAllocationCapacity none)

def handleFeaMemoryPressure (site : Site) : Action Unit := do
  let chosen ← askRows
  forEach chosen fun id ↦ do
    let running ← read (·.listTasksByStatuses [.running] 5000)
    let worker := (running.filter fun t ↦
      site.reclaimable t && !t.isFeaInfra site.svc).find? (·.id == id)
    match worker with
    | none => pure ()
    | some task => do
        cancelReclaimed site task
        requeuePressureKilledTask site task
  when (!chosen.isEmpty) (recalculateAllocationCapacity none)

def cancelTask (site : Site) (taskId : ℕ) : Action Unit := do
  match ← read (·.task? taskId) with
  | none => pure ()
  | some task =>
      if task.status.terminal then pure () else
      when (site.hasAccount task.accountName && claiming.contains task.status) do
        let _ ← cancelTaskRemote task
      write (.updateTask task .cancelled)
      onTaskTerminal site task
      when (task.allocationId != 0) (recalculateAllocationCapacity none)

def cancelTaskRemoteBestEffort (site : Site) (task : Task) : Action Unit :=
  when (site.hasAccount task.accountName) do
    let _ ← cancelTaskRemote task

structure CancelReply where
  cancelled : Bool
  id : ℕ
  previousStatus : TaskStatus
  status : TaskStatus
  reason : String := ""

def CancelReply.kept (task : Task) (reason : String) : CancelReply :=
  { cancelled := false, id := task.id, previousStatus := task.status, status := task.status, reason }

def CancelReply.done (task : Task) : CancelReply :=
  { cancelled := true, id := task.id, previousStatus := task.status, status := .cancelled }

/-- Each attempt compares with the row it has just read; there are four.  A missing row raises. -/
def requestCancelTask (site : Site) (taskId : ℕ) (expected : List TaskStatus) :
    Action (Option CancelReply) :=
  let rec attempt : ℕ → Action (Option CancelReply)
    | 0 => do
        let task ← read (·.task? taskId)
        pure (task.map (CancelReply.kept · "concurrent_transition"))
    | n + 1 => do
        match ← read (·.task? taskId) with
        | none => pure none
        | some task =>
            if !(cancellable.contains task.status && expected.contains task.status) then
              pure (some (.kept task "status_mismatch"))
            else if ← updateTaskIfStatus task [task.status] .cancelled then do
              onTaskTerminal site task
              when (task.allocationId != 0) (recalculateAllocationCapacity none)
              when (claiming.contains task.status) (spawn (.cancelTaskRemoteBestEffort task))
              pure (some (.done task))
            else attempt n
  attempt 4

/-- `part.strip()` for the parts of a text between commas -/
def commaParts (site : Site) (value : String) : List String :=
  (value.toList.splitOnP (· == ',')).map fun part ↦ site.svc.strip (String.ofList part)

def taskStatuses : List TaskStatus := [.queued, .attaching, .running, .completed, .failed, .cancelled]

def parseTaskStatus (value : String) : Option TaskStatus :=
  taskStatuses.find? (·.text == value)

def parseTaskStatuses (site : Site) (value : String) : Except String (List TaskStatus) :=
  let parts := (commaParts site value).filter (· != "")
  let unknown := (parts.filter fun part ↦ (parseTaskStatus part).isNone).dedup
  if unknown.isEmpty then .ok (parts.filterMap parseTaskStatus)
  else .error ("unknown task status: " ++ ", ".intercalate (unknown.mergeSort (· ≤ ·)))

/-- `int(part)` for a text of digits, which takes no more than 4300 of them and not all of
those that `str.isdigit` takes. -/
def parseTaskId (site : Site) (part : String) : Option ℕ :=
  if part.length ≤ 4300 then
    part.toList.foldl (fun n c ↦ (fun n d ↦ 10 * n + d) <$> n <*> site.digitValue c) (some 0)
  else none

/-- The parts of a text of ids that are numbers; `none` when `int` raises. -/
def parseTaskIds (site : Site) (value : String) : Option (List ℕ) :=
  let parts := (commaParts site value).filter fun part ↦
    part != "" && part.toList.all site.isDigit
  parts.mapM (parseTaskId site)

inductive CancelResponse
  /-- a list of ids -/
  | cancelled (taskIds : List ℕ)
  | reply (reply : CancelReply)
  /-- status 400 -/
  | badRequest (detail : String)
  /-- status 404, `task not found` -/
  | notFound
  /-- status 422 -/
  | invalid
  /-- status 500 -/
  | raised

def overflows (n : ℕ) : Bool := 2 ^ 63 ≤ n

def apiCancelTask (site : Site) (taskId : ℕ) (expectedStatuses : String) :
    Action CancelResponse :=
  match parseTaskStatuses site expectedStatuses with
  | .error detail => pure (.badRequest detail)
  | .ok statuses => do
      if overflows taskId then pure .raised else
      let expected := if site.svc.strip expectedStatuses != "" then statuses else cancellable
      match ← requestCancelTask site taskId expected with
      | none => pure .notFound
      | some reply => pure (.reply reply)

def cancelListedTask (site : Site) (expected : List TaskStatus) :
    Option (List ℕ) → ℕ → Action (Option (List ℕ))
  | none, _ => pure none
  | some ids, taskId =>
      if overflows taskId then pure none else do
      let reply ← requestCancelTask site taskId expected
      pure (some (if reply.any (·.cancelled) then ids ++ [taskId] else ids))

def cancelListedTasks (site : Site) (taskIds : List ℕ) (expected : List TaskStatus) :
    Action (Option (List ℕ)) :=
  fold taskIds (some []) (cancelListedTask site expected)

/-- One row that `cancel_tasks` has selected; a task that is not found any more raises, and the
list is lost. -/
def cancelSelectedTask (site : Site) (wanted : List TaskStatus) :
    Option (List ℕ) → Task → Action (Option (List ℕ))
  | none, _ => pure none
  | some ids, task => do
      let reply ← requestCancelTask site task.id wanted
      pure (reply.map fun r ↦ if r.cancelled then ids ++ [task.id] else ids)

def cancelTasks (site : Site) (nameContains : String) (statuses : List TaskStatus) (limit : ℕ) :
    Action (Option (List ℕ)) := do
  let wanted := if statuses.isEmpty then cancellable else statuses
  let needle := site.svc.lower (site.svc.strip nameContains)
  let tasks ← read fun s ↦ s.tasks.rows.reverse.take limit
  let selected := tasks.filter fun task ↦ wanted.contains task.status &&
    (needle == "" || containsText needle (site.svc.lower task.name))
  let cancelled ← fold selected (some []) (cancelSelectedTask site wanted)
  pure (cancelled.map (·.mergeSort (· ≤ ·)))

def cancelSelected (site : Site) (nameContains : String) (statuses : List TaskStatus)
    (limit : ℕ) : List ℕ → Action (Option (List ℕ))
  | [] =>
      if overflows limit then pure none else cancelTasks site nameContains statuses limit
  | taskId :: taskIds => cancelListedTasks site (taskId :: taskIds) statuses

def apiCancelTasks (site : Site) (query : CancelQuery) : Action CancelResponse :=
  match query.limit with
  | none => pure .invalid
  | some limit =>
      match parseTaskStatuses site query.statuses with
      | .error detail => pure (.badRequest detail)
      | .ok statuses =>
          match parseTaskIds site query.taskIds with
          | none => pure .raised
          | some taskIds => do
              let cancelled ←
                cancelSelected site query.nameContains statuses (max 1 limit).toNat taskIds
              pure (cancelled.elim .raised .cancelled)

end SlurmScheduler.Dispatch
