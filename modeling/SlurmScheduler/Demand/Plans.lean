import Mathlib.Data.List.Sort
import SlurmScheduler.Capacity.Reservations
import SlurmScheduler.Greedy.Passes

namespace SlurmScheduler.Demand

open Dispatch (SchedulingProfile)
open Pool (TaskStatus AllocationStatus)
open Capacity (PlannedAllocation FitSettings borrowableCpus maxBy)
open Greedy (Pass)

structure Task where
  id : ℕ
  priority : ℤ := 0
  status : TaskStatus := .queued
  exclusiveNode : Bool := false
  aedtBackend : String := "standalone"
  schedulingProfile : SchedulingProfile := .standard
  project : String := ""
  accountName : String := ""
  requestedAccountName : Option String := none
  requestedAllocationId : ℕ := 0
  sameNodeAsTaskId : ℕ := 0
  requiredCapability : String := ""
  envProfile : String := ""
  partition : String := "auto"
  nodeName : String := ""
  nodeNamePolicy : String := ""
  requestedNodeName : String := ""
  maxWorkersPerNode : ℕ := 0
  cpus : ℕ := 1
  memoryMb : ℕ := 4096
  gpus : ℕ := 0
  gpuModel : String := ""
  /-- The columns that no fit reads -/
  others : List (String × String) := []
  deriving DecidableEq

/-- `queued_task_order_key` -/
def Task.orderKey (t : Task) : ℤ ×ₗ ℕ := toLex (-t.priority, t.id)

structure Row extends toColumns : Dispatch.Allocation where
  gpuModel : String := ""

/-- A copy of a row with the annotations of a plan -/
structure Copy extends PlannedAllocation where
  gpuModel : String := ""
  reservedPooledAedtClientSlots : ℕ := 0

def Row.copy (r : Row) : Copy := { toRow := r.toColumns, gpuModel := r.gpuModel }

/-- What `list_allocations_with_live` returns, as far as it is pending, warm or active -/
structure Rows where
  all : List Row
  newestFirst : all.Pairwise fun a b ↦ b.id < a.id

inductive Value
  | text (value : String)
  | number (value : ℕ)
  | state (value : AllocationStatus)
  | status (value : TaskStatus)
  | profile (value : SchedulingProfile)
  deriving DecidableEq

abbrev Signature : Type := List (ℕ × List Value)

/-- `_reservation_records_signature` -/
def recordsSignature {α : Type} (idOf : α → ℕ) (fields : List (String × (α → Value)))
    (records : List α) : Signature :=
  (records.mergeSort fun a b ↦ idOf a ≤ idOf b).map fun r ↦ (idOf r, fields.map (·.2 r))

/-- `_RESERVATION_ALLOCATION_FIT_FIELDS` -/
def allocationFitFields : List (String × (Row → Value)) :=
  [("state", fun a ↦ .state a.state), ("account_name", fun a ↦ .text a.accountName),
    ("partition", fun a ↦ .text a.partition), ("node_name", fun a ↦ .text a.nodeName),
    ("total_cpus", fun a ↦ .number a.totalCpus), ("free_cpus", fun a ↦ .number a.freeCpus),
    ("total_memory_mb", fun a ↦ .number a.totalMemoryMb),
    ("free_memory_mb", fun a ↦ .number a.freeMemoryMb),
    ("total_gpus", fun a ↦ .number a.totalGpus), ("free_gpus", fun a ↦ .number a.freeGpus),
    ("gpu_model", fun a ↦ .text a.gpuModel), ("resource_pool", fun a ↦ .text a.resourcePool),
    ("exclusive_node", fun a ↦ .number a.exclusiveNode.toNat),
    ("drain_reason", fun a ↦ .text a.drainReason)]

/-- `_reservation_allocation_signature` -/
def allocationSignature (rows : Rows) : Signature :=
  recordsSignature (·.id) allocationFitFields rows.all

structure ActiveTask extends Task where
  allocationId : ℕ := 0

/-- `_RESERVATION_ACTIVE_TASK_FIT_FIELDS` -/
def activeTaskFitFields : List (String × (ActiveTask → Value)) :=
  [("status", fun t ↦ .status t.status), ("allocation_id", fun t ↦ .number t.allocationId),
    ("cpus", fun t ↦ .number t.cpus), ("memory_mb", fun t ↦ .number t.memoryMb),
    ("gpus", fun t ↦ .number t.gpus),
    ("scheduling_profile", fun t ↦ .profile t.schedulingProfile),
    ("aedt_backend", fun t ↦ .text t.aedtBackend), ("project", fun t ↦ .text t.project),
    ("exclusive_node", fun t ↦ .number t.exclusiveNode.toNat)]

/-- What a fit asks of besides the rows, as far as it is certified -/
structure FitState where
  activeTasks : Signature
  aedtPressure : List (ℕ × ℕ × ℕ × ℕ)
  tickAttachWorkers : List (String × ℕ)
  aedtPoolProjectCpus : ℕ
  deriving DecidableEq

/-- What `_reservation_fit_state_signature` reads -/
structure FitTables where
  activeTasks : List ActiveTask := []
  /-- The workers, shadow cores and live projects of each allocation -/
  aedtPressure : List (ℕ × ℕ × ℕ × ℕ) := []
  tickAttachWorkers : List (String × ℕ) := []
  aedtPoolProjectCpus : ℕ := 4

def reservationFitStateSignature (tables : FitTables) : FitState where
  activeTasks := recordsSignature (·.id) activeTaskFitFields tables.activeTasks
  aedtPressure := tables.aedtPressure.mergeSort fun a b ↦ a.1 ≤ b.1
  tickAttachWorkers := tables.tickAttachWorkers.mergeSort fun a b ↦ a.1 ≤ b.1
  aedtPoolProjectCpus := tables.aedtPoolProjectCpus

def Signature.value (signature : Signature) (id index : ℕ) : Option Value :=
  (signature.lookup id).bind (·[index]?)

def reservationRecordSignatureChanges (before after : Signature) (fields : List String)
    (kind : String) : List String :=
  let ids := before.map Prod.fst
  let ids' := after.map Prod.fst
  let common := ids.filter (ids'.contains ·)
  (if ids.all (ids'.contains ·) && ids'.all (ids.contains ·) then [] else [kind ++ ".membership"]) ++
    fields.zipIdx.filterMap fun field ↦
      if common.any fun id ↦ before.value id field.2 != after.value id field.2 then
        some (kind ++ "." ++ field.1)
      else none

def reservationFitStateChanges (before after : FitState) : List String :=
  reservationRecordSignatureChanges before.activeTasks after.activeTasks
      (activeTaskFitFields.map Prod.fst) "active_task" ++
    (if before.aedtPressure ≠ after.aedtPressure then ["aedt_pressure"] else []) ++
    (if before.tickAttachWorkers ≠ after.tickAttachWorkers then ["tick_attach_workers"] else []) ++
    if before.aedtPoolProjectCpus ≠ after.aedtPoolProjectCpus then ["aedt_project_cpus"] else []

/-- What decides whether and where a task fits, at one moment -/
structure Fit where
  settings : FitSettings := {}
  /-- The task itself, and the task without its node where it may go elsewhere -/
  effectiveTaskVariants : Task → List Task
  /-- With allocations that are pending -/
  allocationCanRunTask : List Copy → Copy → Task → Bool
  fitSlotsForAllocation : List Copy → Copy → Task → ℤ
  warmStrictFeaDemandPoolCanWaitForTask : List Copy → Copy → Task → Bool
  allocationModelScore : String → ℤ := fun _ ↦ 0
  nodeFeaWorkerCounts : String → ℕ := fun _ ↦ 0

def Task.isFeaBursty (t : Task) : Bool := t.schedulingProfile == .feaBursty

def Task.requiresGpu (t : Task) : Bool := 0 < t.gpus

def applyInflightCapacityReservation (a : Copy) (t : Task) : Copy :=
  let a := { a with
    reservedSchedulingProfile := some (if t.isFeaBursty then .feaBursty else .standard) }
  if t.isFeaBursty then
    let a := { a with reservedFeaSlots := a.reservedFeaSlots + 1 }
    let a := if t.aedtBackend == "pooled" then
        { a with reservedPooledAedtClientSlots := a.reservedPooledAedtClientSlots + 1 }
      else a
    if t.requiresGpu then { a with freeGpus := a.freeGpus - t.gpus } else a
  else
    let a := { a with
      freeMemoryMb := a.freeMemoryMb - t.memoryMb
      freeCpus := a.freeCpus - t.cpus
      allocationWorkerCount := a.allocationWorkerCount.map (· + 1) }
    if t.requiresGpu then { a with freeGpus := a.freeGpus - t.gpus } else a

/-- A reservation: the allocation and the variant of the task -/
abbrev Reservation : Type := ℕ × Task

def reserveOn (rows : List Copy) (reservation : Reservation) : List Copy :=
  rows.map fun a ↦
    if a.id = reservation.1 then applyInflightCapacityReservation a reservation.2 else a

section Choice

variable (fit : Fit)

def candidateKey (task : Task) (a : Copy) : ℤ ×ₗ ℕ ×ₗ ℕ ×ₗ ℕ :=
  toLex (fit.allocationModelScore a.gpuModel, toLex (a.freeGpus, toLex
    (if task.requiresGpu then a.freeCpus else borrowableCpus fit.settings a.toPlannedAllocation,
      a.freeMemoryMb)))

def bestCandidate (task : Task) (candidates : Task → List Copy) : Option Reservation :=
  (fit.effectiveTaskVariants task).findSome? fun t ↦
    (maxBy (candidateKey fit task) (candidates t)).map fun a ↦ (a.id, t)

def chooseReservation (rows : List Copy) (task : Task) : Option Reservation :=
  (bestCandidate fit task fun t ↦ rows.filter fun a ↦
      fit.allocationCanRunTask rows a t && decide (0 < fit.fitSlotsForAllocation rows a t)).or
    (bestCandidate fit task fun t ↦ rows.filter fun a ↦
      fit.warmStrictFeaDemandPoolCanWaitForTask rows a t)

/-- `reserve_inflight_capacity_for_task`, one task after the other -/
def reserveInflight : Pass (List Copy) Task Reservation := ⟨chooseReservation fit, reserveOn⟩

end Choice

def annotateFeaNodeWorkerCounts (counts : String → ℕ) (rows : List Copy) : List Copy :=
  rows.map fun a ↦
    if a.nodeName ≠ "" then { a with nodeWorkerCount := some (counts a.nodeName) } else a

/-- `current_reservation_allocations` with the counts of their nodes -/
def Rows.annotated (rows : Rows) (counts : String → ℕ) : List Copy :=
  annotateFeaNodeWorkerCounts counts (rows.all.map Row.copy)

structure Step where
  taskId : ℕ
  reservation : Option Reservation

structure Plan where
  /-- The tasks of each allocation that has any -/
  reservations : List (ℕ × List ℕ)
  reservedTaskIds : List ℕ
  /-- `task_signatures_by_id`: a row is its own signature -/
  tasks : List Task
  plannedDemandTaskIds : List ℕ
  allocationSignature : Signature
  fitStateSignature : FitState
  steps : List Step
  changedWhileBuilt : List String

def Plan.reusable (plan : Plan) : Bool := plan.changedWhileBuilt.isEmpty

/-- `reservations.setdefault(…, []).append(…)` -/
def addReservation (reservations : List (ℕ × List ℕ)) (allocationId taskId : ℕ) :
    List (ℕ × List ℕ) :=
  if (reservations.map Prod.fst).contains allocationId then
    reservations.map fun r ↦ if r.1 = allocationId then (r.1, r.2 ++ [taskId]) else r
  else reservations ++ [(allocationId, [taskId])]

/-- `queued_task_allocation_reservation_plan`, with what it reads before and after the pass -/
def queuedTaskAllocationReservationPlan (fit : Fit) (taskIsQueuedDemand : Task → Bool)
    (before : FitTables) (rows rowsAfter : Rows) (after : FitTables) (tasks : List Task) : Plan :=
  let log := (reserveInflight fit).log (rows.annotated fit.nodeFeaWorkerCounts) tasks
  let reservations := log.foldl (fun reservations entry ↦
    match entry.2 with
    | some reservation => addReservation reservations reservation.1 entry.1.id
    | none => reservations) []
  { reservations
    reservedTaskIds := reservations.flatMap Prod.snd
    tasks
    plannedDemandTaskIds := (tasks.filter taskIsQueuedDemand).map (·.id)
    allocationSignature := allocationSignature rows
    fitStateSignature := reservationFitStateSignature before
    steps := log.map fun entry ↦ ⟨entry.1.id, entry.2⟩
    changedWhileBuilt :=
      reservationRecordSignatureChanges (allocationSignature rows) (allocationSignature rowsAfter)
          (allocationFitFields.map Prod.fst) "allocation" ++
        reservationFitStateChanges (reservationFitStateSignature before)
          (reservationFitStateSignature after) }

inductive Reason
  | planChangedWhileBuilt (changes : List String)
  | queuedTaskOrderChanged
  | plannedQueuedTaskRemoved
  | queuedTaskInsertedBeforePlanPrefix
  | queuedTaskChanged
  | allocationStateChanged
  | fitStateChanged
  | reservedAllocationMissing
  | reservationTraceIncomplete
  | allocationStateChangedDuringReplay
  | fitStateChangedDuringReplay
  | nonDemandReservation
  | unreservedTask
  | queuedTailAppended
  | allTasksReserved
  deriving DecidableEq

structure Snapshot where
  rows : Rows
  tables : FitTables

def Snapshot.fitState (now : Snapshot) : FitState := reservationFitStateSignature now.tables

def plannedTaskChange (plan : Plan) : List (ℕ × Task) → Option Reason
  | [] => none
  | (taskId, task) :: rest =>
      if task.id ≠ taskId then
        some (if (plan.tasks.map (·.id)).contains task.id then .queuedTaskOrderChanged
          else .queuedTaskInsertedBeforePlanPrefix)
      else if plan.tasks.find? (·.id == taskId) ≠ some task then some .queuedTaskChanged
      else plannedTaskChange plan rest

def reservationPlanReplayState (plan : Plan) (queuedTasks : List Task) (now : Snapshot) :
    Except Reason (ℕ × Option Reason) :=
  let keys := queuedTasks.map (·.orderKey)
  let planned := plan.plannedDemandTaskIds.length
  let appended := queuedTasks.drop planned
  if !plan.reusable then .error (.planChangedWhileBuilt plan.changedWhileBuilt)
  else if (keys.zip keys.tail).any fun pair ↦ decide (pair.2 ≤ pair.1) then
    .error .queuedTaskOrderChanged
  else if queuedTasks.length < planned then .error .plannedQueuedTaskRemoved
  else match plannedTaskChange plan (plan.plannedDemandTaskIds.zip queuedTasks) with
  | some reason => .error reason
  | none =>
    if appended.any fun task ↦ (plan.tasks.map (·.id)).contains task.id then
      .error .queuedTaskOrderChanged
    else if (queuedTasks.take planned).getLast?.any fun last ↦
        appended.any fun task ↦ decide (task.orderKey ≤ last.orderKey) then
      .error .queuedTaskInsertedBeforePlanPrefix
    else if plan.allocationSignature ≠ allocationSignature now.rows then
      .error .allocationStateChanged
    else if plan.fitStateSignature ≠ now.fitState then .error .fitStateChanged
    else .ok (planned, if appended ≠ [] then some .queuedTailAppended else none)

def replaySteps (queuedTasks : List Task) (certified : ℕ) :
    List Step → ℕ → List Copy → Except Reason (List Copy × ℕ × Option Reason)
  | [], index, rows => .ok (rows, index, none)
  | step :: steps, index, rows =>
      if certified ≤ index then .ok (rows, index, none)
      else if (queuedTasks[index]?).map (·.id) ≠ some step.taskId then
        if (queuedTasks.map (·.id)).contains step.taskId then .error .queuedTaskOrderChanged
        else if step.reservation.isSome then .ok (rows, index, some .nonDemandReservation)
        else replaySteps queuedTasks certified steps index rows
      else match step.reservation with
        | none => .ok (rows, index, some .unreservedTask)
        | some reservation =>
            if (rows.map (·.id)).contains reservation.1 then
              replaySteps queuedTasks certified steps (index + 1) (reserveOn rows reservation)
            else .error .reservedAllocationMissing

/-- What a replay reads: before, while and after it applies the plan -/
structure Reads where
  before : Snapshot
  rows : Rows
  after : Snapshot

def replayReservationPlanPrefix (counts : String → ℕ) (plan : Plan) (queuedTasks : List Task)
    (reads : Reads) : Except Reason (List Copy × ℕ × Reason) := do
  let (certified, reason) ← reservationPlanReplayState plan queuedTasks reads.before
  let (rows, index, stop) ← replaySteps queuedTasks certified plan.steps 0
    (reads.rows.annotated counts)
  if stop.isNone && index != certified then .error .reservationTraceIncomplete
  else if plan.allocationSignature ≠ allocationSignature reads.after.rows then
    .error .allocationStateChangedDuringReplay
  else if plan.fitStateSignature ≠ reads.after.fitState then .error .fitStateChangedDuringReplay
  else .ok (rows, index, (stop.or reason).getD .allTasksReserved)

def reservationPlanCoversTasks (counts : String → ℕ) (plan : Plan) (queuedTasks : List Task)
    (reads : Reads) : Bool :=
  match replayReservationPlanPrefix counts plan queuedTasks reads with
  | .ok (_, replayed, _) => replayed == queuedTasks.length
  | .error _ => false

structure Scan (ω : Type) where
  rows : List Copy
  reservedSubmissions : List Row := []
  blocked : Bool := false
  world : ω

section Opening

variable {ω : Type} (fit : ω → Fit) (openAllocationForTaskRecord : ω → Task → Option Row × ω)
  (allocationMaxNewPerLoop : ℕ) (submitReservedAllocationRecords : ω → List Row → ℕ × ω)

def scanTask (scan : Scan ω) (task : Task) : Scan ω :=
  match chooseReservation (fit scan.world) scan.rows task with
  | some reservation => { scan with rows := reserveOn scan.rows reservation }
  | none =>
      if allocationMaxNewPerLoop ≤ scan.reservedSubmissions.length then
        { scan with blocked := true }
      else
        match openAllocationForTaskRecord scan.world task with
        | (none, world) => { scan with blocked := true, world }
        | (some allocation, world) =>
            let rows := scan.rows ++ [allocation.copy]
            { scan with
              rows := (reserveInflight (fit world)).run rows [task]
              reservedSubmissions := scan.reservedSubmissions ++ [allocation], world }

/-- `open_fit_aware_demand_allocations`: the number of allocations that are opened, and whether
a task is left without one; what fits may change with what has been opened. -/
def openFitAwareDemandAllocations (queuedTasks : List Task) (plan : Option Plan) (reads : Reads)
    (fresh : Rows) (world : ω) : (ℕ × Bool) × ω :=
  if queuedTasks = [] then ((0, false), world)
  else
    let replayed := plan.bind fun plan ↦
      (replayReservationPlanPrefix (fit world).nodeFeaWorkerCounts plan queuedTasks reads).toOption
    let (rows, startIndex) := match replayed with
      | some (rows, index, _) => (rows, index)
      | none => (fresh.annotated (fit world).nodeFeaWorkerCounts, 0)
    let scan := (queuedTasks.drop startIndex).foldl
      (scanTask fit openAllocationForTaskRecord allocationMaxNewPerLoop) { rows, world }
    let (opened, world) := submitReservedAllocationRecords scan.world scan.reservedSubmissions
    ((opened, scan.blocked || opened != scan.reservedSubmissions.length), world)

end Opening

end SlurmScheduler.Demand
