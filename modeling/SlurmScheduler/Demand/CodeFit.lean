import SlurmScheduler.Attach.Commands
import SlurmScheduler.Demand.Plans

namespace SlurmScheduler.Demand

open Slurm.Text (isSpace strip stripChars)
open Pool (AllocationStatus)
open Capacity (FitSettings FitQueries NodeShadow DemandTask borrowableCpus cut reservedOnNode)

section Texts

-- `str.lower`
variable (lower : List Char → List Char)

/-- `re.split(r"[\s,;/|]+", …)` without the empty parts -/
def listed (text : String) : List String :=
  ((text.toList.splitOnP fun c ↦ isSpace c || [',', ';', '/', '|'].contains c).filter
    (!·.isEmpty)).map String.ofList

def requestedAccounts (accountName : String) : List String := listed accountName

def partitionSpecAllows (partitionSpec partition : String) : Bool :=
  let names := ((partitionSpec.toList.splitOnP (· == ',')).map stripChars).filter (!·.isEmpty)
  names.isEmpty || names.contains partition.toList

def gpuModelCandidates (models : String) : List (List Char) :=
  let candidates := ((listed models).map fun part ↦
    Attach.normalizeGpuModel lower part.toList).filter (!·.isEmpty)
  if candidates.isEmpty then
    [Attach.normalizeGpuModel lower models.toList].filter (!·.isEmpty)
  else candidates

/-- `GPU_PRIORITY` -/
def gpuPriority (model : List Char) : ℤ :=
  if model == "a6000ada".toList then 400
  else if model == "a6000".toList then 300
  else if model == "rtx3090".toList then 200
  else if model == "a10".toList then 100
  else 0

def Task.isFeaInfra (t : Task) : Bool := strip t.project == "_aedt_pool_hosts"

/-- A policy that is neither empty nor preferred counts as strict. -/
def Task.explicitNodeNamePolicy (t : Task) : String :=
  let raw := lower (stripChars t.nodeNamePolicy.toList)
  if raw == [] then "" else if raw == "preferred".toList then "preferred" else "strict"

def Task.hasStrictNodeContract (t : Task) : Bool := t.explicitNodeNamePolicy lower == "strict"

def Task.strictNodeName (t : Task) : String :=
  if t.hasStrictNodeContract lower then strip t.nodeName else ""

def Task.requestedAccountList (t : Task) : List String :=
  requestedAccounts (t.requestedAccountName.getD t.accountName)

end Texts

structure PestatNode where
  cpuTotal : ℕ := 0
  cpuLoad : ℚ := 0
  memoryMb : ℕ := 0
  freeMemoryMb : ℕ := 0

structure Footprint where
  cpus : ℚ := 0
  memoryMb : ℚ := 0

structure NodeResources where
  allocationCount : ℕ
  ownedCpus : ℕ
  ownedMemoryMb : ℕ
  requestedCpus : ℕ
  requestedMemoryMb : ℕ

/-- The settings of the scheduler, and the answers of its tables, samples and caches -/
structure Answers extends FitSettings where
  lower : List Char → List Char := id
  feaNodeNamePolicy : String := "preferred"
  feaSoftMemoryFreePercent : ℚ := 60
  feaHardMemoryFreePercent : ℚ := 40
  feaLoadTarget : ℚ := 3 / 4
  feaAllocUtilTarget : ℚ := 17 / 20
  feaMaxAttachPerNodePerLoop : ℤ := 12
  feaSharedMemoryEstimateFraction : ℚ := 1 / 4
  feaSharedMemoryMinEstimateMb : ℕ := 8192
  minEstimatePos : 0 < feaSharedMemoryMinEstimateMb := by decide
  accounts : List String := []
  /-- Of an account, for a capability and an environment profile -/
  accountSupports : String → String → String → Bool := fun _ _ _ ↦ true
  /-- For FEA, with so many more projects to come -/
  accountStorageBlocked : String → ℕ → Bool := fun _ _ ↦ false
  /-- The rows of `pestat` that are fresh -/
  pestatNodes : String → Option PestatNode := fun _ ↦ none
  allocUtilFresh : ℕ → Option ℚ := fun _ ↦ none
  feaNodeSustainedOverloaded : String → Bool := fun _ ↦ false
  feaImmatureFootprint : String → Footprint := fun _ ↦ {}
  feaAdaptiveMemorySlots : String → ℤ → ℤ → ℤ → ℤ → ℤ := fun _ _ _ _ _ ↦ 0
  tickAttachWorkersByNode : String → ℕ := fun _ ↦ 0
  /-- The `requested_cpus` of `fea_allocation_pressures` -/
  feaAllocationPressures : ℕ → ℕ := fun _ ↦ 0
  feaNodeResourcePressures : String → Option NodeResources := fun _ ↦ none
  nodeCpuTotal : String → ℕ := fun _ ↦ 0
  nodeMemoryTotal : String → ℕ := fun _ ↦ 0
  nodeFeaWorkerCounts : String → ℕ := fun _ ↦ 0
  allocationWorkerCount : ℕ → ℕ := fun _ ↦ 0
  /-- `active_profile_allocation_sets` -/
  feaAllocationIds : ℕ → Bool := fun _ ↦ false
  standardAllocationIds : ℕ → Bool := fun _ ↦ false
  /-- The allocation of `same_node_target_for_task` -/
  sameNodeTarget : ℕ → Option ℕ := fun _ ↦ none
  taskHasAutoAedtReservation : ℕ → Bool := fun _ ↦ false
  activePooledAedtTasksByAllocation : ℕ → ℕ := fun _ ↦ 0
  aedtPoolProjectCpus : ℕ := 4
  projectCpusPos : 0 < aedtPoolProjectCpus := by decide

section Constraints

variable (w : Answers)

def taskNodeNamePolicy (t : Task) : String :=
  let explicit := t.explicitNodeNamePolicy w.lower
  if explicit != "" then explicit
  else if t.isFeaBursty then w.feaNodeNamePolicy
  else if strip t.nodeName != "" then "strict" else ""

def taskCanRelaxPreferredNode (t : Task) : Bool :=
  taskNodeNamePolicy w t == "preferred" && t.isFeaBursty && strip t.nodeName != "" &&
    t.sameNodeAsTaskId == 0 && t.requestedAllocationId == 0 && !t.requiresGpu && !t.exclusiveNode

def effectiveTaskVariants (t : Task) : List Task :=
  if taskCanRelaxPreferredNode w t then
    [t, { t with requestedNodeName := t.nodeName, nodeName := "" }]
  else [t]

def allocationIsDedicatedAedtPool (a : Copy) : Bool :=
  "AEDT pool".toList.isPrefixOf a.drainReason.toList

def taskCanShareDedicatedAedtPool (a : Copy) (t : Task) : Bool :=
  a.id != 0 && t.requestedAllocationId == a.id &&
    (t.isFeaInfra ||
      (t.id != 0 && t.aedtBackend == "pooled" && w.taskHasAutoAedtReservation t.id))

def taskUsesReservedAedtPoolCapacity (a : Copy) (t : Task) : Bool :=
  allocationIsDedicatedAedtPool a && taskCanShareDedicatedAedtPool w a t

/-- `allocation_demand_profile(…) == "fea"` -/
def allocationDemandsFea (a : Copy) : Bool := "queued FEA ".toList.isPrefixOf a.drainReason.toList

def allocationHasGpuPool (a : Copy) : Bool :=
  0 < a.totalGpus || "gpu:".toList.isPrefixOf a.resourcePool.toList

def allocationProfileConflicts (a : Copy) (t : Task) : Bool :=
  (a.reservedSchedulingProfile.any fun profile ↦ (profile == .feaBursty) != t.isFeaBursty) ||
    (allocationDemandsFea a && !t.isFeaBursty) ||
    if t.isFeaBursty then w.standardAllocationIds a.id else w.feaAllocationIds a.id

/-- `allocation_matches_task_constraints`, with `include_pending` -/
def allocationMatchesTaskConstraints (a : Copy) (t : Task) : Bool :=
  (if allocationIsDedicatedAedtPool a then taskCanShareDedicatedAedtPool w a t
    else a.exclusiveNode == t.exclusiveNode) &&
  (t.requestedAllocationId == 0 || a.id == t.requestedAllocationId) &&
  (t.requestedAccountList.isEmpty || t.requestedAccountList.contains a.accountName) &&
  (t.sameNodeAsTaskId == 0 || w.sameNodeTarget t.sameNodeAsTaskId == some a.id) &&
  (w.accounts.contains a.accountName &&
    w.accountSupports a.accountName t.requiredCapability t.envProfile) &&
  !(t.isFeaBursty && !t.requiresGpu && allocationHasGpuPool a) &&
  !allocationProfileConflicts w a t &&
  !(t.isFeaBursty && w.accountStorageBlocked a.accountName 0) &&
  (!t.exclusiveNode || (a.freeCpus == a.totalCpus && a.freeMemoryMb == a.totalMemoryMb &&
    a.freeGpus == a.totalGpus)) &&
  (t.partition == "" || t.partition == "auto" || partitionSpecAllows t.partition a.partition) &&
  (t.nodeName == "" || a.nodeName == t.nodeName)

def allocationGpuMatchesTask (a : Copy) (t : Task) : Bool :=
  !t.requiresGpu ||
    (let taskModels := gpuModelCandidates w.lower t.gpuModel
    (taskModels.isEmpty ||
      taskModels.contains (Attach.normalizeGpuModel w.lower a.gpuModel.toList)) &&
      t.gpus ≤ a.freeGpus)

/-- `allocation_can_run_task`, with `include_pending`: so no task overlaps another one. -/
def allocationCanRunTask (a : Copy) (t : Task) : Bool :=
  allocationMatchesTaskConstraints w a t &&
  if t.isFeaBursty then allocationGpuMatchesTask w a t
  else t.memoryMb ≤ a.freeMemoryMb &&
    if t.requiresGpu then allocationGpuMatchesTask w a t && t.cpus ≤ a.freeCpus
    else if 0 < a.totalGpus then t.cpus ≤ borrowableCpus w.toFitSettings a.toPlannedAllocation
    else t.cpus ≤ a.freeCpus

end Constraints

section Slots

variable (w : Answers) (rows : List Copy) (a : Copy) (t : Task)

def Copy.isPending : Bool := a.state == .pending

def pestatNodeForAllocation : Option PestatNode :=
  if strip a.nodeName == "" then none else w.pestatNodes (strip a.nodeName)

/-- `fea_memory_pressure_state(…) == "ok"` -/
def PestatNode.memoryOk (node : PestatNode) : Bool :=
  let percent : ℚ := node.freeMemoryMb / node.memoryMb * 100
  0 < node.memoryMb && w.feaHardMemoryFreePercent ≤ percent &&
    w.feaSoftMemoryFreePercent ≤ percent

def PestatNode.loadOk (node : PestatNode) : Bool :=
  let cpuTotal : ℚ := (max 1 node.cpuTotal : ℕ)
  if (w.allocUtilFresh a.id).isSome then node.cpuLoad ≤ cpuTotal * 2
  else node.cpuLoad ≤ cpuTotal * w.feaLoadTarget

def feaAllocationAcceptsTask : Bool :=
  (pestatNodeForAllocation w a).any (fun node ↦ node.memoryOk w && node.loadOk w a) &&
    !(a.nodeName != "" && w.feaNodeSustainedOverloaded a.nodeName)

def feaSharedMemoryEstimateMb : ℤ :=
  let peakMb : ℕ := max 1 t.memoryMb
  min (peakMb : ℤ) (max (w.feaSharedMemoryMinEstimateMb : ℤ)
    ⌊(peakMb : ℚ) * w.feaSharedMemoryEstimateFraction + 999999 / 1000000⌋)

def nodeTickAttaches : ℤ :=
  if strip a.nodeName == "" then 0 else w.tickAttachWorkersByNode (strip a.nodeName)

def memorySlots (node : PestatNode) : ℤ :=
  let footprint := w.feaImmatureFootprint (strip a.nodeName)
  let memoryTotal : ℤ := (max 1 node.memoryMb : ℕ)
  let memoryFree : ℤ := max 0 (node.freeMemoryMb - ⌊footprint.memoryMb⌋)
  let softFloor : ℤ := ⌊(memoryTotal : ℚ) * (w.feaSoftMemoryFreePercent / 100)⌋
  let estimateMb := feaSharedMemoryEstimateMb w t
  let slots := max 0 (memoryFree - softFloor) / estimateMb
  let adaptive := w.feaAdaptiveMemorySlots (strip a.nodeName) memoryTotal softFloor estimateMb
    (nodeTickAttaches w a)
  if slots ≤ 0 && 0 < adaptive then adaptive else slots

def feaAllocationBaselineSlotsRemaining : ℤ :=
  let requested := if a.isPending || a.id == 0 then 0 else w.feaAllocationPressures a.id
  ((a.totalCpus - requested) / max 1 t.cpus : ℕ)

def cpuSlots (node : PestatNode) : ℤ :=
  let loadBudget : ℚ := match w.allocUtilFresh a.id with
    | some busyCores => max 0 ((max 1 a.totalCpus : ℕ) * w.feaAllocUtilTarget - busyCores)
    | none => max 0 ((max 1 node.cpuTotal : ℕ) * w.feaLoadTarget -
        (max 0 node.cpuLoad + (w.feaImmatureFootprint (strip a.nodeName)).cpus))
  ⌊loadBudget / (max 1 t.cpus : ℕ)⌋

def feaDynamicExtraSlots : ℤ :=
  if a.isPending then w.feaMaxAttachPerLoop
  else match pestatNodeForAllocation w a with
  | none => 0
  | some node =>
      let baselineSlots := feaAllocationBaselineSlotsRemaining w a t
      if !feaAllocationAcceptsTask w a then 0
      else if 0 < baselineSlots then
        max 0 (min (min (memorySlots w a t node) baselineSlots)
          (min w.feaMaxAttachPerLoop (w.feaMaxAttachPerNodePerLoop - nodeTickAttaches w a)))
      else
        max 0 (min (min (memorySlots w a t node) (cpuSlots w a t node))
          (min w.feaMaxAttachPerLoop (2 - nodeTickAttaches w a)))

def feaNodeCpuCapRemaining : Option ℤ :=
  if t.isFeaInfra || taskUsesReservedAedtPoolCapacity w a t then none
  else if a.isPending || a.id == 0 || a.totalCpus == 0 then none
  else
    let capacityFactor := if t.hasStrictNodeContract w.lower && t.sameNodeAsTaskId != 0 then 1
      else w.feaNodeRequestedCpuFactor
    let budget : ℚ := a.totalCpus * capacityFactor - w.feaAllocationPressures a.id
    some (max 0 ⌊budget / (max 1 t.cpus : ℕ)⌋)

def feaEffectiveWorkerLimit (currentWorkers : ℤ) : ℤ :=
  let limit := if t.maxWorkersPerNode = 0 then currentWorkers + feaDynamicExtraSlots w a t
    else max t.maxWorkersPerNode (currentWorkers + feaDynamicExtraSlots w a t)
  match feaNodeCpuCapRemaining w a t with
  | none => limit
  | some remaining => min limit (currentWorkers + remaining)

def reservedFeaSlotsForNode (nodeName : String) : ℕ :=
  reservedOnNode (rows.map (·.toPlannedAllocation)) nodeName

/-- What the node has of its own, and what its allocations have of it -/
def nodeShadow (nodeName : String) : Option NodeShadow :=
  (w.feaNodeResourcePressures nodeName).bind fun pressure ↦
    let atMost (physical owned : ℕ) := if 0 < physical then min owned physical else owned
    if pressure.allocationCount < 2 then none
    else some {
      cpuCapacity :=
        ⌊(atMost (w.nodeCpuTotal nodeName) pressure.ownedCpus : ℚ) * w.feaNodeRequestedCpuFactor⌋
      ownedMemoryMb := atMost (w.nodeMemoryTotal nodeName) pressure.ownedMemoryMb
      requestedCpus := pressure.requestedCpus
      requestedMemoryMb := pressure.requestedMemoryMb }

def feaNodeShadowCapRemaining : Option ℤ :=
  if t.isFeaInfra || taskUsesReservedAedtPoolCapacity w a t then none
  else if a.isPending || strip a.nodeName == "" then none
  else (nodeShadow w (strip a.nodeName)).map fun shadow ↦
    let reservedSlots : ℤ := reservedFeaSlotsForNode rows (strip a.nodeName)
    let taskCpus : ℤ := (max 1 t.cpus : ℕ)
    let taskMemoryMb : ℤ := (max 1 t.memoryMb : ℕ)
    if shadow.cpuCapacity ≤ 0 || shadow.ownedMemoryMb ≤ 0 then 0
    else
      min (max 0 ((shadow.cpuCapacity - (shadow.requestedCpus + reservedSlots * taskCpus)) /
          taskCpus))
        (max 0 ((shadow.ownedMemoryMb - (shadow.requestedMemoryMb + reservedSlots * taskMemoryMb)) /
          taskMemoryMb))

def startupSlots : Option ℤ :=
  if a.isPending && (a.resourcePool == "" || a.resourcePool == "cpu") &&
      0 < w.feaNodeRequestedCpuFactor then
    some (⌊a.totalCpus * min 1 w.feaNodeRequestedCpuFactor⌋ / (max 1 t.cpus : ℕ))
  else none

def gpuSlots : Option ℤ :=
  if t.requiresGpu then some ((a.freeGpus / max 1 t.gpus : ℕ) : ℤ) else none

/-- The room for the projects of pooled clients -/
def densitySlots : Option ℤ :=
  if t.aedtBackend == "pooled" then
    some (max 0 ((a.totalCpus / w.aedtPoolProjectCpus : ℕ) -
      w.activePooledAedtTasksByAllocation a.id - a.reservedPooledAedtClientSlots : ℤ))
  else none

def nodeWorkers : ℤ := (a.nodeWorkerCount.getD (w.nodeFeaWorkerCounts a.nodeName) : ℕ)

def feaSlots : ℤ :=
  let slots := cut w.feaMaxAttachPerLoop (startupSlots w a t)
  let (slots, reservedSlots) : ℤ × ℤ :=
    if a.nodeName != "" then
      let slots := min slots (max 0 (feaEffectiveWorkerLimit w a t (nodeWorkers w a) -
        nodeWorkers w a - reservedFeaSlotsForNode rows a.nodeName))
      (min slots (feaDynamicExtraSlots w a t), 0)
    else
      (if 0 < t.maxWorkersPerNode then
        min slots (max 0 (t.maxWorkersPerNode - w.allocationWorkerCount a.id))
      else slots, a.reservedFeaSlots)
  let slots := cut (cut slots (gpuSlots a t)) (densitySlots w a t)
  max 0 (cut slots (feaNodeShadowCapRemaining w rows a t) - reservedSlots)

def taskCanOverlapSameNodeAllocation (includePending : Bool) : Bool :=
  !includePending && t.sameNodeAsTaskId != 0 && !(t.requiresGpu || t.exclusiveNode) &&
    t.cpus ≤ 4 && w.sameNodeTarget t.sameNodeAsTaskId == some a.id

def standardSlots : ℕ :=
  let memorySlots := a.freeMemoryMb / max 1 t.memoryMb
  if t.requiresGpu then
    let gpuSlots := a.freeGpus / max 1 t.gpus
    let cpuSlots := if t.cpus ≤ 4 && 0 < gpuSlots then gpuSlots else a.freeCpus / max 1 t.cpus
    min memorySlots (min gpuSlots cpuSlots)
  else if taskCanOverlapSameNodeAllocation w a t a.isPending then 1
  else min memorySlots (borrowableCpus w.toFitSettings a.toPlannedAllocation / max 1 t.cpus)

def fitSlotsForAllocation : ℤ :=
  if t.isFeaBursty then
    if t.isFeaInfra then 1
    else if taskUsesReservedAedtPoolCapacity w a t then 1
    else if !a.isPending && !feaAllocationAcceptsTask w a then 0
    else feaSlots w rows a t
  else standardSlots w a t

def Copy.pendingView : Copy := { a with state := .pending }

def warmStrictFeaDemandPoolCanWaitForTask : Bool :=
  a.state == .warm && allocationDemandsFea a && t.isFeaBursty && t.hasStrictNodeContract w.lower &&
    t.strictNodeName w.lower != "" && a.nodeName == t.strictNodeName w.lower &&
    a.slurmJobId != "" &&
    (w.accounts.contains a.accountName && !w.accountStorageBlocked a.accountName 1) &&
    allocationCanRunTask w a.pendingView t && 0 < fitSlotsForAllocation w rows a.pendingView t

/-- The fit of the scheduler -/
def codeFit : Fit where
  settings := w.toFitSettings
  effectiveTaskVariants := effectiveTaskVariants w
  allocationCanRunTask _ := allocationCanRunTask w
  fitSlotsForAllocation := fitSlotsForAllocation w
  warmStrictFeaDemandPoolCanWaitForTask := warmStrictFeaDemandPoolCanWaitForTask w
  allocationModelScore model := gpuPriority (Attach.normalizeGpuModel w.lower model.toList)
  nodeFeaWorkerCounts := w.nodeFeaWorkerCounts

end Slots

section Certificate

/-- What the fit reads of a copy: the certified columns, the annotations, and of a warm one whether
it has a job -/
def Copy.certified (a : Copy) : Copy where
  id := a.id
  state := a.state
  accountName := a.accountName
  slurmJobId := if a.state = .warm ∧ a.slurmJobId ≠ "" then "job" else ""
  partition := a.partition
  nodeName := a.nodeName
  totalCpus := a.totalCpus
  freeCpus := a.freeCpus
  totalMemoryMb := a.totalMemoryMb
  freeMemoryMb := a.freeMemoryMb
  totalGpus := a.totalGpus
  freeGpus := a.freeGpus
  gpuModel := a.gpuModel
  resourcePool := a.resourcePool
  exclusiveNode := a.exclusiveNode
  drainReason := a.drainReason
  reservedFeaSlots := a.reservedFeaSlots
  reservedSchedulingProfile := a.reservedSchedulingProfile
  nodeWorkerCount := a.nodeWorkerCount
  allocationWorkerCount := a.allocationWorkerCount
  reservedPooledAedtClientSlots := a.reservedPooledAedtClientSlots

/-- A fit that reads no other column of a row -/
structure Fit.Certified (fit : Fit) : Prop where
  canRun : ∀ rows a t, fit.allocationCanRunTask (rows.map Copy.certified) a.certified t =
    fit.allocationCanRunTask rows a t
  slots : ∀ rows a t, fit.fitSlotsForAllocation (rows.map Copy.certified) a.certified t =
    fit.fitSlotsForAllocation rows a t
  canWait : ∀ rows a t,
    fit.warmStrictFeaDemandPoolCanWaitForTask (rows.map Copy.certified) a.certified t =
      fit.warmStrictFeaDemandPoolCanWaitForTask rows a t

variable (w : Answers) (rows : List Copy) (a : Copy) (t : Task)

theorem reservedFeaSlotsForNode_certified (nodeName : String) :
    reservedFeaSlotsForNode (rows.map Copy.certified) nodeName =
      reservedFeaSlotsForNode rows nodeName := by
  rw [reservedFeaSlotsForNode, reservedFeaSlotsForNode, List.map_map, reservedOnNode,
    reservedOnNode, List.filter_map, List.filter_map, List.map_map, List.map_map]
  rfl

theorem fitSlots_rows :
    fitSlotsForAllocation w (rows.map Copy.certified) a t = fitSlotsForAllocation w rows a t := by
  simp only [fitSlotsForAllocation, feaSlots, feaNodeShadowCapRemaining,
    reservedFeaSlotsForNode_certified]

@[simp] theorem certified_id : a.certified.id = a.id := rfl

@[simp] theorem certified_nodeName : a.certified.nodeName = a.nodeName := rfl

@[simp] theorem certified_reservedFeaSlots :
    a.certified.reservedFeaSlots = a.reservedFeaSlots := rfl

@[simp] theorem extraSlots_certified :
    feaDynamicExtraSlots w a.certified t = feaDynamicExtraSlots w a t := rfl

@[simp] theorem workerLimit_certified (currentWorkers : ℤ) :
    feaEffectiveWorkerLimit w a.certified t currentWorkers =
      feaEffectiveWorkerLimit w a t currentWorkers := rfl

@[simp] theorem shadowCap_certified :
    feaNodeShadowCapRemaining w rows a.certified t = feaNodeShadowCapRemaining w rows a t := rfl

@[simp] theorem startupSlots_certified : startupSlots w a.certified t = startupSlots w a t := rfl

@[simp] theorem gpuSlots_certified : gpuSlots a.certified t = gpuSlots a t := rfl

@[simp] theorem densitySlots_certified : densitySlots w a.certified t = densitySlots w a t := rfl

@[simp] theorem nodeWorkers_certified : nodeWorkers w a.certified = nodeWorkers w a := rfl

@[simp] theorem feaSlots_certified : feaSlots w rows a.certified t = feaSlots w rows a t := by
  simp [feaSlots]

@[simp] theorem standardSlots_certified :
    standardSlots w a.certified t = standardSlots w a t := rfl

theorem fitSlots_certified :
    fitSlotsForAllocation w rows a.certified t = fitSlotsForAllocation w rows a t := by
  rw [fitSlotsForAllocation, fitSlotsForAllocation, feaSlots_certified, standardSlots_certified]
  rfl

/-- A pending view reads no job. -/
theorem fitSlots_pendingView :
    fitSlotsForAllocation w rows a.certified.pendingView t =
      fitSlotsForAllocation w rows a.pendingView t := by
  have hview : a.certified.pendingView.certified = a.pendingView.certified := rfl
  rw [← fitSlots_certified, hview, fitSlots_certified]

/-- The fit of the scheduler reads the certified columns, and of a warm row whether it has a job. -/
theorem codeFit_certified : (codeFit w).Certified where
  canRun _ _ _ := rfl
  slots rows a t := (fitSlots_rows w rows _ t).trans (fitSlots_certified w rows a t)
  canWait rows a t := by
    by_cases hwarm : a.state = .warm
    · have hjob : (a.certified.slurmJobId != "") = (a.slurmJobId != "") := by
        by_cases hnone : a.slurmJobId = ""
        · simp [Copy.certified, hnone]
        · simp [Copy.certified, hwarm, hnone]
      simp only [codeFit, warmStrictFeaDemandPoolCanWaitForTask, fitSlots_rows,
        fitSlots_pendingView, hjob]
      rfl
    · have hnot : (a.state == .warm) = false := beq_eq_false_iff_ne.mpr hwarm
      have hnot' : (a.certified.state == .warm) = false := hnot
      simp only [codeFit, warmStrictFeaDemandPoolCanWaitForTask, hnot, hnot', Bool.false_and]

end Certificate

section Standalone

variable {w : Answers} {rows : List Copy} {a : Copy} {t : Task}

/-- A task that refers to no other one and to no Desktop -/
def Task.demandTask (w : Answers) (t : Task) (hcpus : 0 < t.cpus) (hmemory : 0 < t.memoryMb) :
    DemandTask where
  schedulingProfile := t.schedulingProfile
  isFeaInfra := t.isFeaInfra
  cpus := t.cpus
  memoryMb := t.memoryMb
  gpus := t.gpus
  maxWorkersPerNode := t.maxWorkersPerNode
  nodeName := t.nodeName
  strictNode := t.hasStrictNodeContract w.lower
  canRelaxPreferredNode := taskCanRelaxPreferredNode w t
  cpusPos := hcpus
  memoryPos := hmemory

/-- The answers of one allocation for one task -/
def Answers.queries (w : Answers) (a : Copy) (t : Task) : FitQueries where
  feaAllocationAcceptsTask _ := feaAllocationAcceptsTask w a
  pestatFresh _ := (pestatNodeForAllocation w a).isSome
  memorySlots _ := (pestatNodeForAllocation w a).elim 0 (memorySlots w a t)
  baselineSlots _ := feaAllocationBaselineSlotsRemaining w a t
  baselineSlotsLeft _ := w.feaMaxAttachPerNodePerLoop - nodeTickAttaches w a
  cpuSlots _ := (pestatNodeForAllocation w a).elim 0 (cpuSlots w a t)
  rampSlotsLeft _ := 2 - nodeTickAttaches w a
  requestedCpus := w.feaAllocationPressures
  nodeFeaWorkers := w.nodeFeaWorkerCounts
  allocationWorkers := w.allocationWorkerCount
  nodeShadow := nodeShadow w

theorem notReserved (hinfra : t.isFeaInfra = false) (hbackend : t.aedtBackend ≠ "pooled") :
    taskUsesReservedAedtPoolCapacity w a t = false := by
  have hpooled : (t.aedtBackend == "pooled") = false := beq_eq_false_iff_ne.mpr hbackend
  simp [taskUsesReservedAedtPoolCapacity, taskCanShareDedicatedAedtPool, hinfra, hpooled]

theorem dynamicExtra_standalone : feaDynamicExtraSlots w a t =
    Capacity.feaDynamicExtraSlots w.toFitSettings (w.queries a t) a.toPlannedAllocation := by
  rw [feaDynamicExtraSlots, Capacity.feaDynamicExtraSlots]
  have hsame : Capacity.isPending a.toPlannedAllocation = a.isPending := rfl
  rw [hsame]
  by_cases hpending : a.isPending = true
  · rw [if_pos hpending, if_pos hpending]
  · rw [if_neg hpending, if_neg hpending]
    cases hnode : pestatNodeForAllocation w a with
    | none => simp [Answers.queries, hnode]
    | some node =>
      simp only [Answers.queries, hnode, Option.isSome_some, Bool.not_true, Bool.false_or,
        Option.elim_some]

theorem workerLimit_standalone (hcpus : 0 < t.cpus) (hmemory : 0 < t.memoryMb)
    (hinfra : t.isFeaInfra = false) (hbackend : t.aedtBackend ≠ "pooled")
    (halone : t.sameNodeAsTaskId = 0) (workers : ℤ) : feaEffectiveWorkerLimit w a t workers =
      Capacity.feaEffectiveWorkerLimit w.toFitSettings (w.queries a t) a.toPlannedAllocation
        (t.demandTask w hcpus hmemory) workers := by
  have hcap : feaNodeCpuCapRemaining w a t = Capacity.feaNodeCpuCapRemaining w.toFitSettings
      (w.queries a t) a.toPlannedAllocation (t.demandTask w hcpus hmemory) := by
    rw [feaNodeCpuCapRemaining, hinfra, notReserved hinfra hbackend, halone]
    simp only [bne_self_eq_false, Bool.and_false, Bool.or_false, Bool.false_eq_true, if_false]
    rfl
  rw [feaEffectiveWorkerLimit, Capacity.feaEffectiveWorkerLimit, hcap, dynamicExtra_standalone]
  rfl

theorem shadowCap_standalone (hcpus : 0 < t.cpus) (hmemory : 0 < t.memoryMb)
    (hinfra : t.isFeaInfra = false) (hbackend : t.aedtBackend ≠ "pooled")
    (hname : strip a.nodeName = a.nodeName) :
    feaNodeShadowCapRemaining w rows a t = Capacity.feaNodeShadowCapRemaining (w.queries a t)
      (rows.map (·.toPlannedAllocation)) a.toPlannedAllocation
      (t.demandTask w hcpus hmemory) := by
  rw [feaNodeShadowCapRemaining, hinfra, notReserved hinfra hbackend, hname]
  rfl

theorem feaSlots_standalone (hcpus : 0 < t.cpus) (hmemory : 0 < t.memoryMb)
    (hinfra : t.isFeaInfra = false) (hbackend : t.aedtBackend ≠ "pooled")
    (halone : t.sameNodeAsTaskId = 0) (hname : strip a.nodeName = a.nodeName) :
    feaSlots w rows a t = Capacity.feaSlots w.toFitSettings (w.queries a t)
      (rows.map (·.toPlannedAllocation)) a.toPlannedAllocation
      (t.demandTask w hcpus hmemory) := by
  have hpooled : (t.aedtBackend == "pooled") = false := beq_eq_false_iff_ne.mpr hbackend
  have hdensity : densitySlots w a t = none := by simp [densitySlots, hpooled]
  have hstartup : startupSlots w a t = Capacity.startupSlots w.toFitSettings a.toPlannedAllocation
      (t.demandTask w hcpus hmemory) := rfl
  have hgpus : gpuSlots a t = Capacity.gpuSlots a.toPlannedAllocation
      (t.demandTask w hcpus hmemory) := by
    simp [gpuSlots, Capacity.gpuSlots, Task.requiresGpu, Task.demandTask]
  rw [feaSlots, Capacity.feaSlots, hdensity, hstartup, hgpus, dynamicExtra_standalone,
    workerLimit_standalone hcpus hmemory hinfra hbackend halone,
    shadowCap_standalone hcpus hmemory hinfra hbackend hname]
  by_cases hnamed : (a.nodeName != "") = true
  · simp only [if_pos hnamed, cut, Option.elim_none, sub_zero]
    rfl
  · simp only [if_neg hnamed, cut, Option.elim_none]
    rfl

theorem standardSlots_standalone (hcpus : 0 < t.cpus) (hmemory : 0 < t.memoryMb)
    (halone : t.sameNodeAsTaskId = 0) : standardSlots w a t =
      Capacity.standardSlots w.toFitSettings a.toPlannedAllocation
        (t.demandTask w hcpus hmemory) := by
  have hgpus : t.requiresGpu = decide (0 < (t.demandTask w hcpus hmemory).gpus) := rfl
  have hoverlap : taskCanOverlapSameNodeAllocation w a t a.isPending = false := by
    simp [taskCanOverlapSameNodeAllocation, halone]
  rw [standardSlots, Capacity.standardSlots, hgpus, hoverlap]
  by_cases hgpu : 0 < (t.demandTask w hcpus hmemory).gpus
  · rw [if_pos hgpu, if_pos (decide_eq_true hgpu)]
    rfl
  · rw [if_neg hgpu, if_neg (by simpa using hgpu)]
    rfl

/-- A standalone task of its own fits where the plan of in-flight capacity has it fit. -/
theorem fitSlots_standalone (hcpus : 0 < t.cpus) (hmemory : 0 < t.memoryMb)
    (hbackend : t.aedtBackend ≠ "pooled") (halone : t.sameNodeAsTaskId = 0)
    (hname : strip a.nodeName = a.nodeName) :
    fitSlotsForAllocation w rows a t =
      Capacity.fitSlotsForAllocation w.toFitSettings (w.queries a t)
        (rows.map (·.toPlannedAllocation)) a.toPlannedAllocation
        (t.demandTask w hcpus hmemory) := by
  rw [fitSlotsForAllocation, Capacity.fitSlotsForAllocation]
  by_cases hfea : t.isFeaBursty = true
  · have hfea' : (t.demandTask w hcpus hmemory).isFea = true := hfea
    rw [if_pos hfea, if_pos hfea']
    cases hinfra : t.isFeaInfra with
    | true => simp [Task.demandTask, hinfra]
    | false =>
      have hinfra' : (t.demandTask w hcpus hmemory).isFeaInfra = false := hinfra
      rw [notReserved hinfra hbackend, hinfra',
        feaSlots_standalone hcpus hmemory hinfra hbackend halone hname]
      rfl
  · have hfea' : ¬ (t.demandTask w hcpus hmemory).isFea = true := hfea
    rw [if_neg hfea, if_neg hfea', standardSlots_standalone hcpus hmemory halone]

end Standalone

end SlurmScheduler.Demand
