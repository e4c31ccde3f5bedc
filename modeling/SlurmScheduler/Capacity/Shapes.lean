import SlurmScheduler.Capacity.Spread
import SlurmScheduler.Dispatch.Schema
import Mathlib.Data.Rat.Floor

namespace SlurmScheduler.Capacity

open Relational
open Dispatch (Allocation liveStates)

structure PestatNode where
  hostname : String
  partition : String := ""
  state : String := "idle"
  cpuUsed : ℤ := 0
  cpuTotal : ℤ := 0
  cpuLoad : ℚ := 0
  memoryMb : ℤ := 0
  freeMemoryMb : ℤ := 0

namespace PestatNode

variable (node : PestatNode)

def schedFreeCpus : ℤ := max 0 (node.cpuTotal - node.cpuUsed)

def loadFreeCpus : ℤ := max 0 (node.cpuTotal - ⌈node.cpuLoad⌉)

def effectiveFreeCpus : ℤ := min node.schedFreeCpus node.loadFreeCpus

end PestatNode

/-- A row of `node_inventory` with its GPU columns. -/
structure NodeInventory extends InventoryRow where
  gpuModel : String := ""
  gpuUsedCount : ℤ := 0

structure ShapeRequest where
  resourcePool : String := "cpu"
  gpuModel : String := ""
  gpus : ℤ := 0
  exclusiveNode : Bool := false
  requestedCpus : ℤ
  requestedMemoryMb : ℤ
  requireFeaEligibleNode : Bool := false
  cpuOnlyNodes : Bool := false
  aedtPoolMaxSessions : ℤ := 0
  requestedNodeName : String := ""
  requestedPartition : String := "auto"

structure ShapeSettings where
  allocationCpus : ℤ := 64
  allocationPartition : String := "auto"
  gpuPrewarmPartition : String := "auto"
  gpuPrewarmGpusPerAllocation : ℤ := 0
  gpuPrewarmMinGpusPerAllocation : ℤ := 1
  cpuPoolAllowGpuPartitions : Bool := true
  cpuPoolPartitionSpread : Bool := true
  gpuCpuReserve : ℕ := 4

structure ShapeQueries where
  strip : String → String := id
  lower : String → String := id
  isSingleJobPartition : String → Bool := fun _ ↦ false
  partitionSpecAllows : String → String → Bool := fun spec partition ↦ spec == partition
  normalizeGpuModel : String → String := id
  gpuModelCandidates : String → List String := fun model ↦ if model == "" then [] else [model]
  /-- `CPU_PROFILES_BY_PARTITION` -/
  profileScore : String → ℤ := fun _ ↦ 0
  feaAllocationAcceptsTask : String → Bool := fun _ ↦ true
  partitionHasLiveAllocation : String → Bool := fun _ ↦ false
  occupiedSingleJobNodes : String → List String := fun _ ↦ []
  reservedAllocationNodes : List String := []
  allocationNodeInBackoff : String → String → Bool := fun _ _ ↦ false
  preferredFullGpuPartitions : List String := []
  choosePartition : String := ""

structure Shape where
  partition : String
  nodeName : String
  cpus : ℤ
  memoryMb : ℤ
  gpus : ℤ
  gpuModel : String
  exclusiveNode : Bool
  deriving DecidableEq

/-- A node for which the request has a shape, with what `candidates.sort` reads. -/
structure Candidate where
  node : PestatNode
  cpus : ℤ
  memoryMb : ℤ
  cpuScore : ℤ
  isGpuPartition : Bool

inductive ShapeError
  /-- `memory_mb` is read before a session has set it. -/
  | unboundMemory
  deriving DecidableEq

/-- `list_allocations_with_live(limit=0, live_limit=10000)` -/
def ledgerRows (allocations : Table Allocation) : List Allocation :=
  ((allocations.select (liveStates.contains ·.state)).reverse).take 10000

def pinned (column : Allocation → ℕ) (rows : List Allocation) (nodeName : String) : ℕ :=
  ((rows.filter fun a ↦ a.nodeName == nodeName && nodeName != "").map column).sum

def pinnedCpus : List Allocation → String → ℕ := pinned (·.totalCpus)

def pinnedMemoryMb : List Allocation → String → ℕ := pinned (·.totalMemoryMb)

/-- What a choice reads; the names of the nodes are keys of their tables. -/
structure ShapeInputs where
  settings : ShapeSettings := {}
  queries : ShapeQueries := {}
  inventory : List NodeInventory := []
  pestat : List PestatNode := []
  allocations : Table Allocation := Table.empty
  request : ShapeRequest
  inventoryKeys : (inventory.map (·.nodeName)).Nodup := by decide
  pestatKeys : (pestat.map (·.hostname)).Nodup := by decide

namespace ShapeInputs

variable (inp : ShapeInputs)

def requestedNodeName : String := inp.queries.strip inp.request.requestedNodeName

def requestedPartition : String :=
  let stripped := inp.queries.strip inp.request.requestedPartition
  if stripped == "" then "auto" else stripped

def wantsGpu : Bool :=
  "gpu:".toList.isPrefixOf inp.request.resourcePool.toList || 0 < inp.request.gpus

def wantsSharedCpuPool : Bool := !inp.wantsGpu && !inp.request.exclusiveNode

def sessionCpus : ℤ := inp.request.requestedCpus

def sessionMemoryMb : ℤ := inp.request.requestedMemoryMb

def sessionLimit : ℤ := max 0 inp.request.aedtPoolMaxSessions

/-- `if aedt_session_limit: session_count = min(session_count, aedt_session_limit)` -/
def limited (sessions : ℤ) : ℤ :=
  if inp.sessionLimit = 0 then sessions else min sessions inp.sessionLimit

def dynamicWarmGpuCount : Bool :=
  inp.wantsGpu && "gpu:".toList.isPrefixOf inp.request.resourcePool.toList &&
    inp.request.gpus ≤ 0

def targetGpuCount : ℤ :=
  max 1 (if inp.request.gpus = 0 then inp.settings.gpuPrewarmGpusPerAllocation
    else inp.request.gpus)

def minimumGpuCount : ℤ :=
  if inp.dynamicWarmGpuCount then max 1 inp.settings.gpuPrewarmMinGpusPerAllocation
  else max 1 (if inp.request.gpus = 0 then 1 else inp.request.gpus)

def targetModels : List String := inp.queries.gpuModelCandidates inp.request.gpuModel

def targetPartition : String :=
  if inp.requestedPartition != "auto" then inp.requestedPartition
  else if inp.wantsGpu then inp.settings.gpuPrewarmPartition
  else inp.settings.allocationPartition

def preferredFullGpuPartitions : List String :=
  if inp.wantsGpu && inp.targetPartition == "auto" && inp.requestedNodeName == "" then
    inp.queries.preferredFullGpuPartitions
  else []

def minimumCpusForGpuAllocation (gpuModel : String) (gpus : ℤ) : ℤ :=
  if inp.queries.normalizeGpuModel gpuModel == "a6000" then max 0 (gpus * 4) else 0

def gpuCpuFloor (gpuModel : String) (gpus : ℤ) : ℤ :=
  if inp.dynamicWarmGpuCount && 0 < inp.request.requestedCpus then 0
  else if inp.wantsGpu then inp.minimumCpusForGpuAllocation gpuModel gpus
  else 0

def nodes : List PestatNode :=
  if inp.pestat.isEmpty then
    inp.inventory.map fun row ↦
      { hostname := row.nodeName, partition := row.partition, state := row.state
        cpuTotal := row.cpus, memoryMb := row.memoryMb, freeMemoryMb := row.memoryMb }
  else inp.pestat

section Node

variable (node : PestatNode)

/-- `inventory_by_node.get(node.hostname, {})` -/
def inventoryOf : NodeInventory := (inp.inventory.find? (·.nodeName == node.hostname)).getD {}

def pendingRows : List Allocation := (ledgerRows inp.allocations).filter (·.state == .pending)

def freeCpus : ℤ :=
  min (max 0 ((if inp.wantsGpu then node.schedFreeCpus else node.effectiveFreeCpus) -
      pinnedCpus inp.pendingRows node.hostname))
    (max 0 (node.cpuTotal - pinnedCpus (ledgerRows inp.allocations) node.hostname))

def freeMemoryMb : ℤ :=
  min (max 0 (max 0 node.freeMemoryMb - pinnedMemoryMb inp.pendingRows node.hostname))
    (max 0 (node.memoryMb - pinnedMemoryMb (ledgerRows inp.allocations) node.hostname))

def gpuModelOf : String := inp.queries.normalizeGpuModel (inp.inventoryOf node).gpuModel

def gpuFree : ℤ := max 0 ((inp.inventoryOf node).gpuCount - (inp.inventoryOf node).gpuUsedCount)

def isGpuPartition : Bool :=
  "gpu".toList.isPrefixOf node.partition.toList || 0 < (inp.inventoryOf node).gpuCount

def pinsToNode : Bool :=
  (inp.requestedNodeName != "" && inp.wantsGpu) || inp.dynamicWarmGpuCount ||
    (inp.wantsSharedCpuPool && inp.isGpuPartition node)

def heldForSingleJobs : Bool :=
  inp.queries.isSingleJobPartition node.partition &&
    ((inp.request.exclusiveNode && !inp.wantsGpu &&
        inp.queries.partitionHasLiveAllocation node.partition) ||
      (!inp.wantsSharedCpuPool &&
        (inp.queries.occupiedSingleJobNodes node.partition).contains node.hostname))

def suitsGpus : Bool :=
  if inp.wantsGpu then
    (inp.targetModels.isEmpty || inp.targetModels.contains (inp.gpuModelOf node)) &&
      0 < (inp.inventoryOf node).gpuCount && inp.minimumGpuCount ≤ inp.gpuFree node
  else
    !(0 < (inp.inventoryOf node).gpuCount && (inp.request.cpuOnlyNodes ||
      (inp.targetPartition == "auto" && !inp.settings.cpuPoolAllowGpuPartitions)))

def considers : Bool :=
  (inp.requestedNodeName == "" || node.hostname == inp.requestedNodeName) &&
  ["idle", "mix"].contains node.state && 0 < inp.freeCpus node &&
  (!inp.request.requireFeaEligibleNode || inp.queries.feaAllocationAcceptsTask node.hostname) &&
  (inp.preferredFullGpuPartitions.isEmpty ||
    inp.preferredFullGpuPartitions.contains node.partition) &&
  !(inp.request.exclusiveNode && (node.state != "idle" || 0 < node.cpuUsed)) &&
  !inp.heldForSingleJobs node &&
  !(inp.pinsToNode node && inp.queries.reservedAllocationNodes.contains node.hostname) &&
  !(inp.pinsToNode node &&
    inp.queries.allocationNodeInBackoff inp.request.resourcePool node.hostname) &&
  (inp.targetPartition == "auto" ||
    inp.queries.partitionSpecAllows inp.targetPartition node.partition) &&
  inp.suitsGpus node

def requestedGpus : ℤ := if inp.wantsGpu then min inp.targetGpuCount (inp.gpuFree node) else 0

def cpuReserve : ℕ :=
  if "gpu".toList.isPrefixOf node.partition.toList &&
      (!inp.wantsGpu || inp.requestedGpus node < inp.gpuFree node) then inp.settings.gpuCpuReserve
  else 0

def availableCpus : ℤ :=
  let available := inp.freeCpus node - inp.cpuReserve node
  if inp.wantsGpu && available ≤ 0 && 0 < inp.freeCpus node then inp.freeCpus node else available

def minimumCpus : ℤ :=
  max inp.request.requestedCpus (inp.gpuCpuFloor (inp.gpuModelOf node) (inp.requestedGpus node))

def sessionCount : ℤ :=
  let capacity := max 1 (node.cpuTotal - inp.cpuReserve node)
  let budget := min capacity (max inp.sessionCpus
    (if inp.settings.allocationCpus = 0 then capacity else inp.settings.allocationCpus))
  inp.limited (min (budget / inp.sessionCpus) (min (inp.availableCpus node / inp.sessionCpus)
    (inp.freeMemoryMb node / inp.sessionMemoryMb)))

def candidate : Except ShapeError (Option Candidate) :=
  if !inp.considers node || inp.availableCpus node ≤ 0 ||
      (inp.minimumCpus node != 0 && inp.availableCpus node < inp.minimumCpus node) then .ok none
  else if !inp.wantsSharedCpuPool then .error .unboundMemory
  else if inp.request.requestedCpus != 0 &&
      max 1 (node.cpuTotal - inp.cpuReserve node) < inp.request.requestedCpus then .ok none
  else if inp.sessionCount node ≤ 0 then .ok none
  else .ok <| some
    { node
      cpus := max 1 (min (inp.sessionCount node * inp.sessionCpus) (inp.availableCpus node))
      memoryMb := inp.sessionCount node * inp.sessionMemoryMb
      cpuScore := if (inp.inventoryOf node).cpuScore = 0 then
        inp.queries.profileScore node.partition else (inp.inventoryOf node).cpuScore
      isGpuPartition := inp.isGpuPartition node }

end Node

def candidates : Except ShapeError (List Candidate) :=
  (inp.nodes.mapM inp.candidate).map fun found ↦ found.filterMap id

/-- `fit_count_by_partition` -/
def fitCount (found : List Candidate) (partition : String) : ℕ :=
  found.countP (·.node.partition == partition)

/-- The key of `candidates.sort` for a shared CPU pool, in reverse. -/
def rank (found : List Candidate) (c : Candidate) : (Bool ×ₗ ℤ ×ₗ ℤ ×ₗ ℤ ×ₗ ℤ)ᵒᵈ :=
  OrderDual.toDual (toLex (!c.isGpuPartition, toLex
    (if c.isGpuPartition then (fitCount found c.node.partition : ℤ) else c.cpuScore, toLex
      (c.node.effectiveFreeCpus, toLex (c.cpus, c.memoryMb)))))

section Chosen

variable (c : Candidate)

def spreadSettings : SpreadSettings where
  lower := inp.queries.lower
  isSingleJobPartition := inp.queries.isSingleJobPartition
  cpuPoolAllowGpuPartitions := inp.settings.cpuPoolAllowGpuPartitions
  gpuCpuReserve := inp.settings.gpuCpuReserve

def spreadFor : Spread :=
  cpuPoolSpread inp.spreadSettings (inp.inventory.map (·.toInventoryRow)) c.cpus c.memoryMb
    inp.request.requestedCpus

def spreads : Bool :=
  inp.requestedNodeName == "" && inp.wantsSharedCpuPool && c.isGpuPartition &&
    inp.settings.cpuPoolPartitionSpread && inp.targetPartition == "auto" &&
    !inp.request.requireFeaEligibleNode && 1 < (inp.spreadFor c).partitions.length

def nodeNameFor : String :=
  if inp.requestedNodeName == "" && !inp.wantsGpu &&
      !inp.queries.isSingleJobPartition c.node.partition && !c.isGpuPartition &&
      !inp.request.requireFeaEligibleNode then ""
  else c.node.hostname

def shapeFor : Shape :=
  if inp.spreads c then
    { partition := ",".intercalate (inp.spreadFor c).partitions
      nodeName := ""
      cpus := (inp.spreadFor c).cpus
      memoryMb := (inp.spreadFor c).memoryMb
      gpus := 0
      gpuModel := ""
      exclusiveNode := inp.request.exclusiveNode }
  else
    { partition := c.node.partition
      nodeName := inp.nodeNameFor c
      cpus := c.cpus
      memoryMb := c.memoryMb
      gpus := if inp.wantsGpu then min inp.targetGpuCount (inp.gpuFree c.node) else 0
      gpuModel := if inp.wantsGpu then inp.gpuModelOf c.node else ""
      exclusiveNode := inp.request.exclusiveNode }

end Chosen

def fallbackPartition : String :=
  if inp.targetPartition != "auto" then inp.targetPartition
  else if ",".intercalate inp.preferredFullGpuPartitions != "" then
    ",".intercalate inp.preferredFullGpuPartitions
  else inp.queries.choosePartition

structure Fallback where
  cpuLimit : ℤ := 0
  cpuCapacity : ℤ := 0
  memoryCapacity : ℤ := 0
  canFitGpus : Bool := false

def fallbackNode (f : Fallback) (node : PestatNode) : Fallback :=
  let row := inp.inventoryOf node
  if !inp.queries.partitionSpecAllows inp.fallbackPartition node.partition then f
  else if inp.wantsGpu then
    if !inp.targetModels.isEmpty && inp.gpuModelOf node != "" &&
        !inp.targetModels.contains (inp.gpuModelOf node) then f
    else if 0 < row.gpuCount && row.gpuCount < inp.targetGpuCount then f
    else
      let reserve : ℕ := if inp.targetGpuCount < row.gpuCount then inp.settings.gpuCpuReserve else 0
      { canFitGpus := true
        cpuCapacity := max f.cpuCapacity (max 1 (node.cpuTotal - reserve))
        memoryCapacity := max f.memoryCapacity node.memoryMb
        cpuLimit := if 0 < row.gpuCount && inp.gpuFree node < inp.targetGpuCount then f.cpuLimit
          else max f.cpuLimit (max 1 (node.schedFreeCpus - reserve)) }
  else
    let reserve : ℕ := if inp.isGpuPartition node then inp.settings.gpuCpuReserve else 0
    { f with
      cpuCapacity := max f.cpuCapacity (max 1 (node.cpuTotal - reserve))
      memoryCapacity := max f.memoryCapacity node.memoryMb
      cpuLimit := max f.cpuLimit (max 1 (node.effectiveFreeCpus - reserve)) }

def fallbackOf : Fallback := inp.nodes.foldl inp.fallbackNode { canFitGpus := !inp.wantsGpu }

def fallbackModel : String := if inp.wantsGpu then inp.targetModels.headD "" else ""

def fallbackMinimumCpus : ℤ :=
  max inp.request.requestedCpus (inp.gpuCpuFloor inp.fallbackModel inp.targetGpuCount)

def fallbackSessionCount : ℤ :=
  let f := inp.fallbackOf
  let wanted := max inp.sessionCpus
    (if inp.settings.allocationCpus != 0 then inp.settings.allocationCpus
      else if f.cpuCapacity != 0 then f.cpuCapacity else inp.sessionCpus)
  let budget := if f.cpuCapacity = 0 then wanted else min wanted f.cpuCapacity
  let sessions := inp.limited (budget / inp.sessionCpus)
  if f.memoryCapacity = 0 then sessions
  else min sessions (f.memoryCapacity / inp.sessionMemoryMb)

/-- The free cores of the partition cut the request: `fallback_cpu_limit` -/
def limitApplies : Bool :=
  inp.fallbackOf.cpuLimit != 0 && !inp.wantsSharedCpuPool &&
    (inp.fallbackMinimumCpus == 0 || inp.fallbackMinimumCpus ≤ inp.fallbackOf.cpuLimit)

def waits : Bool :=
  inp.requestedNodeName == "" && inp.fallbackPartition != "" && inp.fallbackOf.canFitGpus &&
  0 < inp.fallbackSessionCount &&
  !(inp.fallbackOf.cpuCapacity != 0 && inp.fallbackMinimumCpus != 0 &&
    inp.fallbackOf.cpuCapacity < inp.fallbackMinimumCpus) &&
  !(inp.request.requestedMemoryMb != 0 && inp.fallbackOf.memoryCapacity != 0 &&
    inp.fallbackOf.memoryCapacity < inp.request.requestedMemoryMb)

def fallbackShape : Option Shape :=
  if inp.waits then
    some
      { partition := inp.fallbackPartition
        nodeName := ""
        cpus := if inp.limitApplies then
            min (inp.fallbackSessionCount * inp.sessionCpus) inp.fallbackOf.cpuLimit
          else inp.fallbackSessionCount * inp.sessionCpus
        memoryMb := inp.fallbackSessionCount * inp.sessionMemoryMb
        gpus := if inp.wantsGpu then inp.targetGpuCount else 0
        gpuModel := inp.fallbackModel
        exclusiveNode := inp.request.exclusiveNode }
  else none

/-- `choose_allocation_shape` with `aedt_pool_node_sharing` -/
def chooseAllocationShape : Except ShapeError (Option Shape) :=
  if inp.sessionCpus ≤ 0 || inp.sessionMemoryMb ≤ 0 then .ok none
  else inp.candidates.map fun found ↦
    match (sortedBy (rank found) found).head? with
    | some c => some (inp.shapeFor c)
    | none => inp.fallbackShape

end ShapeInputs

end SlurmScheduler.Capacity
