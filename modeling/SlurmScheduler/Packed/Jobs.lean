import SlurmScheduler.Capacity.Shapes
import SlurmScheduler.Relational.Rotation

namespace SlurmScheduler

namespace Capacity.PestatNode

def usable (node : PestatNode) : Bool :=
  (node.state == "idle" || node.state == "mix") && 0 < node.effectiveFreeCpus

end Capacity.PestatNode

namespace Packed

open Capacity (PestatNode)
open Relational (sortedBy)

/-- `range(start, stop)` -/
def pyRange (start stop : ℤ) : List ℤ := (List.range (stop - start).toNat).map (start + ↑·)

/-- `items[:count]`, where a negative count leaves out the last ones -/
def slice {α : Type} (items : List α) (count : ℤ) : List α :=
  if 0 ≤ count then items.take count.toNat else items.take (items.length - count.natAbs)

def truncated (x : ℚ) : ℤ := if 0 ≤ x then ⌊x⌋ else ⌈x⌉

structure AllocationPlan where
  partition : String
  nodeName : String
  workers : ℤ
  initialWorkers : ℤ
  cpusPerWorker : ℤ
  totalCpus : ℤ
  simulationStart : ℤ
  simulationCount : ℤ

/-- What `create_job` is sent in one of the packed modes -/
structure JobForm where
  partition : String := "auto"
  cpus : ℤ := 1
  nodeName : String := ""
  exclusiveNode : Bool := false
  jobName : String := "web-job"
  totalSimulations : ℤ := 1
  simulationsPerJob : ℤ := 1
  cpusPerSimulation : ℤ := 1
  memPerSimulationGb : ℚ := 1
  maxWorkersPerJob : ℤ := 32
  maxNewJobs : ℤ := 10
  oversubscribeFactor : ℚ := 3 / 2
  loadTarget : ℚ := 3 / 4
  rampIntervalSeconds : ℤ := 900

/-- A row of `jobs` with `job_mode = 'packed_srun'` -/
structure Job where
  partition : String
  cpus : ℤ
  jobName : String
  simulationsPerJob : ℤ
  cpusPerSimulation : ℤ
  simulationStart : ℤ
  simulationCount : ℤ
  nodeName : String
  exclusiveNode : Bool
  memPerSimulationGb : ℚ
  maxWorkersPerJob : ℤ
  initialWorkers : ℤ
  loadTarget : ℚ
  rampIntervalSeconds : ℤ

structure Candidate where
  node : PestatNode
  workers : ℤ
  baselineWorkers : ℤ

namespace JobForm

variable (form : JobForm)

def memPerSimMb : ℤ := max 1 (truncated (form.memPerSimulationGb * 1024))

def baselineWorkers (node : PestatNode) : ℤ :=
  node.effectiveFreeCpus / max 1 form.cpusPerSimulation

def workersByCpu (node : PestatNode) : ℤ :=
  truncated (form.baselineWorkers node * max 1 form.oversubscribeFactor)

def workersByMem (node : PestatNode) : ℤ := node.freeMemoryMb / form.memPerSimMb

def workers (node : PestatNode) : ℤ :=
  min (min (form.workersByCpu node) (form.workersByMem node)) form.maxWorkersPerJob

def candidate (node : PestatNode) : Option Candidate :=
  if !node.usable then none
  else if form.partition != "" && form.partition != "auto" && node.partition != form.partition then
    none
  else if 0 < form.workers node ∧ 0 < form.baselineWorkers node then
    some ⟨node, form.workers node, form.baselineWorkers node⟩
  else none

end JobForm

def Candidate.key (c : Candidate) : ℤ ×ₗ ℤ ×ₗ ℤ ×ₗ ℤ :=
  toLex (c.workers, toLex (c.baselineWorkers, toLex
    (c.node.effectiveFreeCpus, c.node.freeMemoryMb)))

namespace JobForm

variable (form : JobForm)

/-- `candidates[:max_allocations]`, sorted the other way round -/
def candidates (nodes : List PestatNode) : List Candidate :=
  slice (sortedBy (fun c : Candidate ↦ OrderDual.toDual c.key) (nodes.filterMap form.candidate))
    form.maxNewJobs

/-- The loop over the candidates, from `next_sim` and what is `remaining` -/
def assign : ℤ → ℤ → List Candidate → List AllocationPlan
  | _, _, [] => []
  | nextSim, remaining, c :: rest =>
      if remaining ≤ 0 then [] else
        let count := min c.workers remaining
        { partition := c.node.partition
          nodeName := c.node.hostname
          workers := count
          initialWorkers := min count c.baselineWorkers
          cpusPerWorker := form.cpusPerSimulation
          totalCpus := min count c.baselineWorkers * form.cpusPerSimulation
          simulationStart := nextSim
          simulationCount := count } :: assign (nextSim + count) (remaining - count) rest

def planDynamicAllocations (nodes : List PestatNode) : List AllocationPlan :=
  if max 0 form.totalSimulations = 0 then []
  else form.assign 1 (max 0 form.totalSimulations) (form.candidates nodes)

def perJob : ℤ := max 1 form.simulationsPerJob

def fallbackPlan (batchIndex : ℤ) : AllocationPlan :=
  let count := min form.perJob (form.totalSimulations - batchIndex * form.perJob)
  { partition := form.partition
    nodeName := ""
    workers := count
    initialWorkers := min count (max 1 count)
    cpusPerWorker := form.cpusPerSimulation
    totalCpus := count * form.cpusPerSimulation
    simulationStart := batchIndex * form.perJob + 1
    simulationCount := count }

/-- `for batch_index in range(max_new_jobs)`, with its `break` -/
def fallbackPlans : List ℤ → List AllocationPlan
  | [] => []
  | batchIndex :: rest =>
      if form.totalSimulations < batchIndex * form.perJob + 1 then []
      else form.fallbackPlan batchIndex :: fallbackPlans rest

def plans (nodes : List PestatNode) : List AllocationPlan :=
  match form.planDynamicAllocations nodes with
  | [] => form.fallbackPlans (pyRange 0 form.maxNewJobs)
  | plans => plans

/-- `{job_name}-{first}-{last}` -/
def rangeName (start count : ℤ) : String :=
  form.jobName ++ "-" ++ toString start ++ "-" ++ toString (start + count - 1)

def plannedJob (plan : AllocationPlan) : Job where
  partition := plan.partition
  cpus := plan.totalCpus
  jobName := form.rangeName plan.simulationStart plan.simulationCount
  simulationsPerJob := plan.workers
  cpusPerSimulation := plan.cpusPerWorker
  simulationStart := plan.simulationStart
  simulationCount := plan.simulationCount
  nodeName := if form.nodeName = "" then plan.nodeName else form.nodeName
  exclusiveNode := form.exclusiveNode
  memPerSimulationGb := form.memPerSimulationGb
  maxWorkersPerJob := form.maxWorkersPerJob
  initialWorkers := plan.initialWorkers
  loadTarget := form.loadTarget
  rampIntervalSeconds := form.rampIntervalSeconds

def total : ℤ := max 1 form.totalSimulations

def batchJob (batchIndex : ℤ) : Job :=
  let start := batchIndex * form.perJob + 1
  let count := min form.perJob (form.total - batchIndex * form.perJob)
  { partition := form.partition
    cpus := count * max 1 form.cpusPerSimulation
    jobName := form.rangeName start count
    simulationsPerJob := form.perJob
    cpusPerSimulation := form.cpusPerSimulation
    simulationStart := start
    simulationCount := count
    nodeName := form.nodeName
    exclusiveNode := form.exclusiveNode
    memPerSimulationGb := form.memPerSimulationGb
    maxWorkersPerJob := form.maxWorkersPerJob
    initialWorkers := min count (max 1 (form.cpus / max 1 form.cpusPerSimulation))
    loadTarget := form.loadTarget
    rampIntervalSeconds := form.rampIntervalSeconds }

/-- `create_job` with `job_mode = 'dynamic_packed_srun'` -/
def createDynamic (nodes : List PestatNode) : List Job := (form.plans nodes).map form.plannedJob

def createPacked : List Job :=
  (pyRange 0 ⌈(form.total : ℚ) / form.perJob⌉).map form.batchJob

end JobForm

/-- `update_simulation_count` of a queued job -/
def Job.updateSimulationCount (job : Job) (simulationCount : ℤ) : Job :=
  let count := max 1 simulationCount
  let cpusPerSim := max 1 (if job.cpusPerSimulation = 0 then 1 else job.cpusPerSimulation)
  let initialWorkers :=
    max 1 (min count (if job.initialWorkers = 0 then count else job.initialWorkers))
  let maxWorkers :=
    max initialWorkers (min count (if job.maxWorkersPerJob = 0 then count else job.maxWorkersPerJob))
  { job with
    simulationCount := count
    simulationsPerJob := count
    cpus := initialWorkers * cpusPerSim
    initialWorkers := initialWorkers
    maxWorkersPerJob := maxWorkers }

end Packed

end SlurmScheduler
