import SlurmScheduler.Packed.Coverage

namespace SlurmScheduler.Packed

/-- The numbers that `build_packed_srun_script` writes into the program -/
structure Script where
  simStart : ℤ
  simCount : ℤ
  cpusPerSim : ℤ
  initialLimit : ℤ
  maxLimit : ℤ
  allocatedCpus : ℤ
  memPerSimGb : ℚ
  loadTarget : ℚ
  rampInterval : ℤ

def orElse {α : Type} [Zero α] [DecidableEq α] (a b : α) : α := if a = 0 then b else a

namespace Job

variable (job : Job)

def simCount : ℤ := max 1 (orElse job.simulationCount (orElse job.simulationsPerJob 1))

def cpusPerSim : ℤ := max 1 (orElse job.cpusPerSimulation 1)

def initialLimit : ℤ :=
  max 1 (min job.simCount
    (orElse job.initialWorkers (orElse (orElse job.cpus 1 / job.cpusPerSim) 1)))

def maxLimit : ℤ := max job.initialLimit (min job.simCount (orElse job.maxWorkersPerJob job.simCount))

def script : Script where
  simStart := max 1 (orElse job.simulationStart 1)
  simCount := job.simCount
  cpusPerSim := job.cpusPerSim
  initialLimit := job.initialLimit
  maxLimit := job.maxLimit
  allocatedCpus := max job.cpusPerSim (orElse job.cpus (job.initialLimit * job.cpusPerSim))
  memPerSimGb := orElse job.memPerSimulationGb 1
  loadTarget := orElse job.loadTarget (3 / 4)
  rampInterval := max 60 (orElse job.rampIntervalSeconds 900)

end Job

inductive Line
  | started (simId running limit : ℤ)
  | finished (simId rc : ℤ)
  | increased (limit : ℤ) (load5 freeMem : ℚ) (young : ℕ)
  | reduced (limit : ℤ) (load5 freeMem : ℚ)

structure Worker where
  simId : ℤ
  started : ℚ

structure Runner where
  pending : List ℤ
  running : List Worker
  limit : ℤ
  lastRamp : ℚ
  printed : List Line

/-- What one pass of `while pending or running` is told from outside -/
structure Readings where
  /-- The log of a simulation is opened and its process made. -/
  launches : ℤ → Bool
  /-- `time.time()` when a simulation is launched -/
  clock : ℤ → ℚ
  /-- `proc.poll()` -/
  poll : ℤ → Option ℤ
  /-- `time.time()` of `maybe_ramp` -/
  now : ℚ
  load5 : ℚ
  /-- `mem_available_gb()` -/
  freeMem : ℚ

inductive Exit
  /-- The loop is over. -/
  | completed (r : Runner)
  /-- `raise SystemExit(rc)` -/
  | failed (simId rc : ℤ) (r : Runner)
  /-- `launch` raises. -/
  | raised (simId : ℤ) (r : Runner)

/-- The exit status, of which a process keeps one byte -/
def Exit.status : Exit → ℤ
  | .completed _ => 0
  | .failed _ rc _ => rc % 256
  | .raised _ _ => 1

def Exit.runner : Exit → Runner
  | .completed r => r
  | .failed _ _ r => r
  | .raised _ r => r

namespace Readings

variable (p : Readings)

def launch (simId : ℤ) (r : Runner) : Runner :=
  { r with
    running := r.running ++ [⟨simId, p.clock simId⟩]
    printed := r.printed ++ [.started simId (r.running.length + 1) r.limit] }

/-- `while pending and len(running) < limit` -/
def launchPending : List ℤ → Runner → Except Exit Runner
  | [], r => .ok { r with pending := [] }
  | simId :: rest, r =>
      if (r.running.length : ℤ) < r.limit then
        if p.launches simId then launchPending rest (p.launch simId r)
        else .error (.raised simId { r with pending := rest })
      else .ok { r with pending := simId :: rest }

/-- `for sim_id, proc, log, started in running`, which keeps those that are `still` running -/
def pollRunning (r : Runner) : List Worker → List Worker → List Line → Except Exit Runner
  | [], still, printed => .ok { r with running := still, printed := printed }
  | w :: rest, still, printed =>
      match p.poll w.simId with
      | none => pollRunning r rest (still ++ [w]) printed
      | some rc =>
          let printed := printed ++ [.finished w.simId rc]
          if rc = 0 then pollRunning r rest still printed
          else .error (.failed w.simId rc { r with printed := printed })

end Readings

namespace Script

variable (s : Script) (p : Readings)

def young (r : Runner) : ℕ := (r.running.filter fun w ↦ p.now - w.started < s.rampInterval).length

def cpuHeadroom (r : Runner) : ℚ :=
  (s.allocatedCpus * s.loadTarget - (p.load5 + s.young p r * s.cpusPerSim)) / max 1 (s.cpusPerSim : ℚ)

def memHeadroom (r : Runner) : ℚ :=
  (p.freeMem - s.young p r * s.memPerSimGb * (5 / 4) - s.memPerSimGb * (5 / 4)) /
    max (1 / 10) (s.memPerSimGb * (5 / 4))

def rampStep (r : Runner) : ℤ :=
  truncated (min (min (s.cpuHeadroom p r) (s.memHeadroom p r)) (max 1 r.limit : ℤ))

def overloaded : Bool :=
  s.allocatedCpus * max 1 s.loadTarget * (13 / 10) < p.load5 || p.freeMem < s.memPerSimGb

def maybeRamp (r : Runner) : Runner :=
  if p.now - r.lastRamp < 60 then r
  else
    let r := { r with lastRamp := p.now }
    let step := s.rampStep p r
    if 0 < step ∧ r.limit < s.maxLimit then
      let limit := min s.maxLimit (r.limit + step)
      { r with
        limit := limit
        printed := r.printed ++ [.increased limit p.load5 p.freeMem (s.young p r)] }
    else if 1 < r.limit ∧ s.overloaded p = true then
      let limit := max 1 (r.limit - 1)
      { r with limit := limit, printed := r.printed ++ [.reduced limit p.load5 p.freeMem] }
    else r

def pass (r : Runner) : Except Exit Runner :=
  if r.pending = [] ∧ r.running.isEmpty = true then .error (.completed r)
  else do
    let r ← p.launchPending r.pending r
    let r ← p.pollRunning r r.running [] r.printed
    return s.maybeRamp p r

def start (now : ℚ) : Runner where
  pending := pyRange s.simStart (s.simStart + s.simCount)
  running := []
  limit := s.initialLimit
  lastRamp := now
  printed := []

def run (now : ℚ) (readings : ℕ → Readings) : ℕ → Except Exit Runner
  | 0 => .ok (s.start now)
  | n + 1 => do
      let r ← run now readings n
      s.pass (readings n) r

end Script

end SlurmScheduler.Packed
