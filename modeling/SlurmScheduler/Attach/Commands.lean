import SlurmScheduler.Cleanup.RemotePaths
import SlurmScheduler.Shell.Lines
import SlurmScheduler.Slurm.Text

namespace SlurmScheduler.Attach

open Shell Slurm.Text
open Cleanup (joinPath)

structure Task where
  id : ℕ
  name : Text := []
  command : Text := []
  schedulingProfile : Text := []
  cpus : ℤ
  memoryMb : ℤ
  gpus : ℤ := 0
  gpuModel : Text := []
  nodeName : Text := []
  nodeNamePolicy : Text := []
  exclusiveNode : ℤ := 0
  sameNodeAsTaskId : ℤ := 0

structure Allocation where
  slurmJobId : Text
  totalCpus : ℤ := 0
  nodeName : Text := []
  gpuModel : Text := []

/-- The second of a start, with its date at the scheduler -/
structure Stamp where
  seconds : ℕ
  year : ℕ
  month : ℕ
  day : ℕ

def number (n : ℤ) : Text := (toString n).toList

def twoDigits (n : ℕ) : Text := if n < 10 then '0' :: number n else number n

/-- `time.strftime("%Y-%m-%d", …)` -/
def Stamp.date (stamp : Stamp) : Text :=
  number stamp.year ++ '-' :: twoDigits stamp.month ++ '-' :: twoDigits stamp.day

section Policies

-- `str.lower`
variable (lower : Text → Text)

/-- `normalize_scheduling_profile(…) == SchedulingProfile.FEA_BURSTY.value` -/
def isFeaBursty (task : Task) : Bool :=
  lower (stripChars task.schedulingProfile) == "fea_bursty".toList

def isStrict (task : Task) : Bool :=
  let raw := lower (stripChars task.nodeNamePolicy)
  !(raw == [] || raw == "preferred".toList)

def normalizeGpuModel (model : Text) : Text :=
  let raw := (lower (stripChars model)).filter fun c ↦
    ('a' ≤ c && c ≤ 'z') || ('0' ≤ c && c ≤ '9')
  let has (part : String) : Bool := raw.tails.any (part.toList.isPrefixOf ·)
  if raw = [] then []
  else if has "6000" && has "ada" then "a6000ada".toList
  else if has "a6000" then "a6000".toList
  else if has "3090" then "rtx3090".toList
  else if raw == "a10".toList || raw == "rtxa10".toList || raw == "nvidiaa10".toList then
    "a10".toList
  else raw

def gpuGresValue (model : Text) (count : ℤ) : Text :=
  if count ≤ 0 then []
  else
    let normalized := normalizeGpuModel lower model
    if normalized ≠ [] then "gpu:".toList ++ normalized ++ ':' :: number count
    else "gpu:".toList ++ number count

def taskIsVllmService (task : Task) : Bool :=
  let contains (part : String) (text : Text) : Bool := text.tails.any (part.toList.isPrefixOf ·)
  let name := lower task.name
  if task.exclusiveNode != 0 || task.gpus ≤ 0 then false
  else contains "vllm-service" name ||
    (contains "vllm" name && contains "service_duration_seconds" (lower task.command))

def taskAttachUsesOverlap (task : Task) : Bool :=
  (decide (0 < task.sameNodeAsTaskId) && task.gpus == 0 && decide (task.cpus ≤ 4)) ||
    taskIsVllmService lower task

def srunAttachStepCpus (task : Task) (allocation : Allocation) : ℤ :=
  if isFeaBursty lower task then
    if allocation.totalCpus ≠ 0 then allocation.totalCpus else task.cpus
  else task.cpus

end Policies

def remoteExecutionPath (path : Text) : Text :=
  let value := stripChars (if path = [] then ['.'] else path)
  let value := if value = [] then ['.'] else value
  if value.head? = some '/' then value
  else if value = ['~'] then "$HOME".toList
  else if "~/".toList.isPrefixOf value then "$HOME/".toList ++ value.drop 2
  else "$HOME/".toList ++ value

def shellExpandablePath (path : Text) : Text :=
  if path = "$HOME".toList then "\"$HOME\"".toList
  else if "$HOME/".toList.isPrefixOf path then "\"$HOME\"/".toList ++ quote (path.drop 6)
  else quote path

def workspaceRunsDir (workspace : Text) (stamp : Stamp) : Text :=
  joinPath (joinPath workspace "runs".toList) stamp.date

def remoteDir (workspace : Text) (taskId : ℕ) (stamp : Stamp) : Text :=
  joinPath (workspaceRunsDir workspace stamp)
    ("task-".toList ++ number taskId ++ '-' :: number stamp.seconds)

/-- An argument of a line: a text of the program and one that is quoted after it -/
structure Argument where
  fixed : Text
  value : Option Text := none

def Argument.text (a : Argument) : Text := a.fixed ++ (a.value.map quote).getD []

def Argument.given (a : Argument) : Text := a.fixed ++ a.value.getD []

/-- The arguments of `srun` before the script, unless the nodes contradict each other -/
def srunArguments (lower : Text → Text) (task : Task) (allocation : Allocation) :
    Option (List Argument) :=
  let first : List Argument :=
    [⟨"srun".toList, none⟩, ⟨"--jobid=".toList, allocation.slurmJobId⟩, ⟨"--nodes=1".toList, none⟩,
      ⟨"--ntasks=1".toList, none⟩,
      ⟨"--cpus-per-task=".toList ++ number (srunAttachStepCpus lower task allocation), none⟩]
  let strictNode := stripChars task.nodeName
  let strict := isStrict lower task
  if strict && (strictNode == [] || stripChars allocation.nodeName != strictNode) then none
  else
    let nodelist : List Argument := if strict then [⟨"--nodelist=".toList, strictNode⟩] else []
    let memory : List Argument :=
      if isFeaBursty lower task then []
      else [⟨"--mem=".toList ++ number task.memoryMb ++ ['M'], none⟩]
    let gres := gpuGresValue lower
      (if allocation.gpuModel ≠ [] then allocation.gpuModel else task.gpuModel) task.gpus
    let gpus : List Argument := if gres ≠ [] then [⟨"--gres=".toList, gres⟩] else []
    let sharing : List Argument :=
      if isFeaBursty lower task then [⟨"--overlap".toList, none⟩, ⟨"--cpu-bind=none".toList, none⟩]
      else if taskAttachUsesOverlap lower task then [⟨"--overlap".toList, none⟩]
      else [⟨"--exact".toList, none⟩, ⟨"--exclusive".toList, none⟩]
    some (first ++ nodelist ++ memory ++ gpus ++ sharing ++ [⟨"bash".toList, none⟩])

def buildSrunAttachCommand (lower : Text → Text) (task : Task) (allocation : Allocation)
    (scriptPath stdoutPath stderrPath exitCodePath : Text) : Option Text := do
  let arguments ← srunArguments lower task allocation
  let srunCommand := [' '].intercalate
    (arguments.map Argument.text ++ [shellExpandablePath scriptPath])
  return srunCommand ++ " > ".toList ++ quote stdoutPath ++ " 2> ".toList ++ quote stderrPath ++
    "; echo $? > ".toList ++ quote exitCodePath

def backgroundWrapperCommand (wrapper wrapperPath : Text) : Text :=
  "nohup setsid bash -lc ".toList ++ quote wrapper ++ " > ".toList ++ quote wrapperPath ++
    " 2>&1 & echo $!".toList

structure Paths where
  dir : Text
  script : Text
  stdout : Text
  stderr : Text
  exitCode : Text
  wrapper : Text

def attemptPaths (workspace : Text) (taskId : ℕ) (stamp : Stamp) : Paths :=
  let dir := remoteDir workspace taskId stamp
  { dir, script := joinPath dir "task.sh".toList, stdout := joinPath dir "stdout.log".toList
    stderr := joinPath dir "stderr.log".toList, exitCode := joinPath dir "exit_code".toList
    wrapper := joinPath dir "wrapper.log".toList }

/-- The two lines of `attach_task`, with the line of the wrapper -/
structure Lines where
  mkdir : Text
  start : Text
  background : Text
  wrapper : Text

def attachTask (lower : Text → Text) (workspace : Text) (task : Task) (allocation : Allocation)
    (stamp : Stamp) : Option Lines := do
  let paths := attemptPaths workspace task.id stamp
  let wrapper ← buildSrunAttachCommand lower task allocation (remoteExecutionPath paths.script)
    paths.stdout paths.stderr paths.exitCode
  let background := backgroundWrapperCommand wrapper paths.wrapper
  return {
    mkdir := "mkdir -p ".toList ++ quote paths.dir
    start := "chmod +x ".toList ++ quote paths.script ++ " && bash -lc ".toList ++
      quote background
    background, wrapper }

theorem scan_fixed {text : Text} (h : text.all bare = true) (value : Text) :
    scan .plain (text ++ quote value) = some (.plain, (text ++ value).map .char) := by
  rw [scan_append, scan_bare h, Option.bind_some, scan_quote, Option.map_some, List.map_append]

theorem mem_number {n : ℤ} {c : Char} (hc : c ∈ number n) : c.isDigit = true ∨ c = '-' := by
  have hnat : ∀ k : ℕ, c ∈ (toString k).toList → c.isDigit = true := by
    intro k hc
    rw [Nat.toString_eq_ofList_toDigits, String.toList_ofList] at hc
    exact Nat.isDigit_of_mem_toDigits (by decide) (by decide) hc
  cases n with
  | ofNat k => exact .inl (hnat k hc)
  | negSucc k =>
    have htext : number (Int.negSucc k) = '-' :: (toString (k + 1)).toList := by
      rw [number]
      exact String.toList_append ..
    rw [htext] at hc
    obtain rfl | hc := List.mem_cons.mp hc
    · exact .inr rfl
    · exact .inl (hnat (k + 1) hc)

theorem bare_number (n : ℤ) : (number n).all bare = true := by
  rw [List.all_eq_true]
  intro c hc
  obtain hdigit | rfl := mem_number hc
  · rw [bare, Char.isAlphanum, hdigit]
    simp
  · decide

end SlurmScheduler.Attach
