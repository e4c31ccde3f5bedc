import SlurmScheduler.Dispatch.Allocations
import SlurmScheduler.Slurm.Text

namespace SlurmScheduler.Slurm

open Relational Text
open Dispatch (JobStatus JobStateInfo lookup containsText)

inductive Command
  /-- `squeue -h -u "$USER" -o "%i|%T|%R|%N|%P"` -/
  | squeue
  /-- `sacct -n -X -o JobID,State -j …` -/
  | sacct (jobIds : List String)
  /-- `scontrol show job … -o` -/
  | scontrol (jobId : String)
  deriving DecidableEq

structure CommandResult where
  exitCode : ℤ := 0
  stdout : String := ""
  stderr : String := ""

structure Reply where
  command : Command
  result : CommandResult

/-- A session: what it has been told, and what it will be told or how it will raise. -/
structure Session where
  raises : Option String := none
  answer : List Reply → Command → Except String CommandResult
  /-- the caller does not wait for the end -/
  late : Bool := false
  log : List Reply := []

instance : Statement Session Reply := ⟨fun r s ↦ { s with log := s.log ++ [r] }⟩

abbrev Shell (α : Type) : Type := Tx Session Reply String α

open Tx (fail read write)

def openSession : Shell Unit := do
  match ← read (·.raises) with
  | some e => fail e
  | none => pure ()

def run (command : Command) : Shell CommandResult := do
  match ← read fun s ↦ s.answer s.log command with
  | .error e => fail e
  | .ok result => do
      write ⟨command, result⟩
      pure result

def mapSlurmState (state : String) : JobStatus :=
  if ["R", "RUNNING", "CF", "CONFIGURING", "CG", "COMPLETING"].contains state then .running
  else if ["PD", "PENDING"].contains state then .submitted
  else if ["CD", "COMPLETED"].contains state then .completed
  else if ["CA", "CANCELLED"].contains state then .cancelled
  else if ["F", "FAILED", "TO", "TIMEOUT", "NF", "NODE_FAIL", "OOM", "OUT_OF_MEMORY"].contains
      state then .failed
  else .submitted

structure SqueueRow where
  state : String
  reason : String := ""
  nodeName : String := ""
  partition : String := ""
  deriving DecidableEq

def squeueLine (line : List Char) : Option (String × SqueueRow) :=
  let field (part : List Char) : String := String.ofList (stripChars part)
  match (stripChars line).splitOn '|' with
  | jobId :: state :: rest =>
      if field jobId == "" then none else
      let nodeName := field (rest.getD 1 [])
      some (field jobId,
        { state := field state
          reason := field (rest.getD 0 [])
          nodeName := if ["(None)", "N/A", "None"].contains nodeName then "" else nodeName
          partition := field (rest.getD 2 []) })
  | _ => none

/-- `parse_squeue_table`: the last line of a job is its entry. -/
def parseSqueueTable (output : String) : List (String × SqueueRow) :=
  ((splitLines output).filterMap squeueLine).reverse

def sacctLine (line : List Char) : Option (String × String) :=
  match words line with
  | jobId :: state :: _ =>
      if jobId.contains '.' then none else some (String.ofList jobId, String.ofList state)
  | _ => none

def parseSacctStates (output : String) : List (String × String) :=
  ((splitLines output).filterMap sacctLine).reverse

/-- What the code takes from Python's tables of characters. -/
structure Python where
  isWord : Char → Bool
  lower : String → String

variable (py : Python)

/-- `re.search(r"\bJobState=(\S+)", …)` -/
def jobState (output : String) : Option String :=
  (searchAfter py.isWord "JobState=".toList false output.toList).map String.ofList

inductive Report
  | row (r : SqueueRow)
  | word (state : String)
  /-- `scontrol` does not know the job. -/
  | denied
  deriving DecidableEq

namespace Report

def state? : Report → Option String
  | row r => some r.state
  | word state => some state
  | denied => none

def info : Report → JobStateInfo
  | row r =>
      { status := mapSlurmState r.state
        pendingReason := if ["PD", "PENDING"].contains r.state then r.reason else ""
        nodeName := r.nodeName
        partition := r.partition }
  | word state => { status := mapSlurmState state }
  | denied => { status := .submitted, missing := true }

end Report

def confirmation (result : CommandResult) : Option Report :=
  if result.exitCode == 0 then (jobState py result.stdout).map .word
  else if containsText "invalid job id" (py.lower result.stderr) then some .denied
  else none

abbrev Reports : Type := List (String × Report)

def Reports.lacks (out : Reports) (jobId : String) : Bool := (lookup jobId out).isNone

/-- A chunk of the jobs that `squeue` has not listed. -/
def confirmBySacct (out : Reports) (chunk : List String) : Shell Reports := do
  let sacct ← run (.sacct chunk)
  if sacct.exitCode != 0 then pure out else
  let states := parseSacctStates sacct.stdout
  pure ((chunk.filterMap fun jobId ↦
    (lookup jobId states).map fun state ↦ (jobId, Report.word state)) ++ out)

def confirmByScontrol (out : Reports) (jobId : String) : Shell Reports := do
  if !out.lacks jobId then pure out else
  let probe ← run (.scontrol jobId)
  match confirmation py probe with
  | some report => pure ((jobId, report) :: out)
  | none => pure out

def jobIds (slurmJobIds : List String) : List String := (slurmJobIds.map strip).filter (· != "")

/-- `job_states` up to the default of the jobs that nothing has reported. -/
def reports (ids : List String) : Shell Reports := do
  openSession
  let result ← run .squeue
  let table := if result.exitCode == 0 then parseSqueueTable result.stdout else []
  let out : Reports := ids.filterMap fun jobId ↦
    (lookup jobId table).map fun row ↦ (jobId, Report.row row)
  let out ← Tx.fold (slices 100 (ids.filter out.lacks)) out confirmBySacct
  Tx.fold ids out (confirmByScontrol py)

def jobStates (slurmJobIds : List String) : Shell (List (String × JobStateInfo)) := do
  let ids := jobIds slurmJobIds
  if ids.isEmpty then pure [] else
  let out ← reports py ids
  pure (ids.map fun jobId ↦ (jobId, ((lookup jobId out).map Report.info).getD
    { status := .submitted }))

end SlurmScheduler.Slurm
