import SlurmScheduler.Dispatch.Writes
import SlurmScheduler.Concurrent.Solo
import SlurmScheduler.Pool.Scripts

namespace SlurmScheduler.Dispatch

open Relational Concurrent
open Pool (Time TaskStatus AllocationStatus)

structure JobStateInfo where
  status : JobStatus
  pendingReason : String := ""
  nodeName : String := ""
  partition : String := ""
  missing : Bool := false

structure TaskProbe where
  status : JobStatus
  exitCode : Option ℤ := none
  /-- the message that a failed task's result or stderr yields -/
  failureMessage : String := ""

inductive AttachOutcome
  | launched (launch : Launch)
  /-- `RemoteExecutionError` with its `result_fields` -/
  | refused (message : String) (files : Launch)
  | raised (message : String)

/-- How `submit_allocation` ends: what Slurm has done, and what the caller learns of it. -/
structure SubmissionOutcome where
  created : Option String
  reported : Submission

/-- What a capture of `lmstat` yields, or the text of the exception. -/
abbrev LicenseCapture : Type := Except String LicenseUsage

inductive Question
  | decision
  | text
  | rows
  | token
  | number
  | cancelTask (taskId : ℕ)
  | cancelJob (slurmJobId : String)
  | liveTaskSteps (slurmJobId : String)
  | jobStates (slurmJobIds : List String)
  | taskProbes (taskIds : List ℕ)
  | nodeName (slurmJobId : String)
  | attachTask (taskId : ℕ)
  | submitAllocation (allocationId : ℕ)
  | findSubmissions (allocationId : ℕ)
  | submitJob (jobId : ℕ)
  | poolJobs (accountName : String)
  | lmstat
  | poolEnv
  | allocationShape
  deriving DecidableEq

/-- A remote call that returns nothing answers with the exception that it has raised. -/
abbrev Question.Answer : Question → Type
  | decision => Bool
  | text => String
  | rows => List ℕ
  | token => String
  | number => ℕ
  | cancelTask _ => Option String
  | cancelJob _ => Option String
  | liveTaskSteps _ => Except String (List String)
  | jobStates _ => Except String (List (String × JobStateInfo))
  | taskProbes _ => Except String (List (ℕ × TaskProbe))
  | nodeName _ => Except String String
  | attachTask _ => AttachOutcome
  | submitAllocation _ => SubmissionOutcome
  | findSubmissions _ => Except String (List String)
  | submitJob _ => Except String String
  | poolJobs _ => Except String (List (String × String))
  | lmstat => LicenseCapture
  | poolEnv => Pool.Env
  | allocationShape => Allocation

inductive Lock
  /-- `_task_assignment_lock` -/
  | assignment
  /-- The one scheduler thread. -/
  | scheduler
  /-- The one thread of the pool runtime. -/
  | poolRuntime
  deriving DecidableEq

/-- The query of `POST /api/tasks/cancel`; the limit is absent when it is no number. -/
structure CancelQuery where
  nameContains : String := ""
  statuses : String := "queued,attaching,running"
  limit : Option ℤ := some 5000
  taskIds : String := ""

inductive Call
  -- the scheduler thread
  | start
  | tick
  -- threads that other calls start
  | finishBackgroundTaskAttach (task : Task) (allocation : Allocation)
  | cancelTimedOutTaskRemote (task : Task)
  | cancelTaskRemoteBestEffort (task : Task)
  | submitAccount (allocations : List Allocation)
  | refreshLicenseUsage
  -- the web application
  | createTaskRecord (columns : Task)
  | createTask (columns : Task)
  | maybeAssignSameNodeTask (taskId : ℕ)
  | cancelTask (taskId : ℕ)
  | requestCancelTask (taskId : ℕ) (expected : List TaskStatus)
  | apiCancelTask (taskId : ℕ) (expectedStatuses : String)
  | apiCancelTasks (query : CancelQuery)
  | requestCloseAllocation (allocationId : ℕ) (force allowProtected : Bool)
  | createJob
  | cancelJob (jobId : ℕ)
  -- the pool service and its runtime
  | pool (call : Pool.Call) (env : Pool.Env)
  | poolRuntime
  -- time
  | elapse (seconds : ℕ)

abbrev Action (α : Type) : Type := Proc State Write Lock Call Question Question.Answer α

open Proc (query)

abbrev askDecision : Action Bool := query Question.decision
abbrev askText : Action String := query Question.text
abbrev askRows : Action (List ℕ) := query Question.rows
abbrev askToken : Action String := query Question.token
abbrev askNumber : Action ℕ := query Question.number
abbrev cancelTaskCall (taskId : ℕ) : Action (Option String) :=
  query (Question.cancelTask taskId)
abbrev cancelCall (slurmJobId : String) : Action (Option String) :=
  query (Question.cancelJob slurmJobId)
abbrev liveAllocationTaskSteps (slurmJobId : String) : Action (Except String (List String)) :=
  query (Question.liveTaskSteps slurmJobId)
abbrev jobStates (slurmJobIds : List String) :
    Action (Except String (List (String × JobStateInfo))) :=
  query (Question.jobStates slurmJobIds)
abbrev taskProbes (taskIds : List ℕ) : Action (Except String (List (ℕ × TaskProbe))) :=
  query (Question.taskProbes taskIds)
abbrev allocationNodeName (slurmJobId : String) : Action (Except String String) :=
  query (Question.nodeName slurmJobId)
abbrev attachTaskCall (taskId : ℕ) : Action AttachOutcome :=
  query (Question.attachTask taskId)
abbrev submitAllocationCall (allocationId : ℕ) : Action SubmissionOutcome :=
  query (Question.submitAllocation allocationId)
abbrev findAllocationSubmissions (allocationId : ℕ) : Action (Except String (List String)) :=
  query (Question.findSubmissions allocationId)
abbrev submitJobCall (jobId : ℕ) : Action (Except String String) :=
  query (Question.submitJob jobId)
/-- The ids and names of an account's jobs, as `squeue` lists them. -/
abbrev squeue (accountName : String) : Action (Except String (List (String × String))) :=
  query (Question.poolJobs accountName)
abbrev lmstat : Action LicenseCapture := query Question.lmstat
abbrev askPoolEnv : Action Pool.Env := query Question.poolEnv
abbrev chooseAllocationShape : Action Allocation := query Question.allocationShape

/-- `_fan_out_by_account` of a probe: the workers only read, and a failure is an outcome. -/
def fanOutByAccount {α β : Type} (items : List (String × α)) (probe : String → α → Action β) :
    Action (List (String × α × β)) :=
  Proc.fold items [] fun outcomes item ↦ do
    let outcome ← probe item.1 item.2
    pure (outcomes ++ [(item.1, item.2, outcome)])

/-- `by_account.setdefault(account_name, []).append(row)` -/
def byAccount {α : Type} (accountName : α → String) (rows : List α) : List (String × List α) :=
  (rows.map accountName).dedup.map fun name ↦ (name, rows.filter (accountName · == name))

def sampleSite : Site where
  svc := Pool.sampleService
  accounts := ["alpha"]

def sampleAnswers : (q : Question) → q.Answer
  | .decision => true
  | .text => ""
  | .rows => []
  | .token => "token"
  | .number => 0
  | .cancelTask _ | .cancelJob _ => none
  | .liveTaskSteps _ => .ok []
  | .jobStates _ => .ok []
  | .taskProbes _ => .ok []
  | .nodeName _ => .ok ""
  | .attachTask _ => .launched {}
  | .submitAllocation _ => ⟨some "77", .created "77"⟩
  | .findSubmissions _ => .ok []
  | .submitJob _ => .ok "77"
  | .poolJobs _ => .ok []
  | .lmstat => .ok {}
  | .poolEnv => ⟨{}, 0, 0, {}⟩
  | .allocationShape => { id := 0 }

end SlurmScheduler.Dispatch
