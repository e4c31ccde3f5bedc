import SlurmScheduler.Cleanup.Workspaces

namespace SlurmScheduler.Cleanup

open Relational Concurrent
open Pool (Call Env Task)

structure Site where
  svc : Pool.Service
  /-- `aedt_pool_terminal_workspace_root` -/
  root : String
  accounts : List String

structure CommandResult where
  exitCode : ℤ
  stdoutLines : List String

inductive Question
  | cutoffs
  | now
  /-- The removal of the workspace, unless the session fails. -/
  | remove (taskId : ℕ) (path : String)
  deriving DecidableEq

abbrev Question.Answer : Question → Type
  | cutoffs => Cutoffs
  | now => Time
  | remove _ _ => Option CommandResult

inductive Thread
  /-- A worker of an executor; each cleans up one task at a time. -/
  | cleanup (worker taskId : ℕ)
  | poolCall (call : Call) (env : Env)
  | scheduler (tasks : Table Task)
  | removalOver (id : ℕ)

abbrev Step (α : Type) : Type := Proc State Write ℕ Thread Question Question.Answer α

def deletedMarker : String := "SLURM_AEDT_WORKSPACE_DELETED"

def absentMarker : String := "SLURM_AEDT_WORKSPACE_ABSENT"

def CommandResult.outcome (r : CommandResult) : CleanupState :=
  if r.exitCode == 0 && r.stdoutLines.contains deletedMarker then .deleted
  else if r.exitCode == 0 && r.stdoutLines.contains absentMarker then .absent
  else .failed

def removalOutcome : Option CommandResult → CleanupState
  | none => .failed
  | some r => r.outcome

variable (site : Site)

/-- `claim_terminal_aedt_workspace_cleanup`, and the attempt that it has begun -/
def claimCleanup (worker taskId : ℕ) (path : String) (cutoffs : Cutoffs) : Step (Option ℕ) := do
  let listed ← Proc.read fun s ↦ (s.cleanupCandidates cutoffs taskId).contains path
  if !listed then pure none else
  Proc.transact fun s ↦
    if s.db.leases.rows.any fun l ↦ l.workspacePath == path && s.eligible cutoffs taskId l then
      ([.claim worker taskId path cutoffs.now], some s.attempts.length)
    else ([], none)

/-- `finish_terminal_aedt_workspace_cleanup`, and whether a row was under the claim -/
def finishCleanup (id taskId : ℕ) (path : String) (state : CleanupState) : Step Bool := do
  let finishedAt ← Proc.query .now
  Proc.transact fun s ↦
    ([.finish id taskId path state finishedAt], s.db.leases.rows.any (s.finishes taskId path))

def cleanupWorkspace (worker taskId : ℕ) (accountName : String) (cutoffs : Cutoffs)
    (workspacePath : String) : Step Unit := do
  match validatedWorkspacePath site.svc.strip site.root taskId workspacePath with
  | none => Proc.write (.reject taskId workspacePath cutoffs.now)
  | some path =>
      match ← claimCleanup worker taskId path cutoffs with
      | none => pure ()
      | some id =>
          if !site.accounts.contains accountName then do
            let _ ← finishCleanup id taskId path .failed
          else do
            let result ← Proc.query (.remove taskId path)
            let _ ← finishCleanup id taskId path (removalOutcome result)

/-- `_cleanup_terminal_aedt_workspace_task` -/
def cleanupTask (worker taskId : ℕ) : Step Unit :=
  Proc.locked worker do
    let cutoffs ← Proc.query .cutoffs
    let accountName ← Proc.read fun s ↦
      site.svc.strip (((s.db.tasks.find? taskId).bind (·.accountName)).getD "")
    let paths ← Proc.read fun s ↦ s.cleanupCandidates cutoffs taskId
    Proc.forEach paths (cleanupWorkspace site worker taskId accountName cutoffs)

def poolTransaction (call : Call) (env : Env) (i : ℕ) : Step Unit :=
  Proc.transact fun s ↦
    match (call.transactions site.svc env)[i]? with
    | none => ([], ())
    | some m =>
        match m s.db with
        | (.ok _, writes) => (writes.map .pool, ())
        | (.error _, _) => ([], ())

def program : Thread → Step Unit
  | .cleanup worker taskId => cleanupTask site worker taskId
  | .poolCall call env =>
      Proc.forEach (List.range (call.transactions site.svc env).length)
        (poolTransaction site call env)
  | .scheduler tasks => Proc.write (.setTasks tasks)
  | .removalOver id => Proc.write (.abandon id)

/-- A removal may outlive the scheduler that has started it. -/
def system : System State Write ℕ Thread Question Question.Answer where
  program := program site
  external _ := true
  reboot s := { s with boot := s.boot + 1 }

end SlurmScheduler.Cleanup
