import SlurmScheduler.Artifacts.Paths

namespace SlurmScheduler.Artifacts

open Posix Shell Slurm.Text
open Retention (normalizeRemotePath)
open Cleanup (dirname dirname_spell)

def removeTreesLine (paths : List Text) : Text :=
  "rm -rf -- ".toList ++ [' '].intercalate (paths.map quote)

/-- What an account answers to a call: whether a session opens and, for each line, the exit status,
or none where the session breaks. -/
structure Session where
  opens : Bool
  status : ℕ → Option ℕ

/-- The lines for some slices from one on, with their statuses, and whether all have succeeded -/
def removeSlices (session : Session) : ℕ → List (List Text) → List (Text × Option ℕ) × Bool
  | _, [] => ([], true)
  | i, chunk :: chunks =>
      let first := (removeTreesLine chunk, session.status i)
      if session.status i = some 0 then
        let rest := removeSlices session (i + 1) chunks
        (first :: rest.1, rest.2)
      else ([first], false)

/-- `SlurmClient.remove_trees`, with whether it returns -/
def removeTrees (session : Session) (remotePaths : List Text) :
    List (Text × Option ℕ) × Bool :=
  let paths := remotePaths.filter (stripChars · ≠ [])
  if paths = [] then ([], true)
  else if session.opens then removeSlices session 0 (slices 100 paths)
  else ([], false)

structure Account where
  name : Text
  remoteWorkspace : Text
  deriving DecidableEq

def accountByName (accounts : List Account) (name : Text) : Option Account :=
  accounts.find? (·.name = name)

/-- `remove_scheduler_artifacts`: the lines, and the paths that are removed -/
def removeSchedulerArtifacts (account : Account) (session : Session) (remotePaths : List Text)
    (prefixes : List Text) : List (Text × Option ℕ) × List Text :=
  let safePaths := remotePaths.filter
    (isSafeSchedulerArtifactPath account.remoteWorkspace · prefixes)
  if safePaths = [] then ([], [])
  else
    let result := removeTrees session safePaths
    (result.1, if result.2 then safePaths else [])

inductive Table
  | tasks | jobs | allocations
  deriving DecidableEq

def Table.prefixes : Table → List Text
  | .tasks => ["task-".toList]
  | .jobs => ["job-".toList]
  | .allocations => ["allocation-".toList]

def Table.terminal : Table → List Text
  | .tasks | .jobs => ["completed".toList, "failed".toList, "cancelled".toList]
  | .allocations => ["closed".toList, "failed".toList]

def Table.dirColumn : Table → Text
  | .tasks | .allocations => "remote_dir".toList
  | .jobs => "remote_job_dir".toList

/-- What a row is set to when its directory has been removed -/
def Table.cleared (table : Table) : List (Text × Text) :=
  ([table.dirColumn, "stdout_path".toList, "stderr_path".toList] ++
    match table with
    | .tasks => ["exit_code_path".toList, "wrapper_pid".toList]
    | .jobs | .allocations => []).map (·, [])

/-- The columns of a row that the cleanup reads -/
structure Row where
  id : ℕ
  status : Text
  accountName : Text
  /-- `finished_at` or `closed_at` -/
  endedAt : Option Text
  remoteDir : Text

/-- The rows that have ended until the cutoff, the first ended first -/
def listFinishedForCleanup (table : Table) (cutoff : Text) (rows : List Row) : List Row :=
  let ended := rows.filter fun row ↦
    table.terminal.contains row.status ∧ row.remoteDir ≠ [] ∧ row.endedAt.any (· ≤ cutoff)
  (ended.mergeSort fun a b ↦ a.endedAt.getD [] < b.endedAt.getD [] ∨
    a.endedAt = b.endedAt ∧ a.id ≤ b.id).take 5000

/-- What a pass does to an account or to the database -/
inductive Effect
  | removal (account : Account) (line : Text) (status : Option ℕ)
  | update (table : Table) (id : ℕ) (fields : List (Text × Text))
  deriving DecidableEq

def removals (account : Account) (lines : List (Text × Option ℕ)) : List Effect :=
  lines.map fun line ↦ .removal account line.1 line.2

def cleanupCandidates (accounts : List Account) (table : Table) (rows : List Row) :
    List (Account × Row) :=
  rows.filterMap fun row ↦ do
    let account ← accountByName accounts row.accountName
    if isSafeSchedulerArtifactPath account.remoteWorkspace row.remoteDir table.prefixes then
      some (account, row)
    else none

def cleanupAccount (table : Table) (session : Session) (account : Account) (items : List Row) :
    List Effect :=
  let result := removeSchedulerArtifacts account session (items.map (·.remoteDir)) table.prefixes
  removals account result.1 ++
    (items.filter (result.2.contains ·.remoteDir)).map fun row ↦ .update table row.id table.cleared

/-- `cleanup_finished_tasks`, `cleanup_finished_jobs` and `cleanup_closed_allocations` -/
def cleanupRows (accounts : List Account) (table : Table) (cutoff : Text) (rows : List Row)
    (sessions : Account → Session) : List Effect :=
  let candidates := cleanupCandidates accounts table (listFinishedForCleanup table cutoff rows)
  -- one name is one account here
  (candidates.map (·.1)).eraseDups.flatMap fun account ↦
    cleanupAccount table (sessions account) account
      ((candidates.filter (·.1 = account)).map (·.2))

def cleanupFinishedTasks (accounts : List Account) : Text → List Row → (Account → Session) →
    List Effect :=
  cleanupRows accounts .tasks

def cleanupFinishedJobs (accounts : List Account) : Text → List Row → (Account → Session) →
    List Effect :=
  cleanupRows accounts .jobs

def cleanupClosedAllocations (accounts : List Account) : Text → List Row → (Account → Session) →
    List Effect :=
  cleanupRows accounts .allocations

structure Database where
  tasks : List Row
  jobs : List Row
  allocations : List Row
  /-- The column `remote_dir` of `env_sync_targets` -/
  envSyncTargets : List Text

def Database.listReferencedRemotePaths (db : Database) : List Text :=
  (db.tasks.map (·.remoteDir) ++ db.jobs.map (·.remoteDir) ++ db.allocations.map (·.remoteDir) ++
    db.envSyncTargets).filter (· ≠ [])

def referenced (paths : List Text) : List Text :=
  paths.flatMap fun path ↦ [normalizeRemotePath path, dirname (normalizeRemotePath path)]

def sweepPrefixes : List Text := ["task-".toList, "job-".toList, "allocation-".toList]

def sweepCandidates (account : Account) (spared : List Text) (stdout : String) : List Text :=
  ((splitLines stdout).map stripChars).filter fun path ↦
    path ≠ [] ∧ ¬ spared.contains (normalizeRemotePath path) ∧
      isSafeSchedulerArtifactPath account.remoteWorkspace path sweepPrefixes

/-- `sweep_orphan_remote_artifacts_if_due` where it is due; no listing is one that has failed. -/
def sweepOrphanRemoteArtifacts (accounts : List Account) (db : Database)
    (listings : Account → Option String) (sessions : Account → Session) : List Effect :=
  accounts.flatMap fun account ↦
    if stripChars account.remoteWorkspace = [] then []
    else match listings account with
      | none => []
      | some stdout =>
          removals account (removeTrees (sessions account) (sweepCandidates account
            (referenced db.listReferencedRemotePaths) stdout)).1

/-- What a pass meets.  The tables may change between its steps. -/
structure Encounter where
  tasks : List Row
  jobs : List Row
  allocations : List Row
  /-- The database when the sweep begins, where the sweep is due -/
  swept : Option Database
  sessions : Option Table → Account → Session
  listings : Account → Option String

structure Cutoffs where
  tasks : Text
  jobs : Text
  allocations : Text

/-- The removals of `cleanup_remote_artifacts_if_due` that come with an update of a row, and its
sweep of orphans; the globs of `prune_workspace_artifacts_if_due` are apart. -/
def cleanupRemoteArtifacts (accounts : List Account) (cutoffs : Cutoffs) (met : Encounter) :
    List Effect :=
  cleanupFinishedTasks accounts cutoffs.tasks met.tasks (met.sessions (some .tasks)) ++
    cleanupFinishedJobs accounts cutoffs.jobs met.jobs (met.sessions (some .jobs)) ++
    cleanupClosedAllocations accounts cutoffs.allocations met.allocations
      (met.sessions (some .allocations)) ++
    met.swept.elim [] fun db ↦
      sweepOrphanRemoteArtifacts accounts db met.listings (met.sessions none)

end SlurmScheduler.Artifacts
