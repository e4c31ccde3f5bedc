import SlurmScheduler.Pool.Endings
import SlurmScheduler.Concurrent.Triples

namespace SlurmScheduler.Cleanup

open Relational
open Pool (Db Task Lease)

abbrev Time := Pool.Time

def splitSlash : List Char → List (List Char)
  | [] => [[]]
  | c :: cs =>
      if c == '/' then [] :: splitSlash cs
      else match splitSlash cs with
        | [] => [[c]]
        | p :: ps => (c :: p) :: ps

def initialSlashes : List Char → ℕ
  | '/' :: '/' :: '/' :: _ => 1
  | '/' :: '/' :: _ => 2
  | '/' :: _ => 1
  | _ => 0

def pushComponent (slashes : ℕ) (kept : List (List Char)) (component : List Char) :
    List (List Char) :=
  if component == [] || component == ['.'] then kept
  else if component != ['.', '.'] || (slashes == 0 && kept.isEmpty) ||
      kept.head? == some ['.', '.'] then component :: kept
  else kept.tail

def normpath (path : List Char) : List Char :=
  let slashes := initialSlashes path
  let components := (splitSlash path).foldl (pushComponent slashes) []
  let normalized := List.replicate slashes '/' ++ ['/'].intercalate components.reverse
  if normalized == [] then ['.'] else normalized

def join (root leaf : List Char) : List Char :=
  if root == [] || root.getLast? == some '/' then root ++ leaf else root ++ '/' :: leaf

def basename (path : List Char) : List Char := (path.reverse.takeWhile (· != '/')).reverse

def dirname (path : List Char) : List Char :=
  let head := (path.reverse.dropWhile (· != '/')).reverse
  if head.all (· == '/') then head else (head.reverse.dropWhile (· == '/')).reverse

def leaf (taskId : ℕ) : List Char := ("aedt-" ++ toString taskId).toList

/-- `_validated_terminal_aedt_workspace_path`, with `none` for the errors -/
def validatedWorkspacePath (strip : String → String) (root : String) (taskId : ℕ)
    (workspacePath : String) : Option String :=
  let raw := (strip workspacePath).toList
  let normalized := normpath raw
  let expected := join root.toList (leaf taskId)
  if taskId == 0 then none
  else if raw == [] || raw.contains '\x00' || raw.head? != some '/' then none
  else if raw != normalized then none
  else if normalized != expected || dirname normalized != root.toList ||
      basename normalized != leaf taskId then none
  else some (String.ofList normalized)

/-- `workspace_cleanup_state` -/
inductive CleanupState
  | legacy | pending | inProgress | failed | deleted | absent | rejected
  deriving DecidableEq, Repr

structure Columns where
  state : CleanupState := .pending
  attempts : ℕ := 0
  cleanupAt : Option Time := none
  /-- The attempt that has claimed the row last. -/
  owner : Option ℕ := none

/-- A claim of a worker, and whether the worker or its removal may still be at work. -/
structure Attempt where
  taskId : ℕ
  path : String
  worker : ℕ
  boot : ℕ
  running : Bool := true

structure State where
  db : Db := {}
  columns : ℕ → Columns := fun _ ↦ {}
  attempts : List Attempt := []
  /-- How often the scheduler has been started again. -/
  boot : ℕ := 0

structure Cutoffs where
  now : Time
  retryBefore : Time
  staleBefore : Time

def sqlTrim (s : String) : String :=
  String.ofList ((s.toList.dropWhile (· == ' ')).reverse.dropWhile (· == ' ')).reverse

def sqlLower (s : String) : String := String.ofList (s.toList.map Char.toLower)

namespace State

variable (s : State)

def pooledEnded (taskId : ℕ) : Bool :=
  (s.db.tasks.find? taskId).any fun t ↦
    sqlLower (sqlTrim t.aedtBackend) == "pooled" && t.status.terminal

def leasesEnded (taskId : ℕ) : Bool :=
  s.db.leases.rows.all fun l ↦ l.taskId != taskId || !l.state.live

def workspaceEnded (path : String) : Bool :=
  s.db.leases.rows.all fun l ↦
    l.workspacePath != path || (!l.state.live && s.db.taskTerminal l.taskId)

def due (cutoffs : Cutoffs) (columns : Columns) : Bool :=
  match columns.state with
  | .pending => true
  | .failed => columns.cleanupAt.all (· ≤ cutoffs.retryBefore)
  | .inProgress => columns.cleanupAt.all (· ≤ cutoffs.staleBefore)
  | _ => false

def eligible (cutoffs : Cutoffs) (taskId : ℕ) (l : Lease) : Bool :=
  l.taskId == taskId && s.pooledEnded taskId && decide (2 ≤ l.protocolVersion) &&
    due cutoffs (s.columns l.id) && s.leasesEnded taskId && s.workspaceEnded l.workspacePath

/-- `list_terminal_aedt_workspace_cleanup_candidates` for one task: its workspaces, and those first
that have never been tried. -/
def cleanupCandidates (cutoffs : Cutoffs) (taskId : ℕ) : List String :=
  let rows := s.db.leases.rows.filter fun l ↦
    s.eligible cutoffs taskId l && sqlTrim l.workspacePath != ""
  let untried (path : String) : Bool :=
    rows.all fun l ↦ l.workspacePath != path || (s.columns l.id).state == .pending
  let paths := (rows.map (·.workspacePath)).dedup
  (paths.filter untried ++ paths.filter fun path ↦ !untried path).take 100

def cleanupRow (taskId : ℕ) (path : String) (states : List CleanupState) (l : Lease) : Bool :=
  l.taskId == taskId && l.workspacePath == path && states.contains (s.columns l.id).state

/-- The condition of `finish_terminal_aedt_workspace_cleanup` -/
def finishes (taskId : ℕ) (path : String) (l : Lease) : Bool :=
  s.cleanupRow taskId path [.inProgress] l && s.pooledEnded taskId && s.leasesEnded taskId &&
    s.workspaceEnded path

/-- The condition of `reject_terminal_aedt_workspace_cleanup` -/
def rejects (taskId : ℕ) (path : String) (l : Lease) : Bool :=
  !l.state.live && s.cleanupRow taskId path [.pending, .failed] l && s.pooledEnded taskId &&
    s.leasesEnded taskId && s.workspaceEnded path

def onColumns (p : Lease → Bool) (f : Columns → Columns) : State :=
  { s with columns := fun id ↦
      if (s.db.leases.find? id).any p then f (s.columns id) else s.columns id }

end State

inductive Write
  | pool (w : Pool.Write)
  /-- The scheduler changes its tasks, as when it puts one back into the queue. -/
  | setTasks (tasks : Table Task)
  | claim (worker taskId : ℕ) (path : String) (claimedAt : Time)
  | reject (taskId : ℕ) (path : String) (rejectedAt : Time)
  | finish (id taskId : ℕ) (path : String) (state : CleanupState) (finishedAt : Time)
  /-- The removal that a dead worker has left behind is over. -/
  | abandon (id : ℕ)

def claimColumns (id : ℕ) (claimedAt : Time) (c : Columns) : Columns :=
  { c with
    state := .inProgress, attempts := c.attempts + 1, cleanupAt := some claimedAt
    owner := some id }

def Write.exec : Write → State → State
  | pool w, s =>
      -- a new row has the defaults of the schema
      { s with
        db := w.exec s.db
        columns := fun id ↦ if (s.db.leases.find? id).isSome then s.columns id else {} }
  | setTasks tasks, s => { s with db := { s.db with tasks } }
  | claim worker taskId path claimedAt, s =>
      { s.onColumns (s.cleanupRow taskId path [.pending, .failed, .inProgress])
          (claimColumns s.attempts.length claimedAt) with
        attempts := s.attempts ++ [{ taskId, path, worker, boot := s.boot }] }
  | reject taskId path rejectedAt, s =>
      s.onColumns (s.rejects taskId path) fun c ↦
        { c with
          state := .rejected, attempts := c.attempts + 1, cleanupAt := some rejectedAt }
  | finish id taskId path state finishedAt, s =>
      { s.onColumns (s.finishes taskId path) fun c ↦
          { c with state, cleanupAt := some finishedAt } with
        attempts := s.attempts.modify id fun a ↦ { a with running := false } }
  | abandon id, s =>
      { s with attempts := s.attempts.modify id fun a ↦
          { a with running := a.running && a.boot == s.boot } }

instance : Statement State Write := ⟨Write.exec⟩

end SlurmScheduler.Cleanup
