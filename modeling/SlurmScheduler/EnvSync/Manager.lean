import SlurmScheduler.Concurrent.Steps
import SlurmScheduler.EnvSync.Install
import SlurmScheduler.Slurm.Text

namespace SlurmScheduler.EnvSync

open Slurm.Text (strip)

inductive SyncStatus
  | queued | running | completed | failed | cancelled
  deriving DecidableEq, Repr

/-- `TERMINAL_SYNC_STATES` -/
def SyncStatus.terminal : SyncStatus → Bool
  | .completed | .failed | .cancelled => true
  | _ => false

structure Overlay where
  installedPrefix : String
  syncJobId : ℕ
  deriving DecidableEq

inductive TargetPhase
  | waiting | started
  /-- `_cancelled` was false; the row becomes `running` next. -/
  | checked
  | preparing | uploading | installing | readingPrefix
  | cleaning (installedPrefix : String)
  /-- The session is closed; the overlay is written next. -/
  | installed (installedPrefix : String)
  /-- The overlay is written; the row becomes `completed` next. -/
  | recorded
  | completed
  | raised
  /-- `_cancelled` was false in the handler; the row becomes `failed` next. -/
  | failing
  | ended
  deriving DecidableEq, Repr

def TargetPhase.writes : TargetPhase → Bool
  | .checked | .installed _ | .recorded | .failing => true
  | _ => false

def TargetPhase.over : TargetPhase → Bool
  | .completed | .ended => true
  | _ => false

/-- A row of `env_sync_targets`, the thread that works on it and the script that it has launched -/
structure Target where
  account : String
  status : SyncStatus := .queued
  phase : TargetPhase := .waiting
  script : Option Script := none

inductive JobPhase
  | begun | packing | packed
  | launching (next : ℕ)
  | joining | joined
  | counting
  | finishing (failures : Bool)
  | raised | failing | ended
  deriving DecidableEq, Repr

def JobPhase.writes : JobPhase → Bool
  | .begun | .counting | .finishing _ | .failing => true
  | _ => false

/-- A call of `cancel` that goes on after it has read the job, and the targets that it has listed
and not yet written. -/
inductive CancelPhase
  | seen | marked
  | marking (targets : List ℕ)
  deriving DecidableEq, Repr

structure World where
  job : SyncStatus := .queued
  jobPhase : JobPhase := .begun
  targets : List Target
  cancels : List CancelPhase := []
  homes : String → Home
  overlays : String → Option Overlay

/-- The accounts of the loop in `start`, with those before them -/
def collectTargets (accounts : List String) (reference : String) :
    List String → List String → Except String (List String)
  | targets, [] => .ok targets
  | targets, name :: names =>
      let accountName := strip name
      if accountName = "" then collectTargets accounts reference targets names
      else if accountName = reference then
        .error "target_accounts must not include reference_account"
      else if accountName ∉ accounts then .error ("target account not found: " ++ accountName)
      else if accountName ∈ targets then collectTargets accounts reference targets names
      else collectTargets accounts reference (targets ++ [accountName]) names

/-- What `start` checks: the name of the environment and the accounts -/
def start (accounts : List String) (reference sourceEnvName : String)
    (targetAccounts : List String) : Except String (String × List String) := do
  if reference ∉ accounts then throw ("reference account not found: " ++ reference)
  let envName := strip sourceEnvName
  if envName = "" then throw "source_env_name is required"
  let targets ← collectTargets accounts reference [] targetAccounts
  if targets = [] then throw "target_accounts is required"
  return (envName, targets)

theorem collectTargets_nodup {accounts names targets collected : List String} {reference : String}
    (h : collectTargets accounts reference targets names = .ok collected)
    (htargets : targets.Nodup) : collected.Nodup := by
  induction names generalizing targets with
  | nil =>
    cases h
    exact htargets
  | cons name names ih =>
    simp only [collectTargets] at h
    split at h
    · exact ih h htargets
    · split at h
      · cases h
      · split at h
        · cases h
        · split at h
          · exact ih h htargets
          · rename_i hnot
            exact ih h (List.nodup_append.mpr ⟨htargets, List.pairwise_singleton _ _,
              fun a ha b hb hab ↦ hnot (by rwa [← List.mem_singleton.mp hb, ← hab])⟩)

theorem start_nodup {accounts targetAccounts names : List String}
    {reference sourceEnvName env : String}
    (h : start accounts reference sourceEnvName targetAccounts = .ok (env, names)) :
    names.Nodup := by
  simp only [start, throw, throwThe, MonadExceptOf.throw, pure, Except.pure, bind,
    Except.bind] at h
  split at h
  · cases h
  · split at h
    · cases h
    · split at h
      · cases h
      · rename_i targets hcollect
        split at h
        · cases h
        · injection h with h
          obtain ⟨-, rfl⟩ := Prod.ext_iff.mp h
          exact collectTargets_nodup hcollect List.nodup_nil

/-- The rows that `start` has written, and its thread -/
def World.started (targets : List String) (homes : String → Home)
    (overlays : String → Option Overlay) : World :=
  { targets := targets.map fun account ↦ { account }, homes, overlays }

inductive Move
  /-- A call of `cancel` reads the job. -/
  | cancel
  | cancelNext (call : ℕ)
  | job (ok : Bool)
  | target (i : ℕ) (ok : Bool)
  | script (i : ℕ) (outcome : Outcome)

/-- The rows that a call of `cancel` lists and finds not ended -/
def unended (targets : List Target) : List ℕ :=
  (List.range targets.length).filter fun i ↦ targets[i]?.any fun t ↦ !t.status.terminal

def cancelNext (w : World) (call : ℕ) : Option World :=
  match w.cancels[call]? with
  | some .seen => some { w with job := .cancelled, cancels := w.cancels.set call .marked }
  | some .marked =>
      some { w with cancels := w.cancels.set call (.marking (unended w.targets)) }
  | some (.marking (i :: rest)) =>
      some { w with
        targets := w.targets.modify i fun t ↦ { t with status := .cancelled }
        cancels := w.cancels.set call (.marking rest) }
  | _ => none

def jobNext (w : World) (ok : Bool) : Option World :=
  match w.jobPhase with
  | .begun => some { w with job := .running, jobPhase := .packing }
  | .packing => some { w with jobPhase := if ok then .packed else .raised }
  | .packed => some { w with jobPhase := if w.job = .cancelled then .ended else .launching 0 }
  | .launching next =>
      if next < w.targets.length then
        some { w with
          targets := w.targets.modify next fun t ↦ { t with phase := .started }
          jobPhase := .launching (next + 1) }
      else some { w with jobPhase := .joining }
  | .joining => if w.targets.all (·.phase.over) then some { w with jobPhase := .joined } else none
  | .joined => some { w with jobPhase := if w.job = .cancelled then .ended else .counting }
  | .counting =>
      some { w with jobPhase := .finishing (w.targets.any fun t ↦ t.status ≠ .completed) }
  | .finishing failures =>
      some { w with job := if failures then .failed else .completed, jobPhase := .ended }
  | .raised => some { w with jobPhase := if w.job = .cancelled then .ended else .failing }
  | .failing => some { w with job := .failed, jobPhase := .ended }
  | .ended => none

/-- `_run_target`, one read, write or remote command further, and the overlay of the account -/
def Target.next (id : ℕ) (job : SyncStatus) (ok : Bool) (overlay : Option Overlay) (t : Target) :
    Option (Target × Option Overlay) :=
  let go (phase : TargetPhase) := some ({ t with phase }, overlay)
  match t.phase with
  | .waiting => none
  | .started => go (if job = .cancelled then .ended else .checked)
  | .checked => some ({ t with status := .running, phase := .preparing }, overlay)
  | .preparing => go (if ok then .uploading else .raised)
  | .uploading =>
      if ok then some ({ t with phase := .installing, script := some {} }, overlay)
      else go .raised
  | .installing =>
      -- without an exit status the connection is lost, and the script may go on
      match t.script with
      | some s =>
          if !ok then go .raised
          else if s.exited then go (if s.failed then .raised else .readingPrefix)
          else none
      | none => none
  | .readingPrefix =>
      match t.script with
      | some s => go (if ok then .cleaning (strip s.target) else .raised)
      | none => none
  | .cleaning installedPrefix => go (if ok then .installed installedPrefix else .raised)
  | .installed installedPrefix =>
      some ({ t with phase := .recorded }, some { installedPrefix, syncJobId := id })
  | .recorded => some ({ t with status := .completed, phase := .completed }, overlay)
  | .completed => none
  | .raised => go (if job = .cancelled then .ended else .failing)
  | .failing => some ({ t with status := .failed, phase := .ended }, overlay)
  | .ended => none

def targetNext (id : ℕ) (w : World) (i : ℕ) (ok : Bool) : Option World := do
  let t ← w.targets[i]?
  let (t', overlay) ← t.next id w.job ok (w.overlays t.account)
  return { w with
    targets := w.targets.set i t'
    overlays := Function.update w.overlays t.account overlay }

def scriptNext (env : String) (w : World) (i : ℕ) (o : Outcome) : Option World := do
  let t ← w.targets[i]?
  let s ← t.script
  let (s', home) ← s.next env o (w.homes t.account)
  return { w with
    targets := w.targets.set i { t with script := some s' }
    homes := Function.update w.homes t.account home }

def step (env : String) (id : ℕ) (w : World) : Move → Option World
  | .cancel => if w.job.terminal then none else some { w with cancels := w.cancels ++ [.seen] }
  | .cancelNext call => cancelNext w call
  | .job ok => jobNext w ok
  | .target i ok => targetNext id w i ok
  | .script i o => scriptNext env w i o

end SlurmScheduler.EnvSync
