import SlurmScheduler.Host.Requests
import SlurmScheduler.Concurrent.Exceptions

namespace SlurmScheduler.Host

open Relational Concurrent
open Pool (Env Db SessionCommands)

inductive NativeProbe
  | ok | failed | deferredBusy | notRun
  deriving DecidableEq, Repr

inductive ProbeThread
  | none
  | running
  | finished (outcome : NativeProbe)
  deriving DecidableEq, Repr

inductive Liveness
  | healthy
  | suspect (error : String)
  | dead (error : String)
  deriving DecidableEq, Repr

structure Sent where
  request : Request
  processed : Option (Env × Db) := none

structure State where
  db : Db := {}
  started : Bool := false
  stopRequested : Bool := false
  /-- `desktop is not None` -/
  desktop : Bool := true
  nativeProbeThread : ProbeThread := .none
  nativeProbeFailures : ℕ := 0
  lastNativeProbeOutcome : NativeProbe := .notRun
  nativeSnapshotPath : String := ""
  /-- The threads that close the Desktop, and whether they have ended without an error. -/
  closers : List (Option Bool) := []
  requests : List Sent := []
  /-- The last answer to the command query. -/
  lastCommands : Option SessionCommands := none
  /-- The last proof of the process and its listener has failed. -/
  proofFailed : Bool := false

inductive Helper
  | probe | diagnostics | projectClose | globalStop | shutdown
  deriving DecidableEq, Repr

inductive NativeCall
  | odesktop
  | getVersion
  | getMessages
  | getProjectList
  | closeProject (projectName : String)
  | stopSimulations
  | releaseDesktop
  deriving DecidableEq, Repr

structure NativeError where
  message : String
  typeError : Bool := false

/-- Whether the object that is resolved is there, and whether a project is listed; what the other
calls return is not read. -/
abbrev NativeResult : Type := Except NativeError Bool

inductive Write
  | start
  | requestStop
  | send (r : Request)
  | processed (id : ℕ) (env : Env) (db : Db)
  | pool (w : Pool.Write)
  /-- The answer that was computed from this is read. -/
  | receive (r : Request) (env : Env) (db : Db)
  | commands (c : SessionCommands)
  | proof (proved : Bool)
  | probeOutcome (outcome : NativeProbe)
  | probeStarted
  | probeFinished (outcome : NativeProbe)
  | probeConsumed
  | probeFailed
  | probeRecovered
  /-- The liveness check of a round is over. -/
  | checked (l : Liveness)
  | snapshot (path : String)
  | enter (h : Helper) (c : NativeCall)
  | leave (h : Helper) (c : NativeCall) (r : NativeResult)
  | beginClose (globalStop : Bool)
  | closerEnded (id : ℕ) (graceful : Bool)
  | dropDesktop
  /-- A client's transaction in the Desktop. -/
  | clientEnter
  | clientLeave

def setAt {α : Type} (id : ℕ) (f : α → α) (xs : List α) : List α :=
  xs.mapIdx fun i x ↦ if i == id then f x else x

def Write.exec : Write → State → State
  | start, s => { s with started := true }
  | requestStop, s => { s with stopRequested := true }
  | send r, s => { s with requests := s.requests ++ [{ request := r }] }
  | processed id env db, s =>
      { s with requests := setAt id (fun r ↦ { r with processed := some (env, db) }) s.requests }
  | pool w, s => { s with db := w.exec s.db }
  | receive _ _ _, s => s
  | commands c, s => { s with lastCommands := some c }
  | proof proved, s => { s with proofFailed := !proved }
  | probeOutcome outcome, s => { s with lastNativeProbeOutcome := outcome }
  | probeStarted, s => { s with nativeProbeThread := .running }
  | probeFinished outcome, s => { s with nativeProbeThread := .finished outcome }
  | probeConsumed, s => { s with nativeProbeThread := .none }
  | probeFailed, s => { s with nativeProbeFailures := s.nativeProbeFailures + 1 }
  | probeRecovered, s => { s with nativeProbeFailures := 0, nativeSnapshotPath := "" }
  | checked _, s => s
  | snapshot path, s => { s with nativeSnapshotPath := path }
  | enter _ _, s => s
  | leave _ _ _, s => s
  | beginClose _, s => { s with closers := s.closers ++ [none] }
  | closerEnded id graceful, s => { s with closers := setAt id (fun _ ↦ some graceful) s.closers }
  | dropDesktop, s => { s with desktop := false }
  | clientEnter, s => s
  | clientLeave, s => s

instance : Statement State Write := ⟨Write.exec⟩

inductive Lock
  /-- the automation lock of the session, which its clients take as well -/
  | automation
  /-- held by the main thread as long as it runs -/
  | main
  deriving DecidableEq

inductive Thread
  /-- The registration is deferred some times before it succeeds; then the main loop makes at most
  so many rounds. -/
  | run (deferrals rounds : ℕ)
  | requestStop
  | client
  | poolCall (call : Pool.Call) (env : Env)
  | deliver (id : ℕ)
  | probe
  | collectMessages (callable : Bool)
  | graceful (globalStop : Bool) (id : ℕ)

inductive Acquisition
  | acquired
  | timedOut
  | failed (message : String)

inductive Question
  /-- The number of attempts that fit into the outage budget after the first one. -/
  | attempts
  /-- The response arrives, if there is one by then. -/
  | arrived
  | env
  | acquire
  | native (c : NativeCall)
  /-- The method exists. -/
  | callable (c : NativeCall)
  | processAlive
  | desktopPid
  | portListening
  /-- The time since the first failure of a probe, as text. -/
  | elapsed
  | snapshotExists
  /-- The path of the snapshot, when it could be written. -/
  | writeSnapshot
  /-- `_prepare_released_project_workspace` -/
  | prepareWorkspace (leaseId : ℕ)
  deriving DecidableEq

abbrev Question.Answer : Question → Type
  | attempts => ℕ
  | arrived => Bool
  | env => Env
  | acquire => Acquisition
  | native _ => NativeResult
  | callable _ => Bool
  | processAlive => Option Bool
  | desktopPid => String
  | portListening => Bool
  | elapsed => String
  | snapshotExists => Bool
  | writeSnapshot => Option String
  | prepareWorkspace _ => Except String Unit

inductive HostError
  /-- `ControlPlaneUnavailable` -/
  | unavailable
  | failed (message : String)

abbrev Step (α : Type) : Type := Proc State Write Lock Thread Question Question.Answer α

abbrev Action (α : Type) : Type :=
  Throwing HostError State Write Lock Thread Question Question.Answer α

def ask (q : Question) : Action q.Answer := liftM (Proc.query q : Step _)

def self {α : Type} (f : State → α) : Action α := liftM (Proc.read f : Step α)

def record (w : Write) : Action Unit := liftM (Proc.write w : Step Unit)

def spawn (t : Thread) : Action Unit := liftM (Proc.spawn t : Step Unit)

def transact {α : Type} (f : State → List Write × α) : Action α :=
  liftM (Proc.transact f : Step α)

def fail {α : Type} (message : String) : Action α := throw (.failed message)

end SlurmScheduler.Host
