import SlurmScheduler.Host.Desktop

namespace SlurmScheduler.Host

open Relational Concurrent
open Pool (Env Db SessionCommands SessionFault Evidence Closure PoolError)

variable (host : Setup)

def deliver (id : ℕ) : Action Unit := do
  let seen ← self (·.db)
  let env ← ask .env
  transact fun s ↦
    match s.requests[id]? with
    | none => ([], ())
    | some sent =>
        let env := { env with seen }
        match host.serve env sent.request s.db with
        | (.ok _, writes) => (.processed id env s.db :: writes.map .pool, ())
        | (.error _, _) => ([.processed id env s.db], ())

def response (r : Request) (id : ℕ) : Action (Option (Except PoolError r.Reply)) :=
  transact fun s ↦
    match (s.requests[id]?).bind (·.processed) with
    | none => ([], none)
    | some (env, db) => ([.receive r env db], some (host.serve env r db).1)

def request (r : Request) : Action (Option (Except PoolError r.Reply)) := do
  let id ← transact fun s ↦ ([.send r], s.requests.length)
  spawn (.deliver id)
  if ← ask .arrived then response host r id else pure none

def PoolError.text : PoolError → String
  | .permission _ => "HTTP Error 403: Forbidden"
  | .key _ => "HTTP Error 404: Not Found"
  | .value _ => "HTTP Error 409: Conflict"
  | .runtime _ => "HTTP Error 500: Internal Server Error"
  | .integrity _ => "HTTP Error 500: Internal Server Error"

def requestAttempts (r : Request) : ℕ → Action r.Reply
  | 0 => throw .unavailable
  | attempts + 1 => do
      if ← self (·.stopRequested) then fail "session host stopped during control-plane retry" else
      match ← request host r with
      | none => requestAttempts r attempts
      | some (.ok reply) => pure reply
      | some (.error e) =>
          if Pool.retryable e.status then requestAttempts r attempts
          else fail (PoolError.text e)

def controlPlaneRequest (r : Request) : Action r.Reply := do
  let attempts ← ask .attempts
  requestAttempts host r (attempts + 1)

def requestCommands : Action SessionCommands := do
  let commands ← controlPlaneRequest host .commands
  record (.commands commands)
  pure commands

def reportClosed (closure : Closure) : Action Unit := do
  let _ ← request host (.closed closure)

def faultEvidence (failures : ℕ) (nativeSnapshotPath : String) : Evidence where
  json := host.dumps
    [("process_id", host.desktopProcessId), ("port", toString host.desktopPort),
      ("native_probe_failures", toString failures), ("artifact_dir", host.artifactRoot),
      ("error_log_path", host.errorLogPath), ("native_snapshot_path", nativeSnapshotPath)]
  nativeSnapshotPath

def suspectEvidence (failures : ℕ) (nativeSnapshotPath : String) : Evidence where
  json := host.dumps
    [("native_probe_failures", toString failures), ("process_id", host.desktopProcessId),
      ("port", toString host.desktopPort), ("artifact_dir", host.artifactRoot),
      ("native_snapshot_path", nativeSnapshotPath)]
  nativeSnapshotPath

def checkLiveness (commands : SessionCommands) : Action Liveness := do
  let l ← livenessProofForCommands host commands
  record (.checked l)
  pure l

def reportFault (kind error : String) (evidence : ℕ → String → Evidence) : Action Unit := do
  let snapshotPath ← captureNativeDiagnostics host
  let failures ← self (·.nativeProbeFailures)
  controlPlaneRequest host
    (.fault { kind, failureMessage := error, evidence := evidence failures snapshotPath })

def heartbeat : Action (Option SessionCommands) := do
  let livenessCommands ← requestCommands host
  match ← checkLiveness host livenessCommands with
  | .dead error => do
      reportFault host "confirmed_aedt_death" error (faultEvidence host)
      fail ("AEDT Desktop liveness proof failed: " ++ error)
  | .suspect error => do
      reportFault host "native_probe_suspect" error (suspectEvidence host)
      pure none
  | .healthy => do
      let outcome ← self (·.lastNativeProbeOutcome)
      controlPlaneRequest host (.heartbeat (if outcome == .ok then "GetVersion" else ""))
      let commands ← requestCommands host
      pure (some commands)

def offline : Action (Option SessionCommands) := do
  match ← processListenerLivenessProof host with
  | some _ => fail "AEDT died while the control plane was unavailable"
  | none => pure none

def heartbeatOrOffline : Action (Option SessionCommands) := do
  match ← Throwing.attempt (heartbeat host) with
  | .ok commands => pure commands
  | .error .unavailable => offline host
  | .error e => throw e

def acknowledgeRelease (leaseId : ℕ) (success : Bool) (failure : String) : Action Unit := do
  match ← Throwing.attempt
      (controlPlaneRequest host (.releaseComplete leaseId success failure)) with
  | .ok _ => pure ()
  | .error .unavailable => pure ()
  | .error e => throw e

def HostError.message : HostError → String
  | .unavailable => "control plane unavailable"
  | .failed message => message

/-- The releases in order, and whether one of them is deferred because the lock is busy. -/
def closeProjects : List Pool.Lease → Action Bool
  | [] => pure false
  | lease :: leases => do
      match ← Throwing.attempt (closeAndPrepareProjectRelease host lease) with
      | .ok false => pure true
      | .ok true => do
          acknowledgeRelease host lease.id true ""
          closeProjects leases
      | .error e => do
          acknowledgeRelease host lease.id false (HostError.message e)
          closeProjects leases

def obey (commands : SessionCommands) : Action (Option ℕ) := do
  if ← closeProjects host commands.closeProjects then pure none else
  if commands.globalStopAllowed then do
    let confirmed ← boundedCloseDesktop true
    if confirmed then
      reportClosed host
        { success := false, message := "quarantined AEDT session globally stopped and recycled" }
    pure (some (if confirmed then 2 else 3))
  else if commands.drain && commands.siblingLiveCount == 0 then do
    let confirmed ← boundedCloseDesktop false
    if confirmed then reportClosed host { success := true }
    pure (some (if confirmed then 0 else 3))
  else pure none

def round : Action (Option ℕ) := do
  match ← heartbeatOrOffline host with
  | none => pure none
  | some commands => obey host commands

def loop : ℕ → Action (Option ℕ)
  | 0 => pure none
  | rounds + 1 => do
      if ← self (·.stopRequested) then pure (some 0) else
      match ← round host with
      | some code => pure (some code)
      | none => loop rounds

def deferRegistration : ℕ → Action Bool
  | 0 => pure true
  | deferrals + 1 => do
      match ← livenessProof host with
      | .dead _ => pure false
      | _ => deferRegistration deferrals

def mainLoop (deferrals rounds : ℕ) : Action (Option ℕ) := do
  if ← deferRegistration host deferrals then loop host rounds else pure none

/-- `finally: …` -/
def closeIfStopped : Action Unit := do
  if ← self fun s ↦ s.stopRequested && s.desktop then do
    let confirmed ← boundedCloseDesktop false
    if confirmed then
      reportClosed host
        { success := false, message := "session host received termination signal" }

def run (deferrals rounds : ℕ) : Action Unit := do
  match ← Throwing.attempt (mainLoop host deferrals rounds) with
  | .ok none => pure ()
  | .ok (some _) => closeIfStopped host
  | .error e => do
      let confirmed ← boundedCloseDesktop false
      if confirmed then reportClosed host { success := false, message := HostError.message e }
      closeIfStopped host

def main (deferrals rounds : ℕ) : Action Unit :=
  Throwing.locked .main do
    if ← self (·.started) then pure () else
    record .start
    run host deferrals rounds

def poolTransaction (call : Pool.Call) (env : Env) (i : ℕ) : Action Unit :=
  transact fun s ↦
    match (call.transactions host.svc env)[i]? with
    | none => ([], ())
    | some m =>
        match m s.db with
        | (.ok _, writes) => (writes.map .pool, ())
        | (.error _, _) => ([], ())

def poolCall (call : Pool.Call) (env : Env) : Step Unit :=
  Proc.forEach (List.range (call.transactions host.svc env).length) fun i ↦ do
    let _ ← (poolTransaction host call env i).run

def clientTransaction : Action Unit :=
  Throwing.locked .automation do
    record .clientEnter
    record .clientLeave

def thread (p : Action Unit) : Step Unit := do
  let _ ← p.run

def program : Thread → Step Unit
  | .run deferrals rounds => thread (main host deferrals rounds)
  | .requestStop => Proc.write .requestStop
  | .client => thread clientTransaction
  | .poolCall call env => poolCall host call env
  | .deliver id => thread (deliver host id)
  | .probe => thread (probeCall host)
  | .collectMessages callable => thread (collectMessages callable)
  | .graceful stop id => thread (graceful host stop id)

def Thread.external : Thread → Bool
  | .run _ _ => true
  | .requestStop => true
  | .client => true
  | .poolCall _ _ => true
  | _ => false

/-- A host that dies does not come back: its session gets another one. -/
def system : System State Write Lock Thread Question Question.Answer where
  program := program host
  external := Thread.external
  reboot s := { s with started := true }

def sampleHost : Setup where
  svc := Pool.sampleService
  sessionId := 1
  hostToken := "host-token"
  bootstrapToken := "bootstrap"
  artifactRoot := "/gpfs/artifacts"
  desktopProcessId := "8"
  desktopPort := 50051
  desktopPort_pos := by decide

def sampleAnswers : (q : Question) → q.Answer
  | .attempts => (0 : ℕ)
  | .arrived => true
  | .env => { cfg := {}, now := 100020, clock := 100020, seen := {} }
  | .acquire => .acquired
  | .native _ => .ok true
  | .callable _ => true
  | .processAlive => some true
  | .desktopPid => "8"
  | .portListening => true
  | .elapsed => "0.0"
  | .snapshotExists => true
  | .writeSnapshot => some "native-liveness.json"
  | .prepareWorkspace _ => .ok ()

end SlurmScheduler.Host
