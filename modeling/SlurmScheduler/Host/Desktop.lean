import SlurmScheduler.Host.Memory

namespace SlurmScheduler.Host

open Concurrent

variable (host : Setup)

def call (h : Helper) (c : NativeCall) : Action NativeResult := do
  let r ← ask (.native c)
  record (.enter h c)
  record (.leave h c r)
  pure r

def orRaise : NativeResult → Action Bool
  | .ok b => pure b
  | .error e => fail e.message

/-- `try: …` with keyword arguments, and without them after a `TypeError`. -/
def callEither (h : Helper) (c : NativeCall) : Action Unit := do
  match ← call h c with
  | .ok _ => pure ()
  | .error e =>
      if e.typeError then do
        let _ ← orRaise (← call h c)
      else fail e.message

/-- `getattr(self.desktop, "odesktop", None)`, and whether it is an object. -/
def odesktop (h : Helper) : Action Bool := do
  if ← self (·.desktop) then do
    let r ← call h .odesktop
    orRaise r
  else pure false

/-- `callable(getattr(odesktop, …, None))` -/
def offers (resolved : Bool) (c : NativeCall) : Action Bool :=
  if resolved then ask (.callable c) else pure false

def Setup.hasLock : Bool := host.artifactRoot != ""

def lockTimedOut : String := "timed out waiting for AEDT Desktop automation lock"

def automationGuard {α : Type} (p : Action α) : Action α :=
  if host.hasLock then do
    match ← ask .acquire with
    | .acquired => Throwing.locked .automation p
    | .timedOut => fail lockTimedOut
    | .failed message => fail message
  else p

/-- A `GetVersion`, in which every error is an outcome. -/
def getVersion : Action NativeProbe := do
  let r ← Throwing.attempt do
    let resolved ← odesktop .probe
    if ← offers resolved .getVersion then do
      let _ ← orRaise (← call .probe .getVersion)
    else fail "Desktop GetVersion API is unavailable"
  match r with
  | .ok _ => pure .ok
  | .error _ => pure .failed

def getVersionUnlessBusy : Action NativeProbe :=
  if host.hasLock then do
    match ← ask .acquire with
    | .acquired => Throwing.locked .automation getVersion
    | .timedOut => pure .deferredBusy
    | .failed _ => pure .failed
  else getVersion

def probeCall : Action Unit := do
  let outcome ← getVersionUnlessBusy host
  record (.probeFinished outcome)

/-- `consume_finished_probe`, unless the thread is still alive -/
def consumeProbe : Action NativeProbe := do
  match ← self (·.nativeProbeThread) with
  | .finished outcome => do
      record .probeConsumed
      pure outcome
  | _ => pure .failed

def nativeDesktopResponds : Action NativeProbe := do
  if (← self (·.nativeProbeThread)) == .none then do
    record .probeStarted
    spawn .probe
    consumeProbe
  else consumeProbe

def processId : Action String :=
  if host.desktopProcessId != "" then pure host.desktopProcessId else ask .desktopPid

def unproved (error : String) : Action (Option String) := do
  record (.proof false)
  pure (some error)

/-- `_desktop_process_listener_liveness_proof`, and its error when there is one -/
def processListenerLivenessProof : Action (Option String) := do
  record (.probeOutcome .notRun)
  if !(← self (·.desktop)) then unproved "Desktop proxy is absent" else
  let pid ← processId host
  if pid == "" then unproved "Desktop PID is unavailable" else
  if (← ask .processAlive) != some true then
    unproved ("Desktop PID " ++ pid ++ " is not alive or identity changed") else
  if !(← ask .portListening) then
    unproved ("Desktop gRPC port " ++ toString host.desktopPort ++ " is not listening")
  else do
    record (.proof true)
    pure none

def probeSuspect (failures : ℕ) (elapsed : String) : String :=
  "Desktop native GetVersion probe transiently failed (" ++ toString failures ++
    " consecutive, " ++ elapsed ++ "s)"

def judgeProbe (outcome : NativeProbe) : Action Liveness := do
  record (.probeOutcome outcome)
  match outcome with
  | .deferredBusy => pure .healthy
  | .ok => do
      record .probeRecovered
      pure .healthy
  | _ => do
      record .probeFailed
      let failures ← self (·.nativeProbeFailures)
      let elapsed ← ask .elapsed
      pure (.suspect (probeSuspect failures elapsed))

/-- `_desktop_liveness_proof` -/
def livenessProof : Action Liveness := do
  match ← processListenerLivenessProof host with
  | some error => pure (.dead error)
  | none => do
      let outcome ← nativeDesktopResponds
      judgeProbe outcome

def livenessProofForCommands (commands : Pool.SessionCommands) : Action Liveness :=
  if commands.siblingLiveCount == 0 then livenessProof host
  else do
    match ← processListenerLivenessProof host with
    | some error => pure (.dead error)
    | none => do
        record (.probeOutcome .deferredBusy)
        pure .healthy

def collectMessages (callable : Bool) : Action Unit :=
  if callable then callEither .diagnostics .getMessages else pure ()

def keptSnapshot : Action Bool := do
  if (← self (·.nativeSnapshotPath)) == "" then pure false else ask .snapshotExists

def captureNativeDiagnostics : Action String := do
  if !host.hasLock then pure "" else
  if ← keptSnapshot then self (·.nativeSnapshotPath) else
  let resolved ← odesktop .diagnostics
  let callable ← offers resolved .getMessages
  spawn (.collectMessages callable)
  match ← ask .writeSnapshot with
  | none => pure ""
  | some path => do
      record (.snapshot path)
      pure path

def mayBeOpen (resolved : Bool) : Action Bool :=
  if resolved then do
    match ← call .projectClose .getProjectList with
    | .ok listed => pure listed
    | .error _ => pure true
  else pure true

def closeProjectUnlocked (projectName : String) : Action Unit := do
  let resolved ← odesktop .projectClose
  if !(← mayBeOpen resolved) then pure () else
  if ← ask (.callable (.closeProject projectName)) then
    callEither .projectClose (.closeProject projectName)
  else if resolved then do
    let _ ← orRaise (← call .projectClose (.closeProject projectName))
  else fail "AEDT Desktop object has no project-close API"

def closeProjectBounded (projectName : String) : Action Bool :=
  if host.hasLock then do
    match ← ask .acquire with
    | .acquired => do
        Throwing.locked .automation (closeProjectUnlocked projectName)
        pure true
    | .timedOut => pure false
    | .failed message => fail message
  else do
    closeProjectUnlocked projectName
    pure true

def prepareReleasedProjectWorkspace (leaseId : ℕ) : Action Unit := do
  match ← ask (.prepareWorkspace leaseId) with
  | .ok _ => pure ()
  | .error message => fail message

/-- `_close_and_prepare_project_release`, and whether the project has been closed -/
def closeAndPrepareProjectRelease (lease : Pool.Lease) : Action Bool := do
  if ← closeProjectBounded host lease.projectName then do
    prepareReleasedProjectWorkspace lease.id
    pure true
  else pure false

def stopSimulations : Action Unit := do
  if ← odesktop .globalStop then do
    let _ ← orRaise (← call .globalStop .stopSimulations)
  else fail "AEDT Desktop object has no StopSimulations API"

def globalStop : Action Unit := automationGuard host stopSimulations

def releaseDesktop : Action Unit := do
  if !(← self (·.desktop)) then pure () else
  if ← ask (.callable .releaseDesktop) then callEither .shutdown .releaseDesktop
  record .dropDesktop

def closeDesktop : Action Unit := automationGuard host releaseDesktop

def graceful (stop : Bool) (id : ℕ) : Action Unit := do
  let r ← Throwing.attempt do
    if stop then globalStop host
    closeDesktop host
  record (.closerEnded id (r matches .ok _))

/-- The owned process is killed unless the thread has ended in order and the process with it. -/
def killUnlessEnded (ended alive : Option Bool) : Action (Option Bool) :=
  if ended == some true && alive != some true then pure alive
  else do
    record .dropDesktop
    ask .processAlive

/-- `_bounded_close_desktop`, and whether the end of the process is confirmed.  The join of the
thread may be over at any time. -/
def boundedCloseDesktop (stop : Bool) : Action Bool := do
  let id ← transact fun s ↦ ([.beginClose stop], s.closers.length)
  spawn (.graceful stop id)
  let ended ← self fun s ↦ (s.closers[id]?).join
  let alive ← killUnlessEnded ended (← ask .processAlive)
  let ended ← self fun s ↦ (s.closers[id]?).join
  match alive with
  | none => pure (ended == some true)
  | some alive => pure !alive

end SlurmScheduler.Host
