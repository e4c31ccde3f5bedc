import SlurmScheduler.Pool.LeaseView
import SlurmScheduler.Concurrent.Solo
import Mathlib.Data.Rat.Defs
import Mathlib.Algebra.Order.Field.Rat

namespace SlurmScheduler.Client

open Relational Concurrent Raising
open Pool (Time LeaseState ReservationState CohortState LeaseStatus)

structure AedtProjectLease where
  leaseId : ℕ
  projectName : String := ""
  protocolVersion : ℕ := 1
  state : LeaseState := .queued
  sessionId : ℕ := 0
  sessionGeneration : ℕ := 0
  requestedSessionId : ℕ := 0
  requestedSessionGeneration : ℕ := 0
  failureMessage : String := ""
  exactSessionReservationId : ℕ := 0
  exactSessionReservationState : Option ReservationState := none
  exactSessionReservationFailureMessage : String := ""
  exactSessionCohortState : Option CohortState := none
  exactSessionCohortDeadlineAt : Option Time := none
  exactSessionCohortFailureMessage : String := ""
  solvePermitRequired : Bool := false
  solvePermitGranted : Bool := false
  solvePermitGeneration : ℕ := 0
  nativePipelineExpectedCount : ℕ := 0
  nativePipelineCompletedCount : ℕ := 0
  nativePipelineBarrierGranted : Bool := false
  nativePipelineBarrierBroken : Bool := false

/-- `value or self.field`: an empty value leaves the field as it is. -/
def orKept (value kept : ℕ) : ℕ := if value == 0 then kept else value

def AedtProjectLease.applyStatus (lease : AedtProjectLease) (status : LeaseStatus) :
    AedtProjectLease :=
  { lease with
    state := status.state
    sessionId := orKept status.sessionId lease.sessionId
    sessionGeneration := orKept status.sessionGeneration lease.sessionGeneration
    requestedSessionId := orKept status.requestedSessionId lease.requestedSessionId
    requestedSessionGeneration :=
      orKept status.requestedSessionGeneration lease.requestedSessionGeneration
    failureMessage := status.failureMessage
    exactSessionReservationId :=
      orKept status.exactSessionReservationId lease.exactSessionReservationId
    exactSessionReservationState := status.exactSessionReservationState
    exactSessionReservationFailureMessage := status.exactSessionReservationFailureMessage
    exactSessionCohortState := status.exactSessionCohortState
    exactSessionCohortDeadlineAt := status.exactSessionCohortDeadlineAt
    exactSessionCohortFailureMessage := status.exactSessionCohortFailureMessage
    solvePermitRequired := status.solvePermitRequired
    solvePermitGranted := status.solvePermitGranted
    solvePermitGeneration := orKept status.solvePermitGeneration lease.solvePermitGeneration
    nativePipelineExpectedCount := status.nativePipelineExpectedCount
    nativePipelineCompletedCount := status.nativePipelineCompletedCount
    nativePipelineBarrierGranted := status.nativePipelineBarrierGranted
    nativePipelineBarrierBroken := status.nativePipelineBarrierBroken }

inductive Write
  | applyStatus (status : LeaseStatus)
  | bindProjectName (projectName : String)

def Write.exec : Write → AedtProjectLease → AedtProjectLease
  | applyStatus status, lease => lease.applyStatus status
  | bindProjectName projectName, lease => { lease with projectName }

instance : Statement AedtProjectLease Write := ⟨Write.exec⟩

inductive Request
  | status
  | heartbeat
  | activate
  | solvePermit (sealUnderfilled : Bool)
  | nativePipelineComplete (solvePermitGeneration : ℕ)
  | projectName (projectName : String)

inductive Question
  /-- The request with all its repetitions. -/
  | request (r : Request)
  | monotonic
  | time
  /-- The keepalive process or the heartbeat thread is alive. -/
  | keepaliveAlive
  /-- A timeout of the environment. -/
  | timeout (setting : String)

abbrev Seconds : Type := Option ℚ

/-- A request raises in the end, or it is answered from a state of the server; the text of a
timeout may not be numeric. -/
abbrev Question.Answer (S : Set Pool.Db) : Question → Type
  | request _ => Except String S
  | monotonic => ℚ
  | time => ℚ
  | keepaliveAlive => Bool
  | timeout _ => Option Seconds

variable (svc : Pool.Service) (S : Set Pool.Db)

abbrev Action (α : Type) : Type :=
  Raising AedtProjectLease Write Empty Empty Question (Question.Answer S) α

abbrev Step (α : Type) : Type :=
  Proc AedtProjectLease Write Empty Empty Question (Question.Answer S) α

def ask (q : Question) : Action S (q.Answer S) := liftM (Proc.query q : Step S _)

def self (f : AedtProjectLease → α) : Action S α := liftM (Proc.read f : Step S _)

/-- `_call_with_retry` -/
def call (r : Request) : Action S LeaseStatus := do
  match ← ask S (.request r) with
  | .error e => throw e
  | .ok db => do
      let leaseId ← self S (·.leaseId)
      match svc.leaseStatus db leaseId with
      | none => throw "lease not found"
      | some status => pure status

def applied (r : Request) : Action S LeaseStatus := do
  let status ← call svc S r
  liftM (Proc.write (.applyStatus status) : Step S _)
  pure status

def status : Action S LeaseStatus := applied svc S .status

def heartbeat : Action S LeaseStatus := applied svc S .heartbeat

def bindProjectName (projectName : String) : Action S Unit := do
  let _ ← call svc S (.projectName projectName)
  liftM (Proc.write (.bindProjectName projectName) : Step S _)

def identityDrift (lease : AedtProjectLease) : Option String :=
  if lease.requestedSessionId != 0 && lease.sessionId != 0 &&
      lease.sessionId != lease.requestedSessionId then
    some ("exact-session identity drift while waiting for solve permit: expected session " ++
      toString lease.requestedSessionId ++ ", got " ++ toString lease.sessionId)
  else if lease.requestedSessionGeneration != 0 && lease.sessionGeneration != 0 &&
      lease.sessionGeneration != lease.requestedSessionGeneration then
    some ("exact-session generation drift while waiting for solve permit: expected generation " ++
      toString lease.requestedSessionGeneration ++ ", got " ++ toString lease.sessionGeneration)
  else none

def cohortTerminal (lease : AedtProjectLease) : Bool :=
  lease.exactSessionReservationState.any (fun r ↦
    r == .failed || r == .expired || r == .released) ||
  lease.exactSessionCohortState.any fun c ↦
    c == .failed || c == .expired || c == .broken || c == .released

def quoted (text : String) : String := "'" ++ text ++ "'"

/-- `_raise_for_exact_session_wait_terminal`, when it raises -/
def exactSessionWaitTerminal (lease : AedtProjectLease) : Option String :=
  if lease.exactSessionReservationId == 0 then none else
  match identityDrift lease with
  | some message => some message
  | none =>
      if !cohortTerminal lease then none else
      some ("exact-session cohort became terminal while waiting for solve permit: cohort_state="
        ++ quoted ((lease.exactSessionCohortState.map (·.text)).getD "") ++ ", reservation_state="
        ++ quoted ((lease.exactSessionReservationState.map (·.text)).getD "") ++ ", reason="
        ++ Pool.orDefault lease.exactSessionCohortFailureMessage
          (Pool.orDefault lease.exactSessionReservationFailureMessage
            (Pool.orDefault lease.failureMessage
              "authoritative exact-session cohort became terminal")))

def waitRefused (lease : AedtProjectLease) : Option String :=
  match exactSessionWaitTerminal lease with
  | some message => some message
  | none =>
      if lease.state == .active then none else
      some ("AEDT lease " ++ toString lease.leaseId ++ " became " ++ lease.state.text ++
        " while waiting for solve permit" ++
        if lease.failureMessage == "" then "" else ": " ++ lease.failureMessage)

def raiseFor (check : AedtProjectLease → Option String) : Action S Unit := do
  match ← self S check with
  | some e => throw e
  | none => pure ()

def exactSessionCohortDeadlineRemaining : Action S (Option ℚ) := do
  match ← self S fun l ↦
      if l.exactSessionCohortState == some .waiting then l.exactSessionCohortDeadlineAt else none with
  | none => pure none
  | some deadline => do
      let now ← ask S .time
      pure (some (deadline - now))

def poolFillTimeoutEnv : String := "SLURM_AEDT_POOL_FILL_TIMEOUT_SECONDS"

def maxPoolFillTimeoutSeconds : ℚ := 7200

def timeoutSeconds (given : Option Seconds) (setting : String) : Action S Seconds :=
  match given with
  | some t => pure t
  | none => do
      match ← ask S (.timeout setting) with
      | none => throw (setting ++ " must be numeric")
      | some t => pure t

def fillTimeout (given : Option Seconds) : Action S ℚ := do
  match ← timeoutSeconds S given poolFillTimeoutEnv with
  | some t =>
      if 0 ≤ t ∧ t ≤ maxPoolFillTimeoutSeconds then pure t
      else throw "pooled AEDT fill timeout must be between 0 and 7200 seconds"
  | none => throw "pooled AEDT fill timeout must be between 0 and 7200 seconds"

def refuseNativeAnalyze (cohortRemaining : Option ℚ) (waiting : Bool) : String :=
  if waiting && cohortRemaining.isNone then
    "waiting exact-session cohort has no valid authoritative deadline; refusing native analyze"
  else if waiting then
    "exact-session cohort deadline expired while a sibling attach was still incomplete; " ++
      "refusing native analyze"
  else
    "AEDT solve permit remained unavailable after the bounded fill wait; " ++
      "refusing to start native analyze"

abbrev Next : Type := LeaseStatus ⊕ ℚ

def sealBatch : Action S Next := do
  let latest ← applied svc S (.solvePermit true)
  if ← self S (·.solvePermitGranted) then pure (.inl latest) else
  raiseFor S waitRefused
  let cohortRemaining ← exactSessionCohortDeadlineRemaining S
  let waiting ← self S fun l ↦ l.exactSessionCohortState == some .waiting
  match cohortRemaining with
  | some c =>
      if 0 < c then do
        let now ← ask S .monotonic
        pure (.inr (now + c))
      else throw (refuseNativeAnalyze cohortRemaining waiting)
  | none => throw (refuseNativeAnalyze cohortRemaining waiting)

def examine (deadline : ℚ) (latest : LeaseStatus) : Action S Next := do
  if ← self S (·.solvePermitGranted) then pure (.inl latest) else
  raiseFor S waitRefused
  let now ← ask S .monotonic
  let remaining := deadline - now
  let cohortRemaining ← exactSessionCohortDeadlineRemaining S
  let remaining := (cohortRemaining.map fun c ↦ min remaining (max 0 c)).getD remaining
  if remaining ≤ 0 then sealBatch svc S else pure (.inr deadline)

/-- Without a keepalive the wait is its own heartbeat. -/
def poll (inline : Bool) : Action S LeaseStatus :=
  if inline then heartbeat svc S else status svc S

structure PermitClock where
  deadline : ℚ
  lastInlineHeartbeat : ℚ

def permitRound (clock : PermitClock) : Action S (LeaseStatus ⊕ PermitClock) := do
  let alive ← ask S .keepaliveAlive
  let now ← ask S .monotonic
  let inline := !alive && decide (20 ≤ now - clock.lastInlineHeartbeat)
  let latest ← poll svc S inline
  match ← examine svc S clock.deadline latest with
  | .inl latest => pure (.inl latest)
  | .inr deadline =>
      pure (.inr ⟨deadline, if inline then now else clock.lastInlineHeartbeat⟩)

def waitForSolvePermit (given : Option Seconds) (rounds : ℕ) : Action S (Option LeaseStatus) := do
  if ← self S fun l ↦ decide (l.protocolVersion < 2) || l.solvePermitGranted then do
    let latest ← status svc S
    pure (some latest)
  else do
    let timeout ← fillTimeout S given
    let now ← ask S .monotonic
    let lastInlineHeartbeat ← ask S .monotonic
    iterate (permitRound svc S) rounds ⟨now + timeout, lastInlineHeartbeat⟩

def orWait (latest : LeaseStatus) (rounds : ℕ) : Action S (Option LeaseStatus) := do
  if ← self S fun l ↦ l.solvePermitRequired && !l.solvePermitGranted then
    waitForSolvePermit svc S none rounds
  else pure (some latest)

def cannotActivate (lease : AedtProjectLease) (words : String) : String :=
  "AEDT lease " ++ toString lease.leaseId ++ words ++ lease.state.text

def rebind (projectName : String) : Action S Unit := do
  let normalizedProject := svc.strip projectName
  if ← self S fun l ↦ normalizedProject != "" && normalizedProject != l.projectName then
    bindProjectName svc S normalizedProject
  else pure ()

def activateAttaching : Action S LeaseStatus := do
  raiseFor S fun l ↦
    if l.state == .attaching then none else some (cannotActivate l " cannot activate from ")
  let activated ← applied svc S .activate
  raiseFor S fun l ↦
    if l.state == .active then none else some (cannotActivate l " activation returned ")
  pure activated

def activate (projectName : String) (rounds : ℕ) : Action S (Option LeaseStatus) := do
  rebind svc S projectName
  if ← self S fun l ↦ decide (l.protocolVersion < 2) then do
    let latest ← heartbeat svc S
    pure (some latest)
  else do
    let latest ← status svc S
    if ← self S (·.state == .active) then orWait svc S latest rounds
    else do
      let activated ← activateAttaching svc S
      orWait svc S activated rounds

def nativePipelineTimeoutEnv : String := "AEDT_POOL_NATIVE_PIPELINE_BARRIER_TIMEOUT_SECONDS"

def barrierTimeout (given : Option Seconds) : Action S ℚ := do
  let timeout ← timeoutSeconds S given nativePipelineTimeoutEnv
  match timeout with
  | some t =>
      if given.isNone && !(decide (30 ≤ t) && decide (t ≤ 86400)) then
        throw (nativePipelineTimeoutEnv ++ " must be between 30 and 86400")
      else if 0 < t then pure t
      else throw "native pipeline barrier timeout must be positive"
  | none =>
      throw (if given.isNone then nativePipelineTimeoutEnv ++ " must be between 30 and 86400"
        else "native pipeline barrier timeout must be positive")

def requirePollInterval (pollSeconds : Seconds) : Action S Unit :=
  if pollSeconds.any fun p ↦ decide (0 ≤ p) then pure ()
  else throw "native pipeline barrier poll interval must be non-negative"

def inSealedBatch (lease : AedtProjectLease) : Bool :=
  lease.state == .active && lease.solvePermitGranted && lease.solvePermitGeneration != 0

def requireSealedBatch : Action S Unit := do
  if ← self S inSealedBatch then pure ()
  else do
    let _ ← status svc S
    raiseFor S fun l ↦ if inSealedBatch l then none
      else some "native pipeline barrier requires an active sealed lease"

def barrierRefused (generation : ℕ) (lease : AedtProjectLease) : Option String :=
  if lease.nativePipelineBarrierBroken then
    some "native pipeline cohort broke before every member completed"
  else if lease.state != .active then
    some ("AEDT lease " ++ toString lease.leaseId ++ " became " ++ lease.state.text ++
      " while waiting for native pipeline completion")
  else if lease.solvePermitGeneration != generation then
    some "native pipeline solve generation changed while waiting"
  else none

def barrierTimedOut (lease : AedtProjectLease) : String :=
  "timed out waiting for sealed AEDT cohort native pipeline completion (" ++
    toString lease.nativePipelineCompletedCount ++ "/" ++
    toString lease.nativePipelineExpectedCount ++ ")"

/-- One round of `wait_for_native_pipeline_barrier` -/
def barrierRound (generation : ℕ) (deadline : ℚ) (latest : LeaseStatus) :
    Action S (LeaseStatus ⊕ LeaseStatus) := do
  if ← self S (·.nativePipelineBarrierGranted) then pure (.inl latest) else
  raiseFor S (barrierRefused generation)
  let now ← ask S .monotonic
  if deadline - now ≤ 0 then throw (← self S barrierTimedOut) else
  let latest ← status svc S
  pure (.inr latest)

def waitForNativePipelineBarrier (given : Option Seconds) (pollSeconds : Seconds) (rounds : ℕ) :
    Action S (Option LeaseStatus) := do
  if ← self S fun l ↦ decide (l.protocolVersion < 2) then do
    let latest ← status svc S
    pure (some latest)
  else do
    requireSealedBatch svc S
    let timeout ← barrierTimeout S given
    requirePollInterval S pollSeconds
    let generation ← self S (·.solvePermitGeneration)
    let latest ← applied svc S (.nativePipelineComplete generation)
    let now ← ask S .monotonic
    iterate (barrierRound svc S generation (now + timeout)) rounds latest

inductive Wait
  | activate (projectName : String)
  | solvePermit (fillTimeoutSeconds : Option Seconds)
  | nativePipelineBarrier (timeoutSeconds : Option Seconds) (pollSeconds : Seconds)

/-- The call, in which a loop makes so many rounds at most. -/
def Wait.run (rounds : ℕ) : Wait → Action S (Option LeaseStatus)
  | activate projectName => Client.activate svc S projectName rounds
  | solvePermit given => waitForSolvePermit svc S given rounds
  | nativePipelineBarrier given pollSeconds =>
      waitForNativePipelineBarrier svc S given pollSeconds rounds

end SlurmScheduler.Client
