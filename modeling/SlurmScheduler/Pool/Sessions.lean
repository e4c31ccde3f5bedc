import SlurmScheduler.Pool.Leases

namespace SlurmScheduler.Pool

open Relational PoolTx

def Service.authorizeBootstrap (svc : Service) (token : String) : PoolTx Unit :=
  Tx.require (svc.bootstrapToken != "" && svc.bootstrapToken == token)
    (.permission "invalid session-host bootstrap token")

/-- The session a host's token opens, from a state of the database. -/
def Service.authorizeSession (svc : Service) (db : Db) (sid : ℕ) (token : String) :
    Except PoolError Session :=
  match db.sessions.find? sid with
  | none => .error (.key sid)
  | some s =>
      if s.hostTokenHash != "" && s.hostTokenHash == svc.tokenHash token then .ok s
      else .error (.permission "invalid session token")

def getSession (sid : ℕ) : PoolTx Session := do
  let session ← read (·.sessions.find? sid)
  require session (.key sid)

structure StartClaim where
  allocationId : ℕ
  nodeName : String
  hostId : String
  actualNodeName : String := ""
  slurmJobId : String := ""
  hostProcessId : String := ""
  bootstrapToken : String
  sessionId : ℕ := 0

/-- The starting row a host may take: the one it names, or its own, or the oldest unclaimed. -/
def Db.claimableStart (db : Db) (q : StartClaim) (nodeName hostId : String) : Option Session :=
  let rows := db.sessions.select fun s ↦ s.state == .starting &&
    s.allocationId == q.allocationId && s.nodeName == nodeName &&
    (s.hostId == "" || s.hostId == hostId)
  if q.sessionId != 0 then rows.find? (·.id == q.sessionId)
  else (rows.find? (·.hostId == hostId)).orElse fun _ ↦ rows.head?

def Service.claimStart (svc : Service) (env : Env) (q : StartClaim) : PoolTx (Option Session) := do
  svc.authorizeBootstrap q.bootstrapToken
  let hostId := svc.strip q.hostId
  check (hostId != "") "host_id is required"
  let actualNode := svc.strip q.actualNodeName
  let slurmJob := svc.strip q.slurmJobId
  let row ← read (·.claimableStart q (svc.strip q.nodeName) hostId)
  match row with
  | none => return none
  | some s =>
      let allocation ← read (·.allocationOf s)
      let a ← require allocation (.value "session allocation no longer exists")
      let expectedNode := orDefault s.nodeName a.nodeName
      check (actualNode == "" || svc.shortNodeName actualNode == svc.shortNodeName expectedNode)
        ("host is running on " ++ actualNode ++ ", expected " ++ expectedNode)
      let expectedJob := svc.strip a.slurmJobId
      check (slurmJob == "" || expectedJob == "" || slurmJob == expectedJob)
        ("host Slurm job " ++ slurmJob ++ " does not own allocation " ++ toString q.allocationId ++
          " (" ++ expectedJob ++ ")")
      let task ← read (·.tasks.find? s.hostTaskId)
      check (s.hostTaskId == 0 || task.isSome) "session host task no longer exists"
      check (s.hostTaskId == 0 || task.any fun t ↦
          t.requestedAllocationId == q.allocationId && t.allocationId == q.allocationId &&
          (t.status == .attaching || t.status == .running))
        "session host task is not pinned to its allocation"
      write (.claimStart s.id hostId (orDefault actualNode expectedNode)
        (orDefault slurmJob expectedJob) (svc.strip q.hostProcessId) env.now)
      read (·.sessions.find? s.id)

structure RegistrationRequest where
  sessionId : ℕ
  hostId : String
  endpoint : String
  processId : String
  artifactDir : String := ""
  errorLogPath : String := ""
  journalPath : String := ""
  runtimeMetadata : String := "{}"
  sessionProfile : String := ""
  bootstrapToken : String
  hostToken : String := ""
  generatedToken : String := ""

def Session.startTimedOut (s : Session) (hostId : String) : Bool :=
  s.hostId == hostId && s.state == .unhealthy &&
    s.failureMessage == sessionStartAckTimeoutMessage && s.startedAt.isNone && s.hostTokenHash == ""

def Db.allocationUnhealthy (db : Db) (aid : ℕ) : Bool :=
  db.sessions.rows.any fun s ↦ s.allocationId == aid &&
    (s.state == .unhealthy || s.quarantineReason != "")

/-- The transaction of `register_session`; a reconcile pass follows it. -/
def Service.registerSession (svc : Service) (env : Env) (q : RegistrationRequest) :
    PoolTx Unit := do
  svc.authorizeBootstrap q.bootstrapToken
  let hostId := svc.strip q.hostId
  check (hostId != "") "host_id is required"
  let profile ← lift (svc.canonicalExpectedSessionProfile q.sessionProfile)
  let presented := svc.strip q.hostToken
  let issued := orDefault presented q.generatedToken
  let s ← getSession q.sessionId
  check (s.sessionProfile == "" || s.sessionProfile == profile)
    "session host profile does not match admitted lease profile"
  let ownsClaim := s.hostId == hostId
  let sameRegistration := ownsClaim && presented != "" && s.hostTokenHash != "" &&
    s.hostTokenHash == svc.tokenHash presented && s.endpoint == svc.strip q.endpoint &&
    s.processId == svc.strip q.processId
  -- the response to a committed registration was lost: nothing is rotated
  if sameRegistration && (s.state.serving || s.state == .unhealthy) then return ()
  let recoveredStart := s.startTimedOut hostId
  check (s.state == .starting || recoveredStart) "session start claim is not owned by this host"
  check ownsClaim "session start claim is not owned by this host"
  let allocation ← read (·.allocationOf s)
  check (!recoveredStart || allocation.any (·.state.drainable))
    "session allocation is no longer available"
  let foreignDrain := recoveredStart && allocation.any fun a ↦
    a.state == .draining && a.drainReason != unhealthyAllocationRecycleReason
  let state : SessionState := if env.cfg.enabled && !foreignDrain then .ready else .draining
  write (.registerSession s.id state
    { endpoint := svc.strip q.endpoint, processId := svc.strip q.processId
      artifactDir := svc.strip q.artifactDir, errorLogPath := svc.strip q.errorLogPath
      journalPath := svc.strip q.journalPath, runtimeMetadata := q.runtimeMetadata
      sessionProfile := profile, tokenHash := svc.tokenHash issued } env.now)
  if recoveredStart && state == .ready then
    let unhealthy ← read (·.allocationUnhealthy s.allocationId)
    if !unhealthy then write (.restoreAllocation s.allocationId env.now)

def Service.failSessionStart (svc : Service) (env : Env) (sid : ℕ) (hostId bootstrapToken : String)
    (failure : StartFailure) : PoolTx Unit := do
  svc.authorizeBootstrap bootstrapToken
  let owned ← read fun db ↦ (db.sessions.find? sid).any fun s ↦
    s.state == .starting && s.hostId == svc.strip hostId
  check owned "session start claim is not owned by this host"
  write (.failSessionStart sid (svc.strip hostId)
    { failure with
      message := orDefault (svc.strip failure.message) "AEDT session start failed"
      artifactDir := svc.strip failure.artifactDir
      errorLogPath := svc.strip failure.errorLogPath
      journalPath := svc.strip failure.journalPath } env.now)

def Service.failUnclaimedSessionStart (svc : Service) (env : Env) (sid : ℕ) (reason : String) :
    PoolTx Unit :=
  write (.failUnclaimedStart sid
    (orDefault (svc.strip reason) "AEDT session host reservation failed") env.now)

def bindSessionHostTask (env : Env) (sid taskId : ℕ) : PoolTx Unit := do
  let session ← read (·.sessions.find? sid)
  let task ← read (·.tasks.find? taskId)
  let s ← require session (.value "session or host task no longer exists")
  let t ← require task (.value "session or host task no longer exists")
  check (t.requestedAllocationId == s.allocationId) "session host task is not allocation-pinned"
  check (s.state == .starting && (s.hostTaskId == 0 || s.hostTaskId == taskId))
    "session host task is already owned"
  write (.bindHostTask sid taskId t.stdoutPath t.stderrPath env.now)

structure SessionHeartbeat where
  livenessConfirmed : Bool := true
  processId : String := ""
  port : ℕ := 0
  nativeProbe : String := ""

def SessionState.text : SessionState → String
  | .starting => "starting" | .ready => "ready" | .busy => "busy" | .draining => "draining"
  | .unhealthy => "unhealthy" | .failed => "failed" | .closed => "closed"

def Service.validateSessionHeartbeat (svc : Service) (s : Session) (q : SessionHeartbeat) :
    PoolTx Unit := do
  check (s.state.serving || s.state == .unhealthy) ("session is " ++ s.state.text)
  check q.livenessConfirmed "host heartbeat requires fresh Desktop liveness proof"
  check (q.processId == "" || svc.strip q.processId == s.processId)
    "heartbeat Desktop process_id does not match registration"
  check (q.port == 0 || q.port == svc.endpointPort s.endpoint)
    "heartbeat Desktop port does not match registration"
  check (q.nativeProbe == "" || q.nativeProbe == "GetVersion")
    "unsupported Desktop native liveness probe"

def Service.boolSetting (svc : Service) (value : String) : Bool :=
  ["1", "true", "yes", "on"].contains (svc.lower (svc.strip value))

def Db.setting (db : Db) (key default : String) : String :=
  ((db.settings.find? (·.1 == key)).map (·.2)).getD default

/-- `pool_operational` as `heartbeat_session` computes it. -/
def Db.poolOperational (db : Db) (svc : Service) : Bool :=
  svc.boolSetting (db.setting "aedt_pool_enabled" "0") &&
  svc.boolSetting (db.setting "aedt_pool_adapter_ready" "0") &&
  (db.validations.rows.getLast?).any (·.passed)

def Db.recoverableAllocation (db : Db) (s : Session) : Bool :=
  (db.allocationOf s).any fun a ↦ a.state.serving ||
    (a.state == .draining && a.drainReason == unhealthyAllocationRecycleReason)

def Db.reuseBarrierClearable (db : Db) (sid : ℕ) (now : Time) : Bool :=
  (db.sessions.find? sid).any fun s ↦ s.reuseBlockedAt.any (· < now) && s.state.assignable &&
    s.failureMessage == "" && s.quarantineReason == "" &&
    !db.leases.rows.any fun l ↦ l.sessionId == some sid && l.state == .releasing

def Service.heartbeatSession (svc : Service) (env : Env) (sid : ℕ) (token : String)
    (q : SessionHeartbeat) : PoolTx Unit := do
  let candidate ← lift (svc.authorizeSession env.seen sid token)
  svc.validateSessionHeartbeat candidate q
  -- the heartbeat of a healthy session is written once per interval
  if candidate.state.assignable && candidate.failureMessage == "" &&
      candidate.quarantineReason == "" && candidate.reuseBlockedAt.isNone &&
      heartbeatIsFresh candidate.lastHeartbeatAt env.now
        (heartbeatPersistInterval env.cfg.sessionHeartbeatTimeoutSeconds sid) then return ()
  let session ← read (svc.authorizeSession · sid token)
  let s ← lift session
  svc.validateSessionHeartbeat s q
  let operational ← read (·.poolOperational svc)
  let cleared ← read (·.reuseBarrierClearable sid env.now)
  if s.reuseBlockedAt.isSome then write (.clearReuseBarrier sid env.now)
  let recoverable ← read (·.recoverableAllocation s)
  if operational && s.state == .unhealthy && recoverableMessage s.failureMessage &&
      s.quarantineReason == "" && recoverable then
    write (.recoverSession sid env.now)
    -- cancel the recycle drain only after every sibling has recovered
    let unhealthy ← read (·.allocationUnhealthy s.allocationId)
    if !unhealthy then write (.restoreAllocation s.allocationId env.now)
  else write (.touchSession sid env.now)
  if cleared && operational then placeQueuedLeases env.cfg env.now env.clock none true

def Service.completeRelease (svc : Service) (env : Env) (sid : ℕ) (token : String) (leaseId : ℕ)
    (success : Bool) (failureMessage : String) : PoolTx Unit := do
  let _ ← lift (svc.authorizeSession env.seen sid token)
  let failure := if success then "" else svc.strip failureMessage
  let lease ← read fun db ↦ (db.leases.find? leaseId).filter (·.sessionId == some sid)
  let l ← require lease (.key leaseId)
  if l.state != .releasing then
    check (l.state == (if success then .released else .failed) && l.failureMessage == failure)
      (leaseIs l.state)
  else
    write (.completeRelease sid leaseId success failure env.now)
    refreshExactSessionReservations env.now
    if env.cfg.operational then placeQueuedLeases env.cfg env.now env.clock none true

inductive SessionFaultKind
  | confirmedAedtDeath | nativeProbeSuspect
  deriving DecidableEq, Repr

def SessionFaultKind.parse : String → Option SessionFaultKind
  | "confirmed_aedt_death" => some .confirmedAedtDeath
  | "native_probe_suspect" => some .nativeProbeSuspect
  | _ => none

structure SessionFault where
  kind : String
  failureMessage : String := ""
  evidence : Evidence := {}

def Db.liveNativeOwner (db : Db) (sid : ℕ) (now : Time) : Bool :=
  db.leases.rows.any fun l ↦ l.sessionId == some sid &&
    (l.state == .leased || l.state.ownsProject) && decide (now ≤ l.expiresAt)

def Service.reportSessionFault (svc : Service) (env : Env) (sid : ℕ) (token : String)
    (fault : SessionFault) : PoolTx Unit := do
  let s ← lift (svc.authorizeSession env.seen sid token)
  let kind ← require (SessionFaultKind.parse (svc.lower (svc.strip fault.kind)))
    (.value "session fault kind must be confirmed_aedt_death or native_probe_suspect")
  let message := orDefault (svc.strip fault.failureMessage)
    "session host confirmed AEDT process death"
  match kind with
  | .nativeProbeSuspect =>
      let owner ← read (·.liveNativeOwner sid env.now)
      write (.suspectNative sid message fault.evidence owner env.now)
  | .confirmedAedtDeath => write (.confirmDeath sid s.allocationId message fault.evidence env.now)

/-- `DEAD_SESSION_IDENTITY_FIELDS` -/
structure DeadIdentity where
  generation : ℕ
  allocationId : ℕ
  hostId : String
  hostTaskId : ℕ
  hostProcessId : String
  processId : String

def Session.deadIdentity (svc : Service) (s : Session) : DeadIdentity where
  generation := s.generation
  allocationId := s.allocationId
  hostId := svc.strip s.hostId
  hostTaskId := s.hostTaskId
  hostProcessId := svc.strip s.hostProcessId
  processId := svc.strip s.processId

def DeadIdentity.complete (i : DeadIdentity) : Bool :=
  i.generation != 0 && i.allocationId != 0 && i.hostId != "" && i.hostTaskId != 0 &&
    i.hostProcessId != "" && i.processId != ""

def DeadIdentity.mismatch (actual expected : DeadIdentity) : Option String :=
  ([("generation", actual.generation == expected.generation),
    ("allocation_id", actual.allocationId == expected.allocationId),
    ("host_id", actual.hostId == expected.hostId),
    ("host_task_id", actual.hostTaskId == expected.hostTaskId),
    ("host_process_id", actual.hostProcessId == expected.hostProcessId),
    ("process_id", actual.processId == expected.processId)].find? (!·.2)).map (·.1)

/-- `_validate_dead_session_reap_candidate` -/
def Service.validateReapCandidate (svc : Service) (db : Db) (sid : ℕ) (expected : DeadIdentity) :
    Except PoolError Session :=
  match db.sessions.find? sid with
  | none => .error (.key sid)
  | some s =>
      if !(s.state == .unhealthy || s.state == .draining) then
        .error (.value "dead-session reap requires an unhealthy or draining session")
      else if !expected.complete then
        .error (.value "complete expected session identity is required")
      else match (s.deadIdentity svc).mismatch expected with
        | some field =>
            .error (.value ("session " ++ field ++ " does not match expected identity"))
        | none =>
            if db.leases.rows.any (fun l ↦ l.sessionId == some sid && l.state.live) then
              .error (.value "dead-session reap requires zero live project leases")
            else match db.tasks.find? s.hostTaskId with
              | none => .error (.value "session host task no longer exists")
              | some t =>
                  if !t.status.terminal then
                    .error (.value "session host task is not terminal")
                  else if t.requestedAllocationId != s.allocationId ||
                      t.allocationId != s.allocationId then
                    .error (.value "session host task identity does not match its allocation")
                  else .ok s

/-- The writing transaction of `reap_dead_session`; `processesAbsent` is the remote probe. -/
def Service.reapDeadSession (svc : Service) (env : Env) (sid : ℕ) (expected : DeadIdentity)
    (processesAbsent : Bool) : PoolTx Unit := do
  let candidate ← lift (svc.validateReapCandidate env.seen sid expected)
  check processesAbsent "session host or AEDT process identity is still present"
  let current ← read (svc.validateReapCandidate · sid expected)
  let s ← lift current
  check (s.state == candidate.state && s.generation == candidate.generation &&
      s.allocationId == candidate.allocationId && s.accountName == candidate.accountName &&
      s.nodeName == candidate.nodeName && s.hostId == candidate.hostId &&
      s.hostTaskId == candidate.hostTaskId && s.hostProcessId == candidate.hostProcessId &&
      s.hostSlurmJobId == candidate.hostSlurmJobId &&
      s.actualNodeName == candidate.actualNodeName && s.endpoint == candidate.endpoint &&
      s.processId == candidate.processId && s.lastHeartbeatAt == candidate.lastHeartbeatAt &&
      s.updatedAt == candidate.updatedAt)
    "session changed during process identity probe"
  write (.reapDeadSession sid candidate.state candidate.updatedAt env.now)

def Service.closeSession (svc : Service) (env : Env) (sid : ℕ) (token : String)
    (closure : Closure) : PoolTx Unit := do
  let _ ← lift (svc.authorizeSession env.seen sid token)
  let s ← getSession sid
  let live ← read (·.used sid)
  check (!(0 < live && closure.success)) "session still has live project leases"
  write (.closeSession sid s.allocationId
    { closure with message := svc.strip closure.message } live
    (env.clock + env.cfg.leaseTtlSeconds) env.now)

end SlurmScheduler.Pool
