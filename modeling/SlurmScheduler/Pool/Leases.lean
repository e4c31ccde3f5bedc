import SlurmScheduler.Pool.Placement

namespace SlurmScheduler.Pool

open Relational PoolTx

/-- What one call sees of the world: the configuration and the clock, read when the call
starts, and `seen`, the state from which it reads before its transaction. -/
structure Env where
  cfg : AedtPoolConfig
  now : Time
  clock : Time
  seen : Db

structure LeaseArgs where
  requestKey : String
  projectName : String
  placementGroup : Option String := none
  workloadFamily : String := ""
  sessionProfile : String := ""
  projectNamespace : String := ""
  isolationPolicy : String := "family"
  workspacePath : String := ""
  protocolVersion : ℕ := 1
  clientDeadlineAt : Option Time := none
  admissionTimeoutSeconds : Option ℕ := none
  clientToken : String := ""
  taskId : ℕ := 0
  allocationId : ℕ := 0
  nodeName : String := ""
  requestedSessionId : ℕ := 0
  exclusiveSession : Bool := false
  /-- `latest_validation()`, read before the transaction -/
  latestValidation : Option Validation := none
  /-- `secrets.token_urlsafe(32)`, for a caller without a token -/
  generatedToken : String := ""

def authorizeExactSessionReservation (taskId requestedSessionId : ℕ) (profile family : String)
    (policy : IsolationPolicy) (requestKey tokenHash : String) (now cutoff : Time) :
    PoolTx (Option Reservation) := do
  if taskId == 0 then
    check (requestedSessionId == 0)
      "requested_session_id requires a bootstrap-issued task reservation"
    return none
  let reservation ← read (·.latestReservation taskId)
  match reservation with
  | none =>
      check (requestedSessionId == 0)
        "requested_session_id has no bootstrap-issued task reservation"
      return none
  | some r =>
      check (requestedSessionId == 0 || requestedSessionId == r.sessionId)
        "requested_session_id does not match task reservation"
      check (r.sessionProfile == profile) "lease session profile does not match task reservation"
      check (r.workloadFamily == "" ||
          (r.workloadFamily == family && r.isolationPolicy == some policy))
        "lease workload isolation does not match task reservation"
      let existing ← read (·.leaseOf r)
      if existing.any fun l ↦ l.requestKey == requestKey && l.clientTokenHash == tokenHash then
        return some r
      check (!(r.leaseId.isSome && (r.state == .claimed || r.state == .consumed)))
        "exact-session task reservation is already claimed"
      check (r.state == .reserved) (orDefault r.failureMessage
        "task exact-session reservation is no longer active; unpinned fallback is forbidden")
      check (now < r.expiresAt) "exact-session reservation expired"
      let session ← read (·.sessions.find? r.sessionId)
      let s ← require (session.filter (·.state.assignable))
        (.value "reserved AEDT session is not assignable")
      check (s.generation == r.sessionGeneration) "reserved AEDT session generation drifted"
      check (s.sessionProfile == r.sessionProfile) "reserved AEDT session profile drifted"
      check (s.solveBatchSealedAt.isNone && s.drainRequestedAt.isNone)
        "reserved AEDT session is sealed or draining"
      let serving ← read (·.allocationServing s)
      check serving "reserved AEDT session allocation is unavailable"
      check (s.lastHeartbeatAt.any (cutoff ≤ ·)) "reserved AEDT session heartbeat is stale"
      return some r

def Db.replaceable (db : Db) (now : Time) (l : Lease) : Bool :=
  l.state.terminal ||
  (l.state == .queued && (decide (l.expiresAt ≤ now) || !(l.clientDeadlineAt.any (now < ·)) ||
    db.taskTerminal l.taskId)) ||
  (l.state == .offered && (!(l.offerExpiresAt.any (now < ·)) || db.taskTerminal l.taskId))

def resolveAffinity (svc : Service) (taskId allocationId : ℕ) (nodeName : String) :
    PoolTx (ℕ × String) := do
  if allocationId == 0 then return (0, "")
  let task ← read (·.tasks.find? taskId)
  match task.filter fun _ ↦ taskId != 0 with
  | none => return (allocationId, nodeName)
  | some t =>
      check (t.allocationId != 0) "task has no active allocation for affinity"
      check (allocationId == t.allocationId) "requested allocation does not belong to task_id"
      let node ← read fun db ↦ ((db.allocations.find? t.allocationId).map (·.nodeName)).getD ""
      check (nodeName == "" || svc.shortNodeName nodeName == svc.shortNodeName node)
        "requested node does not belong to task_id"
      return (t.allocationId, node)

def supersede (requestKey : String) (old : Lease) (now : Time) : PoolTx Unit := do
  let replaceable ← read (·.replaceable now old)
  check replaceable ("request_key is owned by a live lease; reuse the original client token " ++
    "or wait for terminal cleanup")
  let archivedKey := requestKey ++ "#superseded:" ++ toString old.id
  let taken ← read fun db ↦ db.leases.rows.any (·.requestKey == archivedKey)
  Tx.require (!taken) (.integrity "UNIQUE(request_key)")
  if old.state.terminal then write (.archiveRequestKey old.id archivedKey now)
  else write (.supersedeLease old.id old.sessionId archivedKey now)

/-- The `INSERT` of a new lease together with the claims of its reservation and canary slot. -/
def createLease (q : LeaseRequest) (reservation : Option Reservation)
    (canary : Option (CanarySlot × Admission)) (now : Time) : PoolTx ℕ := do
  let duplicate ← read fun db ↦
    db.leases.rows.any fun l ↦ l.projectName == q.projectName && l.state.live
  check (!(duplicate && 2 ≤ q.protocolVersion)) "project_name is already owned by a live lease"
  let leaseId ← read (·.leases.nextKey)
  let claimable ← read fun db ↦ reservation.all fun r ↦ db.reservations.rows.any fun x ↦
    x.id == r.id && x.state == .reserved && x.leaseId.isNone
  check claimable "exact-session task reservation was consumed concurrently"
  let slotFree ← read fun db ↦ canary.all fun c ↦ db.canarySlots.rows.any fun x ↦
    x.id == c.1.id && x.leaseId.isNone
  check slotFree "mixed canary task slot was consumed concurrently"
  write (.admitLease q reservation canary now)
  return leaseId

def admitOrReplay (q : LeaseRequest) (reservation : Option Reservation)
    (canary : Option (CanarySlot × Admission)) (now : Time) : PoolTx ℕ := do
  let existing ← read fun db ↦ db.leases.rows.find? (·.requestKey == q.requestKey)
  match existing.filter (·.clientTokenHash == q.clientTokenHash) with
  | some l => return l.id
  | none =>
      match existing with
      | some old => supersede q.requestKey old now
      | none => pure ()
      createLease q reservation canary now

def Service.leaseProfile (svc : Service) (args : LeaseArgs) : Except PoolError String :=
  if 2 ≤ args.protocolVersion then svc.canonicalExpectedSessionProfile args.sessionProfile
  else .ok (svc.strip args.sessionProfile)

def authorizeCanary (required reserved : Bool) (taskId : ℕ)
    (requestKey tokenHash family projectNamespace profile : String) (protocolVersion : ℕ)
    (now : Time) : PoolTx (Option (CanarySlot × Admission)) := do
  if !required then return none
  let c ← authorizeMixedCanaryLease taskId requestKey tokenHash family projectNamespace profile
    protocolVersion now
  check (!reserved) "exact-session reservation cannot be combined with mixed canary admission"
  return some c

def Service.requestLease (svc : Service) (env : Env) (args : LeaseArgs) : PoolTx Lease := do
  let requestKey := svc.strip args.requestKey
  let projectName := svc.strip args.projectName
  check (requestKey != "") "request_key is required"
  check (projectName != "") "project_name is required"
  let placementGroup := match args.placementGroup with
    | none => svc.lower (svc.strip projectName)
    | some group => svc.strip group
  check (args.placementGroup.isNone || placementGroup != "") "placement_group must not be empty"
  check (args.protocolVersion == 1 || args.protocolVersion == 2) "protocol_version must be 1 or 2"
  let family := svc.canonicalWorkloadFamily args.workloadFamily projectName
  check (args.protocolVersion < 2 || svc.strip args.workloadFamily != "")
    "protocol-v2 workload_family is required"
  check (args.protocolVersion < 2 || svc.strip args.workspacePath != "")
    "protocol-v2 workspace_path is required"
  let profile ← lift (svc.leaseProfile args)
  let policy ← require (svc.parseIsolationPolicy args.isolationPolicy)
    (.value "isolation_policy must be family, shared_if_compatible, or exclusive")
  let canaryRequired := policy == .sharedIfCompatible &&
    !(args.latestValidation.any fun v ↦ v.passed && v.mixedFamilyIsolationPassed)
  let token := orDefault (svc.strip args.clientToken) args.generatedToken
  check (16 ≤ token.length) "client_token must contain at least 16 characters"
  check (!(args.clientDeadlineAt.isSome && args.admissionTimeoutSeconds.isSome))
    "provide client_deadline_at or admission_timeout_seconds, not both"
  check (args.admissionTimeoutSeconds.all fun t ↦ 30 ≤ t && t ≤ 3600)
    "admission_timeout_seconds must be an integer between 30 and 3600"
  let deadline := args.clientDeadlineAt.getD
    (env.now + args.admissionTimeoutSeconds.getD env.cfg.admissionDeadlineSeconds)
  check (env.now < deadline) "client_deadline_at must be in the future"
  let nodeName := if args.allocationId == 0 then "" else svc.strip args.nodeName
  refreshMixedCanaryAdmissions env.now
  refreshExactSessionReservations env.now
  let (allocationId, nodeName) ← resolveAffinity svc args.taskId args.allocationId nodeName
  let tokenHash := svc.tokenHash token
  let reservation ← authorizeExactSessionReservation args.taskId args.requestedSessionId profile
    family policy requestKey tokenHash env.now (env.now - env.cfg.sessionHeartbeatTimeoutSeconds)
  let canary ← authorizeCanary canaryRequired reservation.isSome args.taskId requestKey tokenHash
    family (svc.strip args.projectNamespace) profile args.protocolVersion env.now
  let leaseId ← admitOrReplay
    { requestKey, projectName
      -- the operator's admission, not the lease payload, owns the group
      placementGroup := (canary.map (·.2.placementGroup)).getD placementGroup
      workloadFamily := family, sessionProfile := profile
      projectNamespace := svc.strip args.projectNamespace, isolationPolicy := policy
      workspacePath := svc.strip args.workspacePath, protocolVersion := args.protocolVersion
      taskId := args.taskId, requestedAllocationId := allocationId
      requestedNodeName := nodeName
      exclusiveSession := args.exclusiveSession || policy == .exclusive
      clientTokenHash := tokenHash, expiresAt := env.now + env.cfg.leaseTtlSeconds
      clientDeadlineAt := deadline } reservation canary env.now
  if env.cfg.operational then placeQueuedLeases env.cfg env.now env.clock (some [leaseId]) false
  let lease ← read (·.leases.find? leaseId)
  require lease (.key leaseId)

/-- The lease a client's token opens, from a state of the database. -/
def Service.authorizeLease (svc : Service) (db : Db) (leaseId : ℕ) (token : String) :
    Except PoolError Lease :=
  match db.leases.find? leaseId with
  | none => .error (.key leaseId)
  | some l =>
      if l.clientTokenHash == svc.tokenHash token then .ok l
      else .error (.permission "invalid lease token")

def LeaseState.text : LeaseState → String
  | .queued => "queued" | .offered => "offered" | .leased => "leased"
  | .attaching => "attaching" | .active => "active" | .releasing => "releasing"
  | .released => "released" | .failed => "failed" | .cancelled => "cancelled"
  | .expired => "expired"

def leaseIs (state : LeaseState) : String := "lease is " ++ state.text

def getLease (leaseId : ℕ) : PoolTx Lease := do
  let lease ← read (·.leases.find? leaseId)
  require lease (.key leaseId)

/-- `_heartbeat_persist_interval_seconds` -/
def heartbeatPersistInterval (timeoutSeconds identity : ℕ) : ℕ :=
  let ceiling := max 1 (min 30 (max 1 (timeoutSeconds / 3)))
  let spread := min 6 (ceiling - 1)
  ceiling - if spread == 0 then 0 else identity % (spread + 1)

def heartbeatIsFresh (at_ : Option Time) (now : Time) (interval : ℕ) : Bool :=
  at_.any fun t ↦ decide (t ≤ now) && decide (now - t < max 1 interval)

def heartbeatPhases : List String :=
  ["", "waiting", "attaching", "solving", "postprocess", "releasing"]

def Service.heartbeatLease (svc : Service) (env : Env) (leaseId : ℕ) (token phase : String) :
    PoolTx Lease := do
  let phase := svc.lower (svc.strip phase)
  check (heartbeatPhases.contains phase) "invalid lease heartbeat phase"
  let candidate ← lift (svc.authorizeLease env.seen leaseId token)
  check candidate.state.live (leaseIs candidate.state)
  -- an unchanged and still fresh heartbeat of an owner is not written
  if candidate.state.ownsProject && (phase == "" || phase == candidate.faultPhase) &&
      heartbeatIsFresh (some candidate.lastHeartbeatAt) env.now
        (heartbeatPersistInterval env.cfg.leaseTtlSeconds leaseId) then
    let current ← getLease leaseId
    check current.state.live (leaseIs current.state)
    return current
  let lease ← read (svc.authorizeLease · leaseId token)
  let l ← lift lease
  check l.state.live (leaseIs l.state)
  write (.heartbeatLease leaseId l.state l.clientTokenHash phase
    (env.now + env.cfg.leaseTtlSeconds) (env.now + env.cfg.offerAckSeconds) env.now)
  if l.state == .queued && env.cfg.operational then
    placeQueuedLeases env.cfg env.now env.clock (some [leaseId]) true
  getLease leaseId

/-- `exact_target_invalid`: the offer's reservation no longer stands behind it. -/
def exactTargetInvalid (l : Lease) (reservation : Option Reservation) : Bool :=
  l.exactSessionReservationId != 0 && match reservation with
  | none => true
  | some r =>
      r.state != .consumed || r.leaseId != some l.id || some r.sessionId != l.sessionId ||
      r.sessionGeneration != l.requestedSessionGeneration || r.sessionProfile != l.sessionProfile ||
      (r.workloadFamily != "" && (r.workloadFamily != l.workloadFamily ||
        r.isolationPolicy != some l.isolationPolicy))

/-- `hard_target_invalid`: the offered Desktop cannot be attached to. -/
def Db.hardTargetInvalid (db : Db) (cutoff : Time) (l : Lease) (reservation : Option Reservation) :
    Bool :=
  exactTargetInvalid l reservation || match db.sessionOf l with
  | none => true
  | some s =>
      !s.state.assignable || !db.allocationServing s || s.solveBatchSealedAt.isSome ||
      s.drainRequestedAt.isSome ||
      (l.requestedSessionId != 0 && s.id != l.requestedSessionId) ||
      (l.requestedSessionGeneration != 0 && s.generation != l.requestedSessionGeneration) ||
      s.sessionProfile != l.sessionProfile || !(s.lastHeartbeatAt.any (cutoff ≤ ·)) ||
      !notBlank s.endpoint || !notBlank s.processId

/-- `transient_invalid`: the offer is stale or its Desktop is behind the reuse barrier. -/
def Db.transientInvalid (db : Db) (now : Time) (l : Lease) : Bool :=
  !(l.offerExpiresAt.any (now < ·)) || (db.sessionOf l).any fun s ↦
    s.reuseBlockedAt.isSome ||
      db.leases.rows.any fun x ↦ x.sessionId == some s.id && x.state == .releasing

def Service.acceptLease (svc : Service) (env : Env) (leaseId : ℕ) (token : String) :
    PoolTx Lease := do
  let lease ← read (svc.authorizeLease · leaseId token)
  let l ← lift lease
  if l.protocolVersion < 2 then
    check (l.state == .leased || l.state == .active) (leaseIs l.state)
    return l
  if l.state == .attaching || l.state == .active then return l
  check (l.state == .offered) (leaseIs l.state)
  let reservation ← read (·.reservations.find? l.exactSessionReservationId)
  let cutoff := env.now - env.cfg.sessionHeartbeatTimeoutSeconds
  let hard ← read (·.hardTargetInvalid cutoff l reservation)
  let transient ← read (·.transientInvalid env.now l)
  if l.exactSessionReservationId != 0 && hard then
    write (.rejectOffer l (reservation.map (·.reservationKey)) env.now)
  else if hard || transient then
    let restorable ← read fun db ↦ l.exactSessionReservationId == 0 ||
      db.reservations.rows.any fun r ↦ r.id == l.exactSessionReservationId &&
        r.leaseId == some leaseId && r.state == .consumed
    Tx.require restorable (.runtime "exact reservation changed while revoking stale offer")
    write (.revokeOffer l (env.now + env.cfg.leaseTtlSeconds) env.now)
  else
    write (.attachLease leaseId (env.now + env.cfg.leaseTtlSeconds) env.now)
  getLease leaseId

def Service.activateLease (svc : Service) (env : Env) (leaseId : ℕ) (token : String) :
    PoolTx Lease := do
  let l ← lift (svc.authorizeLease env.seen leaseId token)
  if l.state == .active then getLease leaseId
  else do
    check (l.state == if l.protocolVersion < 2 then .leased else .attaching) (leaseIs l.state)
    let unchanged ← read fun db ↦ (db.leases.find? leaseId).any (·.state == l.state)
    check unchanged "lease state changed while activating"
    write (.activateLease leaseId l.state (env.now + env.cfg.leaseTtlSeconds) env.now)
    grantSolveBatchIfReady svc (l.sessionId.getD 0) env.now false
    getLease leaseId

def Service.requestSolvePermit (svc : Service) (env : Env) (leaseId : ℕ) (token : String)
    (sealUnderfilled : Bool) : PoolTx Lease := do
  let lease ← read (svc.authorizeLease · leaseId token)
  let l ← lift lease
  check (l.state == .active) (leaseIs l.state)
  write (.renewWaiting leaseId l.clientTokenHash (env.now + env.cfg.leaseTtlSeconds) env.now)
  grantSolveBatchIfReady svc (l.sessionId.getD 0) env.now sealUnderfilled
  getLease leaseId

def Service.completeNativePipeline (svc : Service) (env : Env) (leaseId : ℕ) (token : String)
    (solvePermitGeneration : ℕ) : PoolTx Lease := do
  check (0 < solvePermitGeneration) "solve_permit_generation must be a positive integer"
  let lease ← read (svc.authorizeLease · leaseId token)
  let l ← lift lease
  check (l.state == .active) (leaseIs l.state)
  let sid ← require (l.sessionId.filter fun sid ↦ 0 < sid && l.solvePermitAt.isSome &&
    0 < l.solvePermitGeneration) (.value "lease has no sealed native solve permit")
  check (solvePermitGeneration == l.solvePermitGeneration) ("native pipeline generation mismatch: "
    ++ "expected=" ++ toString l.solvePermitGeneration ++
    ", actual=" ++ toString solvePermitGeneration)
  let cohort ← read (·.granted sid l.solvePermitGeneration)
  check (!cohort.isEmpty) "sealed native solve cohort is unavailable"
  write (.completePipeline leaseId sid l.solvePermitGeneration l.clientTokenHash
    (env.now + env.cfg.leaseTtlSeconds) env.now)
  getLease leaseId

def Service.bindLeaseProjectName (svc : Service) (env : Env) (leaseId : ℕ)
    (token projectName : String) : PoolTx Lease := do
  let name := svc.strip projectName
  check (name != "") "project_name is required"
  let lease ← read (svc.authorizeLease · leaseId token)
  let l ← lift lease
  check (l.state.live && l.state != .releasing) (leaseIs l.state)
  let duplicate ← read fun db ↦
    db.leases.rows.any fun x ↦ x.id != leaseId && x.projectName == name && x.state.live
  check (!(duplicate && 2 ≤ l.protocolVersion)) "project_name is already owned by a live lease"
  write (.bindProjectName leaseId l.state l.clientTokenHash name env.now)
  getLease leaseId

def Service.cancelLease (svc : Service) (env : Env) (leaseId : ℕ) (token reason : String) :
    PoolTx Lease := do
  let lease ← read (svc.authorizeLease · leaseId token)
  let l ← lift lease
  if !l.state.terminal then
    -- only the host can confirm that an attached project is closed
    let owner := l.state.ownsProject || (l.state == .leased && decide (l.protocolVersion < 2))
    if owner && l.sessionId.isSome then
      write (.beginRelease leaseId l.sessionId (svc.strip reason) env.now)
    else write (.cancelLease leaseId l.sessionId (svc.strip reason) env.now)
  getLease leaseId

inductive FaultKind
  | admissionTimeout | attachFailed | projectCreateFailed | preSolve | scriptError
  | solverTimeout | aedtTransportDeath | aedtDeath
  deriving DecidableEq, Repr

namespace FaultKind

def text : FaultKind → String
  | admissionTimeout => "admission_timeout"
  | attachFailed => "attach_failed"
  | projectCreateFailed => "project_create_failed"
  | preSolve => "pre_solve"
  | scriptError => "script_error"
  | solverTimeout => "solver_timeout"
  | aedtTransportDeath => "aedt_transport_death"
  | aedtDeath => "aedt_death"

def parse (value : String) : Option FaultKind :=
  [admissionTimeout, attachFailed, projectCreateFailed, preSolve, scriptError, solverTimeout,
    aedtTransportDeath, aedtDeath].find? (·.text == value)

def projectLocal : FaultKind → Bool
  | solverTimeout | aedtTransportDeath | aedtDeath => false
  | _ => true

end FaultKind

structure ProjectFault where
  faultKind : String
  phase : String := ""
  evidence : String := "{}"
  siblingGraceSeconds : ℕ := 900
  failureMessage : String := ""

/-- The transactions `report_project_fault` commits one after the other; the lease and the
session it works on are those it read first. -/
def Service.reportProjectFault (svc : Service) (env : Env) (leaseId : ℕ) (token : String)
    (fault : ProjectFault) : List (PoolTx Unit) :=
  match svc.authorizeLease env.seen leaseId token,
      FaultKind.parse (svc.lower (svc.strip fault.faultKind)) with
  | .ok l, some kind =>
      let message := svc.strip fault.failureMessage
      let record : PoolTx Unit := write (.recordLeaseFault leaseId kind.text
        (svc.lower (svc.strip fault.phase)) fault.evidence message env.now)
      let cancel (reason : String) : PoolTx Unit := do
        let _ ← svc.cancelLease env leaseId token reason
      match kind, l.sessionId with
      | .aedtTransportDeath, some sid =>
          let message := orDefault message "project client lost AEDT transport"
          [record, write (.suspectTransport sid message env.now), cancel message]
      | .aedtDeath, some sid =>
          match env.seen.sessions.find? sid with
          | none => [record]
          | some s => [record, write (.reportAedtDeath sid s.allocationId
              (orDefault message "project client lost AEDT/gRPC connection") env.now)]
      | .solverTimeout, some sid =>
          let aid := ((env.seen.sessions.find? sid).map (·.allocationId)).getD 0
          [record, write (.solverTimeout leaseId sid aid message
            (env.now + max 60 (min 3600 fault.siblingGraceSeconds)) env.now)]
      | _, _ =>
          if kind.projectLocal then
            [record, cancel (orDefault message
              (String.ofList (kind.text.toList.map fun c ↦ if c == '_' then ' ' else c)))]
          else [record, cancel kind.text]
  | _, _ => []

end SlurmScheduler.Pool
