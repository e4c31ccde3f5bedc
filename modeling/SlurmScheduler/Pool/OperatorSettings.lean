import SlurmScheduler.Pool.Config
import SlurmScheduler.Pool.Routine
import SlurmScheduler.Slurm.Text

namespace SlurmScheduler.Pool

open Relational PoolTx

inductive OperatorKey
  | concurrentSimulations | maxAedtSessions | minIdleAedtSessions | targetProjectConcurrency
  | projectsPerAedt | leaseTtlSeconds | sessionHeartbeatTimeoutSeconds | idleTtlSeconds
  | allocationMaxAgeSeconds
  deriving DecidableEq, Repr

namespace OperatorKey

def text : OperatorKey → String
  | concurrentSimulations => "concurrent_simulations"
  | maxAedtSessions => "max_aedt_sessions"
  | minIdleAedtSessions => "min_idle_aedt_sessions"
  | targetProjectConcurrency => "target_project_concurrency"
  | projectsPerAedt => "projects_per_aedt"
  | leaseTtlSeconds => "lease_ttl_seconds"
  | sessionHeartbeatTimeoutSeconds => "session_heartbeat_timeout_seconds"
  | idleTtlSeconds => "idle_ttl_seconds"
  | allocationMaxAgeSeconds => "allocation_max_age_seconds"

def derivedKeys : List OperatorKey := [maxAedtSessions, targetProjectConcurrency]

def limitKeys : List OperatorKey :=
  [concurrentSimulations, maxAedtSessions, minIdleAedtSessions, targetProjectConcurrency,
    projectsPerAedt]

def timeoutKeys : List OperatorKey :=
  [leaseTtlSeconds, sessionHeartbeatTimeoutSeconds, idleTtlSeconds, allocationMaxAgeSeconds]

def allowed : List OperatorKey := limitKeys ++ timeoutKeys

end OperatorKey

inductive JsonValue
  | null
  | bool (value : Bool)
  | int (value : ℤ)
  | float (text : String)
  | str (text : String)
  | list (items : List JsonValue)
  | dict (entries : List (String × JsonValue))

namespace JsonValue

def typeName : JsonValue → String
  | null => "NoneType"
  | bool _ => "bool"
  | int _ => "int"
  | float _ => "float"
  | str _ => "str"
  | list _ => "list"
  | dict _ => "dict"

/-- `default if value is None else value` -/
def orElse (default : ℕ) : JsonValue → JsonValue
  | null => int default
  | value => value

def rangeDetail (name : String) (low high : ℕ) : String :=
  name ++ " must be an integer between " ++ toString low ++ " and " ++ toString high

/-- `type(value) is int and low <= value <= high` -/
def between (name : String) (low high : ℕ) : JsonValue →
    Except PoolError { n : ℕ // low ≤ n ∧ n ≤ high }
  | int n =>
      if h : (low : ℤ) ≤ n ∧ n ≤ high then .ok ⟨n.toNat, by omega⟩
      else .error (.value (rangeDetail name low high))
  | _ => .error (.value (rangeDetail name low high))

end JsonValue

abbrev Payload := List (String × JsonValue)

namespace Payload

variable (p : Payload)

def get (key : OperatorKey) : Option JsonValue := (p.find? (·.1 == key.text)).map (·.2)

/-- `payload.get(key)` -/
def value (key : OperatorKey) : JsonValue := (p.get key).getD .null

def hasAny (keys : List OperatorKey) : Bool := keys.any fun key ↦ (p.get key).isSome

end Payload

/-- The configuration with the fields that the operator sees. -/
structure OperatorConfig extends AedtPoolConfig where
  maxSessions : ℕ := 250
  minIdleSessions : ℕ := 3
  projectMemoryMb : ℕ := 32768
  idleTtlSeconds : ℕ := 3600
  slots_pos : 1 ≤ projectsPerSession := by decide

theorem intSetting_le {svc : Service} {db : Db} {key default : String} {floor n : ℕ}
    (h : svc.intSetting db key default floor = .ok n) : floor ≤ n := by
  unfold Service.intSetting at h
  dsimp only at h
  split at h
  · cases h
    omega
  · cases h

/-- `max(floor, int(setting(key)))`, at least the floor -/
def Service.floorSetting (svc : Service) (db : Db) (key default : String) (floor : ℕ) :
    Except PoolError { n : ℕ // floor ≤ n } :=
  match h : svc.intSetting db key default floor with
  | .ok n => .ok ⟨n, intSetting_le h⟩
  | .error e => .error e

/-- `config`, read from the database; every setter drops what the service has cached of it. -/
def Service.operatorConfig (svc : Service) (isFloat : String → Bool) (db : Db) :
    Except PoolError OperatorConfig := do
  let required ← svc.intSetting db "aedt_pool_projects_per_session" "2" 2
  let maxSessions ← svc.intSetting db "aedt_pool_max_sessions" "250" 0
  let minIdleSessions ← svc.intSetting db "aedt_pool_min_idle_sessions" "3" 0
  let targetProjects ← svc.intSetting db "aedt_pool_target_projects" "500" 0
  let projectsPerSession ← svc.floorSetting db "aedt_pool_projects_per_session" "2" 1
  let projectCpus ← svc.intSetting db "aedt_pool_project_cpus" "4" 1
  let projectMemoryMb ← svc.intSetting db "aedt_pool_project_memory_mb" "32768" 1024
  let factor := db.setting "aedt_pool_node_cpu_factor" "1.0"
  if !isFloat factor then
    throw (.value ("could not convert string to float: '" ++ factor ++ "'"))
  let leaseTtlSeconds ← svc.intSetting db "aedt_pool_lease_ttl_seconds" "1800" 30
  let queuedStaleSeconds ← svc.intSetting db "aedt_pool_queued_stale_seconds" "90" 30
  let offerAckSeconds ← svc.intSetting db "aedt_pool_offer_ack_seconds" "60" 15
  let admissionDeadlineSeconds ←
    svc.intSetting db "aedt_pool_admission_deadline_seconds" "600" 60
  let sessionHeartbeatTimeoutSeconds ←
    svc.intSetting db "aedt_pool_session_heartbeat_timeout_seconds" "1800" 30
  let unhealthyRecycleGraceSeconds ←
    svc.intSetting db "aedt_pool_unhealthy_recycle_grace_seconds" "180" 0
  let sessionStartTimeoutSeconds ←
    svc.intSetting db "aedt_pool_session_start_timeout_seconds" "600" 60
  let idleTtlSeconds ← svc.intSetting db "aedt_pool_idle_ttl_seconds" "3600" 0
  let allocationMaxAgeSeconds ←
    svc.intSetting db "aedt_pool_allocation_max_age_seconds" "158400" 0
  let _ ← svc.intSetting db "aedt_pool_scale_step_nodes" "4" 1
  return {
    enabled := svc.boolSetting (db.setting "aedt_pool_enabled" "0")
    adapterReady := svc.boolSetting (db.setting "aedt_pool_adapter_ready" "0")
    validationPassed := (db.densityValidation required).any (·.passed)
    maxSessions, minIdleSessions, targetProjects, projectsPerSession := projectsPerSession.1
    projectCpus, projectMemoryMb, leaseTtlSeconds, queuedStaleSeconds, offerAckSeconds
    admissionDeadlineSeconds, sessionHeartbeatTimeoutSeconds, unhealthyRecycleGraceSeconds
    sessionStartTimeoutSeconds, idleTtlSeconds, allocationMaxAgeSeconds
    slots_pos := projectsPerSession.2 }

structure Limits where
  maxSessions : ℕ
  minIdleSessions : ℕ
  targetProjects : ℕ
  projectsPerSession : ℕ
  slots_pos : 1 ≤ projectsPerSession
  minIdle_le : minIdleSessions ≤ maxSessions
  target_le : targetProjects ≤ maxSessions * projectsPerSession

def Limits.settings (l : Limits) : List (String × String) :=
  [("aedt_pool_max_sessions", toString l.maxSessions),
   ("aedt_pool_min_idle_sessions", toString l.minIdleSessions),
   ("aedt_pool_target_projects", toString l.targetProjects),
   ("aedt_pool_projects_per_session", toString l.projectsPerSession)]

structure LimitArgs where
  maxSessions : JsonValue := .null
  minIdleSessions : JsonValue := .null
  targetProjects : JsonValue := .null
  projectsPerSession : JsonValue := .null

/-- `min(current.min_idle_sessions, requested_max)` where none is given.  Only a number can be
compared, and one that is not an integer is rejected as the maximum. -/
def requestedMinIdle (current : ℕ) (requestedMax : JsonValue) : JsonValue → Except PoolError JsonValue
  | .null =>
      match requestedMax with
      | .int n => .ok (.int (min current n))
      | .bool _ | .float _ => .ok (.int current)
      | value => .error (.value
          ("'<' not supported between instances of '" ++ value.typeName ++ "' and 'int'"))
  | value => .ok value

/-- The checks of `set_operator_limits`; `counted` sessions are not over. -/
def checkLimits (current : OperatorConfig) (counted : ℕ) (args : LimitArgs) :
    Except PoolError Limits := do
  let requestedMax := args.maxSessions.orElse current.maxSessions
  let requestedMinIdle ←
    requestedMinIdle current.minIdleSessions requestedMax args.minIdleSessions
  let requestedSlots := args.projectsPerSession.orElse current.projectsPerSession
  let maxSessions ← requestedMax.between "max_aedt_sessions" 0 550
  let minIdleSessions ← requestedMinIdle.between "min_idle_aedt_sessions" 0 550
  if hidle : maxSessions.1 < minIdleSessions.1 then
    throw (.value "min_idle_aedt_sessions cannot exceed max_aedt_sessions")
  else
    let projectsPerSession ← requestedSlots.between "projects_per_aedt" 1 8
    let physicalCeiling := maxSessions.1 * projectsPerSession.1
    let targetProjects ← (args.targetProjects.orElse physicalCeiling).between
      "target_project_concurrency" 0 4400
    if htarget : physicalCeiling < targetProjects.1 then
      throw (.value ("target_project_concurrency cannot exceed " ++
        "max_aedt_sessions * projects_per_aedt"))
    else
      if projectsPerSession.1 ≠ current.projectsPerSession ∧ (current.enabled ∨ counted ≠ 0) then
        throw (.value "disable and fully drain the pool before changing projects_per_aedt")
      return {
        maxSessions := maxSessions.1, minIdleSessions := minIdleSessions.1
        targetProjects := targetProjects.1, projectsPerSession := projectsPerSession.1
        slots_pos := projectsPerSession.2.1
        minIdle_le := Nat.not_lt.mp hidle, target_le := Nat.not_lt.mp htarget }

def Db.countedSessions (db : Db) : ℕ := db.sessions.count (·.state.visible)

def Service.setOperatorLimits (svc : Service) (isFloat : String → Bool) (args : LimitArgs)
    (db : Db) : Except PoolError OperatorConfig × Db :=
  match do checkLimits (← svc.operatorConfig isFloat db) db.countedSessions args with
  | .error e => (.error e, db)
  | .ok limits =>
      let db := putSettings limits.settings db
      (svc.operatorConfig isFloat db, db)

def concurrentLimits (current : OperatorConfig) (p : Payload) (concurrent : ℕ) :
    Except PoolError LimitArgs := do
  let projectsPerSession ← ((p.get .projectsPerAedt).getD (.int current.projectsPerSession)).between
    "projects_per_aedt" 1 3
  let minIdleSessions ← ((p.get .minIdleAedtSessions).getD (.int current.minIdleSessions)).between
    "min_idle_aedt_sessions" 0 550
  let maxSessions :=
    (concurrent + projectsPerSession.1 - 1) / projectsPerSession.1 + minIdleSessions.1
  if 550 < maxSessions then
    throw (.value ("concurrent_simulations would require " ++ toString maxSessions ++
      " max_aedt_sessions; maximum is 550"))
  return {
    maxSessions := .int maxSessions, minIdleSessions := p.value .minIdleAedtSessions
    targetProjects := .int concurrent, projectsPerSession := p.value .projectsPerAedt }

def Service.limitArgs (svc : Service) (isFloat : String → Bool) (p : Payload) (db : Db) :
    Except PoolError LimitArgs :=
  match p.get .concurrentSimulations with
  | none => .ok {
      maxSessions := p.value .maxAedtSessions, minIdleSessions := p.value .minIdleAedtSessions
      targetProjects := p.value .targetProjectConcurrency
      projectsPerSession := p.value .projectsPerAedt }
  | some value => do
      let concurrent ← value.between "concurrent_simulations" 0 1650
      concurrentLimits (← svc.operatorConfig isFloat db) p concurrent.1

structure Timeouts where
  leaseTtlSeconds : ℕ
  sessionHeartbeatTimeoutSeconds : ℕ
  unhealthyRecycleGraceSeconds : ℕ
  idleTtlSeconds : ℕ
  allocationMaxAgeSeconds : ℕ
  lease_floor : 30 ≤ leaseTtlSeconds
  heartbeat_floor : 30 ≤ sessionHeartbeatTimeoutSeconds

def Timeouts.settings (t : Timeouts) : List (String × String) :=
  [("aedt_pool_lease_ttl_seconds", toString t.leaseTtlSeconds),
   ("aedt_pool_session_heartbeat_timeout_seconds", toString t.sessionHeartbeatTimeoutSeconds),
   ("aedt_pool_unhealthy_recycle_grace_seconds", toString t.unhealthyRecycleGraceSeconds),
   ("aedt_pool_idle_ttl_seconds", toString t.idleTtlSeconds),
   ("aedt_pool_allocation_max_age_seconds", toString t.allocationMaxAgeSeconds)]

/-- The checks of `set_operator_timeouts`; the endpoint does not pass the recycle grace. -/
def checkTimeouts (current : OperatorConfig) (p : Payload) : Except PoolError Timeouts := do
  let ttl ← ((p.value .leaseTtlSeconds).orElse current.leaseTtlSeconds).between
    "lease_ttl_seconds" 60 3600
  let session ← ((p.value .sessionHeartbeatTimeoutSeconds).orElse
    current.sessionHeartbeatTimeoutSeconds).between "session_heartbeat_timeout_seconds" 60 3600
  let grace ← (JsonValue.int current.unhealthyRecycleGraceSeconds).between
    "unhealthy_recycle_grace_seconds" 0 3600
  let idle ← ((p.value .idleTtlSeconds).orElse current.idleTtlSeconds).between
    "idle_ttl_seconds" 60 86400
  let age ← ((p.value .allocationMaxAgeSeconds).orElse current.allocationMaxAgeSeconds).between
    "allocation_max_age_seconds" 0 172800
  return {
    leaseTtlSeconds := ttl.1, sessionHeartbeatTimeoutSeconds := session.1
    unhealthyRecycleGraceSeconds := grace.1, idleTtlSeconds := idle.1
    allocationMaxAgeSeconds := age.1
    lease_floor := by omega, heartbeat_floor := by omega }

def Service.setOperatorTimeouts (svc : Service) (isFloat : String → Bool) (p : Payload) (db : Db) :
    Except PoolError OperatorConfig × Db :=
  match do checkTimeouts (← svc.operatorConfig isFloat db) p with
  | .error e => (.error e, db)
  | .ok timeouts =>
      let db := putSettings timeouts.settings db
      (svc.operatorConfig isFloat db, db)

/-- An `HTTPException` of status 422, or another exception, which is answered with 500. -/
inductive PatchError
  | unprocessable (detail : String)
  | raised (e : PoolError)

/-- `except (TypeError, ValueError)` -/
def PatchError.of : PoolError → PatchError
  | .value detail => unprocessable detail
  | e => raised e

structure PatchResponse where
  concurrentSimulations : ℕ
  maxAedtSessions : ℕ
  minIdleAedtSessions : ℕ
  targetProjectConcurrency : ℕ
  projectsPerAedt : ℕ
  projectCpus : ℕ
  projectMemoryMb : ℕ
  sessionReservedCpus : ℕ
  sessionReservedMemoryMb : ℕ
  leaseTtlSeconds : ℕ
  sessionHeartbeatTimeoutSeconds : ℕ
  idleTtlSeconds : ℕ
  allocationMaxAgeSeconds : ℕ
  enabled : Bool
  operational : Bool
  deriving DecidableEq, Repr

def OperatorConfig.response (c : OperatorConfig) : PatchResponse where
  concurrentSimulations := c.targetProjects
  maxAedtSessions := c.maxSessions
  minIdleAedtSessions := c.minIdleSessions
  targetProjectConcurrency := c.targetProjects
  projectsPerAedt := c.projectsPerSession
  projectCpus := c.projectCpus
  projectMemoryMb := c.projectMemoryMb
  sessionReservedCpus := 1 + c.projectCpus * c.projectsPerSession
  sessionReservedMemoryMb := c.projectMemoryMb * c.projectsPerSession
  leaseTtlSeconds := c.leaseTtlSeconds
  sessionHeartbeatTimeoutSeconds := c.sessionHeartbeatTimeoutSeconds
  idleTtlSeconds := c.idleTtlSeconds
  allocationMaxAgeSeconds := c.allocationMaxAgeSeconds
  enabled := c.enabled
  operational := c.operational

def operatorDetail : String :=
  "only concurrent_simulations, max_aedt_sessions, min_idle_aedt_sessions, " ++
    "target_project_concurrency, projects_per_aedt, lease_ttl_seconds, " ++
    "session_heartbeat_timeout_seconds, idle_ttl_seconds, and allocation_max_age_seconds " ++
    "are operator-configurable"

def checkPayload (p : Payload) : Except PoolError Unit :=
  if p.isEmpty ∨ ¬ p.all (fun entry ↦ OperatorKey.allowed.any (·.text == entry.1)) then
    .error (.value operatorDetail)
  else if (p.get .concurrentSimulations).isSome ∧ p.hasAny OperatorKey.derivedKeys then
    .error (.value ("concurrent_simulations cannot be combined with " ++
      "max_aedt_sessions or target_project_concurrency"))
  else .ok ()

namespace Service

variable (svc : Service) (isFloat : String → Bool)

/-- What `reconcile` finds outside of its transaction, or what that raises. -/
abbrev Preparation := Db → Except PoolError (Env × ReconcileArgs)

/-- `reconcile(execute=True)` -/
def reconcilePass (prepare : Preparation) (db : Db) : Except PoolError Unit × Db :=
  match prepare db with
  | .error e => (.error e, db)
  | .ok (env, args) =>
      let pass := svc.reconcile env { args with execute := true }
      ((pass db).1, pass.commit db)

def patchLimits (p : Payload) (db : Db) : Except PoolError (Option OperatorConfig) × Db :=
  if p.hasAny OperatorKey.limitKeys then
    match svc.limitArgs isFloat p db with
    | .error e => (.error e, db)
    | .ok args =>
        let (config, db) := svc.setOperatorLimits isFloat args db
        (config.map some, db)
  else (.ok none, db)

def patchTimeouts (p : Payload) (config : Option OperatorConfig) (db : Db) :
    Except PoolError (Option OperatorConfig) × Db :=
  if p.hasAny OperatorKey.timeoutKeys then
    let (config, db) := svc.setOperatorTimeouts isFloat p db
    (config.map some, db)
  else (.ok config, db)

def finishPatch (prepare : Preparation) (p : Payload) (config : Option OperatorConfig) (db : Db) :
    Except PoolError OperatorConfig × Db :=
  match svc.patchTimeouts isFloat p config db with
  | (.error e, db) => (.error e, db)
  | (.ok config, db) =>
      match svc.reconcilePass prepare db with
      | (.error e, db) => (.error e, db)
      | (.ok (), db) =>
          match config with
          | some config => (.ok config, db)
          | none => (.error (.runtime "UnboundLocalError"), db)

def applyPatch (prepare : Preparation) (p : Payload) (db : Db) :
    Except PoolError OperatorConfig × Db :=
  match svc.patchLimits isFloat p db with
  | (.error e, db) => (.error e, db)
  | (.ok config, db) => svc.finishPatch isFloat prepare p config db

/-- `PATCH /api/aedt-pool/config` -/
def setAedtPoolLimit (prepare : Preparation) (p : Payload) (db : Db) :
    Except PatchError PatchResponse × Db :=
  match checkPayload p with
  | .error e => (.error (.of e), db)
  | .ok () =>
      let (config, db) := svc.applyPatch isFloat prepare p db
      ((config.mapError .of).map (·.response), db)

end Service

end SlurmScheduler.Pool
