import SlurmScheduler.Pool.Writes
import Mathlib.Data.Char
import Mathlib.Data.List.Lex

namespace SlurmScheduler.Pool

open Relational PoolTx

def sortedKeys (keys : List String) : List String :=
  keys.dedup.insertionSort fun a b ↦ a.toList ≤ b.toList

namespace Db

variable (db : Db)

def unsealedTarget (r : Reservation) : Bool :=
  (db.sessions.find? r.sessionId).all (·.solveBatchSealedAt.isNone)

def terminalSiblings : List Reservation :=
  db.reservations.select fun r ↦ r.state.live && db.taskTerminal r.taskId && db.unsealedTarget r &&
    db.reservations.rows.any fun sibling ↦ sibling.reservationKey == r.reservationKey &&
      sibling.id != r.id && sibling.state.live

def expiredCohorts (now : Time) : List String :=
  sortedKeys <| (db.reservations.select fun r ↦ r.state.live && decide (r.expiresAt ≤ now) &&
    db.unsealedTarget r && !db.permittedLease r).map (·.reservationKey)

def fullyAttached (r : Reservation) : Bool :=
  !db.reservations.rows.any fun graceful ↦ graceful.reservationKey == r.reservationKey &&
    graceful.state.live && (graceful.state != .consumed ||
      match db.leaseOf graceful with
      | none => true
      | some l => l.sessionId.any (· != r.sessionId) || !l.state.holdsSlot)

def activeOwner (r : Reservation) (s : Session) : Bool :=
  s.solveBatchSealedAt.isSome && r.state == .consumed && notBlank s.processId &&
    notBlank s.hostId && notBlank s.hostTokenHash &&
    (db.leaseOf r).any fun l ↦ l.exactSessionReservationId == r.id &&
      l.sessionId == some r.sessionId && l.state == .active

def sealedPending (r : Reservation) : Bool :=
  db.reservations.rows.any fun p ↦ p.reservationKey == r.reservationKey && p.state.live &&
    (p.state.holdsSlot || match db.leaseOf p with
      | none => true
      | some l => l.solvePermitAt.isNone && l.state != .active)

def unpermittedMember (r : Reservation) : Bool :=
  db.reservations.rows.any fun p ↦ p.reservationKey == r.reservationKey && p.state.live &&
    (p.state.holdsSlot || match db.leaseOf p with
      | none => true
      | some l => l.solvePermitAt.isNone)

def targetInvalid (r : Reservation) : Bool :=
  match db.sessions.find? r.sessionId with
  | none => true
  | some s =>
      s.generation != r.sessionGeneration || s.sessionProfile != r.sessionProfile ||
      !s.state.assignable ||
      (s.drainRequestedAt.isSome && !(s.state == .busy && db.fullyAttached r)) ||
      ((db.allocationOf s).any (!·.state.serving) && !db.activeOwner r s) ||
      (s.solveBatchSealedAt.isSome && db.sealedPending r)

def invalidTargets : List String :=
  sortedKeys <| (db.reservations.select fun r ↦
    r.state.live && db.targetInvalid r && db.unpermittedMember r).map (·.reservationKey)

end Db

def siblingReason (taskId : ℕ) (status : TaskStatus) : String :=
  "exact-session reservation sibling task " ++ toString taskId ++ " became " ++ status.text ++
    " before solve permit"

def failTerminalSiblings (now : Time) : PoolTx Unit := do
  let rows ← read fun db ↦ db.terminalSiblings.map fun r ↦
    (r, ((db.tasks.find? r.taskId).map (·.status)).getD .failed)
  let _ ← Tx.fold rows ([] : List String) fun failedKeys row ↦
    if failedKeys.contains row.1.reservationKey then pure failedKeys
    else do
      write (.failCohort row.1.reservationKey now (siblingReason row.1.taskId row.2) true [])
      pure (row.1.reservationKey :: failedKeys)

def expireCohorts (now : Time) : PoolTx Unit := do
  let keys ← read (·.expiredCohorts now)
  Tx.forEach keys fun key ↦ write (.expireCohort key now)

def failInvalidTargets (now : Time) : PoolTx Unit := do
  let keys ← read (·.invalidTargets)
  Tx.forEach keys fun key ↦ do
    let affected ← read (·.cohortSessions key)
    write (.failCohort key now targetUnavailableReason false affected)

def refreshExactSessionReservations (now : Time) : PoolTx Unit := do
  failTerminalSiblings now
  expireCohorts now
  write (.releaseTaskReservations now)
  write (.releaseLeaseReservations now)
  failInvalidTargets now

structure ReservationRequest where
  reservationKey : String
  sessionId : ℕ
  sessionGeneration : ℕ
  sessionProfile : String
  taskIds : List ℕ
  ttlSeconds : ℕ := 1800

def Db.cohort (db : Db) (key : String) : List Reservation :=
  (db.reservations.select (·.reservationKey == key)).insertionSort fun a b ↦ a.taskId ≤ b.taskId

def Service.createExactSessionReservation (svc : Service) (cfg : AedtPoolConfig) (now : Time)
    (q : ReservationRequest) : PoolTx (List Reservation) := do
  let key := svc.strip q.reservationKey
  check (key != "") "reservation_key is required"
  check (0 < q.sessionId) "session_id must be a positive integer"
  check (0 < q.sessionGeneration) "session_generation must be a positive integer"
  check (60 ≤ q.ttlSeconds && q.ttlSeconds ≤ 3600)
    "ttl_seconds must be an integer between 60 and 3600"
  check (!q.taskIds.isEmpty) "task_ids must be a non-empty list"
  check (q.taskIds.all (0 < ·)) "task_ids must contain positive integers"
  let taskIds := q.taskIds.dedup.insertionSort (· ≤ ·)
  check (taskIds.length == q.taskIds.length) "task_ids must be unique"
  let profile ← lift (svc.canonicalExpectedSessionProfile q.sessionProfile)
  refreshExactSessionReservations now
  let existing ← read (·.cohort key)
  if !existing.isEmpty then
    check (existing.map (·.taskId) == taskIds && existing.all fun r ↦
        r.sessionId == q.sessionId && r.sessionGeneration == q.sessionGeneration &&
        r.sessionProfile == profile)
      "reservation_key already exists with different immutable payload"
    return existing
  let admitted ← read (·.admittedProjectCount 0 0 0)
  check (0 < cfg.targetProjects && admitted + taskIds.length ≤ cfg.targetProjects)
    "exact-session reservation exceeds target project concurrency"
  let session ← read fun db ↦ (db.sessions.find? q.sessionId).bind fun s ↦
    (db.allocationOf s).map fun a ↦ (s, a)
  let (s, a) ← require session (.value "requested AEDT session does not exist")
  check s.state.assignable "requested AEDT session is not assignable"
  check a.state.serving "requested AEDT session allocation is not active"
  check (s.generation == q.sessionGeneration) "requested AEDT session generation does not match"
  check (s.sessionProfile == profile) "requested AEDT session profile does not match"
  check (s.solveBatchSealedAt.isNone && s.drainRequestedAt.isNone)
    "requested AEDT session is sealed or draining"
  let canary ← read (·.canaryReserving q.sessionId)
  check (!canary) "requested AEDT session is reserved for a mixed canary"
  let tasks ← read fun db ↦ db.tasks.select (taskIds.contains ·.id)
  check (tasks.length == taskIds.length) "one or more reservation task_ids do not exist"
  check (tasks.all (!·.status.terminal)) "exact-session reservation task is terminal"
  check (tasks.all svc.isPooled) "exact-session reservation task must use pooled AEDT"
  let reservedTask ← read fun db ↦
    db.reservations.rows.any fun r ↦ taskIds.contains r.taskId && r.state.live
  check (!reservedTask) "task already has a live exact-session reservation"
  let leasedTask ← read fun db ↦
    db.leases.rows.any fun l ↦ taskIds.contains l.taskId && l.state.live
  check (!leasedTask) "task already has a live AEDT project lease"
  let occupied ← read (·.used q.sessionId)
  let held ← read (·.held q.sessionId)
  check (taskIds.length + occupied + held ≤ s.slotsTotal)
    "requested AEDT session does not have enough unreserved free slots"
  write (.reserve
    { key, sessionId := q.sessionId, sessionGeneration := q.sessionGeneration
      sessionProfile := profile, expiresAt := now + q.ttlSeconds } taskIds now)
  read (·.cohort key)

def autoReservationFitsSession (family : String) (policy : IsolationPolicy) (profile : String)
    (occupants : List Lease) (reservations : List Reservation) : Bool :=
  !(policy == .exclusive && !(occupants.isEmpty && reservations.isEmpty)) &&
  (occupants.all fun o ↦
    2 ≤ o.protocolVersion && o.sessionProfile == profile && !o.exclusiveSession &&
    o.isolationPolicy != .exclusive &&
    if policy == .family then o.isolationPolicy == .family && o.workloadFamily == family
    else o.isolationPolicy == .sharedIfCompatible) &&
  reservations.all fun r ↦
    r.workloadFamily != "" && match r.isolationPolicy with
      | none => false
      | some reserved =>
          reserved != .exclusive &&
          if policy == .family then reserved == .family && r.workloadFamily == family
          else reserved == .sharedIfCompatible

/-- `re.split(r"[\s,;/|]+", …)` without the blank parts -/
def accountNames (value : String) : List String :=
  ((value.toList.splitOnP fun c ↦ c.isWhitespace || [',', ';', '/', '|'].contains c).filter
    (!·.isEmpty)).map String.ofList

def partitionSpecNames (svc : Service) (value : String) : List String :=
  let names := (((value.toList.splitOnP (· == ',')).map String.ofList).map svc.strip).filter
    (· != "")
  if names.contains "auto" then [] else names

def autoKeyPrefix : String := "aedt-auto:"

structure PreparationRequest where
  taskId : ℕ
  sessionProfile : String
  workloadFamily : String
  isolationPolicy : String
  eligibleAllocationIds : Option (List ℕ) := none
  ttlSeconds : ℕ := 1800
  /-- `latest_validation()`, read before the transaction -/
  latestValidation : Option Validation := none
  /-- the fingerprint and account of `_preselect_task_account` -/
  accountSelection : Option (String × String) := none
  /-- `secrets.token_hex(8)` -/
  token : String := ""

/-- The task's placement constraints as `prepare_pooled_task_session` reads them. -/
structure TaskRoute where
  allowedAllocations : List ℕ
  requestedAccounts : List String
  strictNode : String
  strictPartition : String
  selectionRequired : Bool
  /-- `""` when no account was selected for the task as it is now -/
  selectedAccount : String

def taskRoute (svc : Service) (q : PreparationRequest) (t : Task) : TaskRoute :=
  let policy := svc.lower (svc.strip t.nodeNamePolicy)
  let strict := policy != "" && policy != "preferred"
  let accounts := (accountNames ((t.requestedAccountName.orElse fun _ ↦ t.accountName).getD "")).dedup
  let selected := match q.accountSelection with
    | some (fingerprint, value) =>
        if fingerprint == svc.taskAccountFingerprint t then svc.strip value else ""
    | none => ""
  let selectionRequired := svc.selectorConfigured && accounts.length != 1
  { allowedAllocations := (q.eligibleAllocationIds.getD []).filter (0 < ·)
    requestedAccounts := accounts
    strictNode := if strict then svc.strip t.nodeName else ""
    strictPartition := if strict then orDefault (svc.strip (orDefault t.partition "auto")) "auto"
      else "auto"
    selectionRequired
    selectedAccount := if selectionRequired && !accounts.isEmpty && !accounts.contains selected
      then "" else selected }

def TaskRoute.admitsAllocation (route : TaskRoute) (aid : ℕ) : Bool :=
  route.allowedAllocations.isEmpty || route.allowedAllocations.contains aid

/-- `target_is_usable` for the latest reservation of the task. -/
def Db.reservationUsable (db : Db) (svc : Service) (route : TaskRoute) (family : String)
    (policy : IsolationPolicy) (cutoff : Time) (r : Reservation) : Bool :=
  match db.sessions.find? r.sessionId with
  | none => false
  | some s => match db.allocationOf s with
    | none => false
    | some a =>
        s.state.assignable && a.state.serving && s.generation == r.sessionGeneration &&
        s.sessionProfile == r.sessionProfile && s.lastHeartbeatAt.any (cutoff ≤ ·) &&
        s.reuseBlockedAt.isNone && s.solveBatchSealedAt.isNone && s.drainRequestedAt.isNone &&
        route.admitsAllocation s.allocationId &&
        (route.requestedAccounts.isEmpty || route.requestedAccounts.contains a.accountName) &&
        (route.strictNode == "" || s.nodeName == route.strictNode) &&
        (route.strictNode == "" ||
          let names := partitionSpecNames svc route.strictPartition
          names.isEmpty || names.contains a.partition) &&
        (r.workloadFamily == "" ||
          (r.workloadFamily == family && r.isolationPolicy == some policy))

def Db.preparationOrder (db : Db) (a b : Session) : Prop :=
  let load := fun (s : Session) ↦ db.used s.id + db.held s.id
  let idle := fun (s : Session) ↦ s.idleSince.getD s.createdAt
  load b < load a ∨ (load a = load b ∧ (idle a < idle b ∨ (idle a = idle b ∧ a.id ≤ b.id)))

instance (db : Db) : DecidableRel db.preparationOrder := fun _ _ ↦
  inferInstanceAs (Decidable (_ ∨ (_ ∧ (_ ∨ (_ ∧ _)))))

def Db.preparationCandidates (db : Db) (svc : Service) (route : TaskRoute) (profile : String)
    (cutoff now : Time) : List Session :=
  let accounts := if route.selectionRequired then [route.selectedAccount]
    else route.requestedAccounts
  let partitions := partitionSpecNames svc route.strictPartition
  (db.sessions.select fun s ↦
    s.state.assignable && s.lastHeartbeatAt.any (cutoff ≤ ·) && s.quarantineUntil.all (· ≤ now) &&
    s.sessionProfile == profile && notBlank s.endpoint && notBlank s.processId &&
    s.reuseBlockedAt.isNone && s.solveBatchSealedAt.isNone && s.drainRequestedAt.isNone &&
    route.admitsAllocation s.allocationId &&
    (route.strictNode == "" || s.nodeName == route.strictNode) &&
    (db.allocationOf s).any fun a ↦ a.state.serving &&
      (accounts.isEmpty || accounts.contains a.accountName) &&
      (route.strictNode == "" || partitions.isEmpty || partitions.contains a.partition)
    ).insertionSort db.preparationOrder

def Db.autoCohort (db : Db) (s : Session) : Option (String × Time) :=
  let rows := db.reservations.select fun r ↦ r.sessionId == s.id &&
    r.sessionGeneration == s.generation && likePrefix autoKeyPrefix r.reservationKey && r.state.live
  rows.head?.map fun first ↦
    (first.reservationKey, ((rows.filter (·.reservationKey == first.reservationKey)).map
      (·.expiresAt)).foldl min first.expiresAt)

def reserveDesktop (svc : Service) (cfg : AedtPoolConfig) (now : Time) (q : PreparationRequest)
    (profile family : String) (policy : IsolationPolicy) (route : TaskRoute) :
    PoolTx (Option Reservation) := do
  let cutoff := now - cfg.sessionHeartbeatTimeoutSeconds
  let selected ← read fun db ↦
    (db.preparationCandidates svc route profile cutoff now).find? fun s ↦
      decide (db.used s.id + db.held s.id < s.slotsTotal) &&
      autoReservationFitsSession family policy profile (db.occupants s.id)
        (db.reservations.select (·.holds s.id))
  match selected with
  | none =>
      write (.unpinTask q.taskId now)
      return none
  | some s =>
      let cohort ← read (·.autoCohort s)
      let fresh := autoKeyPrefix ++ toString s.id ++ ":" ++ toString s.generation ++ ":" ++ q.token
      let (key, expiresAt) := cohort.getD (fresh, now + q.ttlSeconds)
      let live ← read fun db ↦ db.reservations.rows.any fun r ↦ r.taskId == q.taskId && r.state.live
      Tx.require (!live) (.integrity "idx_aedt_exact_reservations_live_task")
      let member ← read fun db ↦
        db.reservations.rows.any fun r ↦ r.taskId == q.taskId && r.reservationKey == key
      Tx.require (!member) (.integrity "UNIQUE(reservation_key, task_id)")
      write (.reserve
        { key, sessionId := s.id, sessionGeneration := s.generation, sessionProfile := profile
          workloadFamily := family, isolationPolicy := some policy, expiresAt } [q.taskId] now)
      write (.pinTask q.taskId s.allocationId s.nodeName cfg.projectCpus now)
      read (·.latestReservation q.taskId)

def Service.preparePooledTaskSession (svc : Service) (cfg : AedtPoolConfig) (now : Time)
    (q : PreparationRequest) : PoolTx (Option Reservation) := do
  check (0 < q.taskId) "task_id must be a positive integer"
  check (60 ≤ q.ttlSeconds && q.ttlSeconds ≤ 3600)
    "ttl_seconds must be an integer between 60 and 3600"
  let profile ← lift (svc.canonicalExpectedSessionProfile q.sessionProfile)
  let family := svc.lower (svc.strip q.workloadFamily)
  check (family != "") "workload_family is required for pooled pre-admission"
  let policy ← require (svc.parseIsolationPolicy q.isolationPolicy)
    (.value "invalid pooled isolation_policy")
  if q.eligibleAllocationIds.any fun ids ↦ (ids.filter (0 < ·)).isEmpty then return none
  if !cfg.operational then return none
  if policy == .sharedIfCompatible &&
      !(q.latestValidation.any fun v ↦ v.passed && v.mixedFamilyIsolationPassed) then return none
  refreshExactSessionReservations now
  let task ← read (·.tasks.find? q.taskId)
  match task.filter (·.status == .queued) with
  | none => return none
  | some t =>
      check (svc.isPooled t) "pooled pre-admission requires a pooled task"
      let route := taskRoute svc q t
      let nodePolicy := svc.lower (svc.strip t.nodeNamePolicy)
      if nodePolicy != "" && nodePolicy != "preferred" && route.strictNode == "" then return none
      let admitted ← read (·.admittedProjectCount q.taskId 0 0)
      if cfg.targetProjects == 0 || cfg.targetProjects ≤ admitted then return none
      let cutoff := now - cfg.sessionHeartbeatTimeoutSeconds
      let latest ← read (·.latestReservation q.taskId)
      match latest with
      | none =>
          if route.selectionRequired && route.selectedAccount == "" then
            write (.unpinTask q.taskId now)
            return none
          reserveDesktop svc cfg now q profile family policy route
      | some r =>
          let usable ← read (·.reservationUsable svc route family policy cutoff r)
          if r.state.holdsSlot && usable then
            let s ← read fun db ↦ db.sessions.find? r.sessionId
            write (.pinTask q.taskId ((s.map (·.allocationId)).getD 0)
              ((s.map (·.nodeName)).getD "") cfg.projectCpus now)
            return some r
          if !startsWith autoKeyPrefix r.reservationKey then return none
          if r.state.holdsSlot then
            write (.failCohort r.reservationKey now
              "automatic AEDT reservation target became unavailable" false [])
          if route.selectionRequired && route.selectedAccount == "" then
            write (.unpinTask q.taskId now)
            return none
          reserveDesktop svc cfg now q profile family policy route

end SlurmScheduler.Pool
