import SlurmScheduler.Pool.Sessions

namespace SlurmScheduler.Pool

open Relational PoolTx

structure PlannedStart where
  sessionKey : String
  allocationId : ℕ
  accountName : String
  nodeName : String

/-- The parts of the result of `_plan` on which the pass acts. -/
structure Plan where
  rebalanceDrainsByAccount : List (String × ℕ) := []
  drainNeeded : ℕ := 0
  placements : List PlannedStart := []

structure ReconcileArgs where
  execute : Bool
  excludedStartAccounts : List String := []
  startBlockReasons : List (String × String) := []
  storagePressureAccounts : List String := []
  plan : Plan := {}

def refreshZeroOwnerDrainingSessions (now : Time) : PoolTx Unit := do
  let rows ← read fun db ↦ db.sessions.select fun s ↦
    s.state == .busy && s.drainRequestedAt.isSome && db.used s.id == 0
  Tx.forEach rows fun s ↦ write (.refreshSession s.id now)

def Db.inAccount (db : Db) (account : String) (s : Session) : Bool :=
  (db.allocationOf s).any (·.accountName == account)

def accountSet (svc : Service) (accounts : List String) : List String :=
  sortedKeys ((accounts.map svc.strip).filter (· != ""))

def retireBlockedStarts (svc : Service) (now : Time) (args : ReconcileArgs) : PoolTx Unit :=
  Tx.forEach (accountSet svc args.excludedStartAccounts) fun account ↦ do
    let rows ← read fun db ↦ db.sessions.select fun s ↦ s.state == .starting && s.hostId == "" &&
      db.inAccount account s && !db.activeHost s
    let reason := ((args.startBlockReasons.find? fun kv ↦ svc.strip kv.1 == account).map
      fun kv ↦ svc.strip kv.2).getD "AEDT session start blocked by account storage guard"
    Tx.forEach rows fun s ↦ write (.retireBlockedStart s reason now)

def Db.liveLeases (db : Db) (sid : ℕ) : ℕ :=
  db.leases.count fun l ↦ l.sessionId == some sid && l.state.live

def Db.storageOrder (db : Db) (a b : Session) : Prop :=
  let rank := fun (s : Session) ↦ if s.state == .ready then 0 else 1
  rank a < rank b ∨ (rank a = rank b ∧
    (db.liveLeases a.id < db.liveLeases b.id ∨
      (db.liveLeases a.id = db.liveLeases b.id ∧ a.id ≤ b.id)))

instance (db : Db) : DecidableRel db.storageOrder := fun _ _ ↦
  inferInstanceAs (Decidable (_ ∨ (_ ∧ (_ ∨ (_ ∧ _)))))

/-- The session that storage pressure retires on the account: none while one drains there,
else the ready one, else the busy one with the fewest live owners. -/
def Db.storageCandidate (db : Db) (account : String) : Option Session :=
  if db.sessions.rows.any fun s ↦ s.state.visible && s.drainRequestedAt.isSome &&
      db.inAccount account s then none
  else ((db.sessions.select fun s ↦ s.state.assignable && s.drainRequestedAt.isNone &&
    db.inAccount account s).insertionSort db.storageOrder).head?

def drainPressuredAccounts (svc : Service) (now : Time) (args : ReconcileArgs) : PoolTx Unit := do
  let drained ← Tx.fold (accountSet svc args.storagePressureAccounts) 0 fun drained account ↦ do
    let candidate ← read (·.storageCandidate account)
    match candidate with
    | none => pure drained
    | some s => do
        write (.storageDrain s.id now)
        pure (drained + 1)
  if 0 < drained then
    refreshExactSessionReservations now
    refreshZeroOwnerDrainingSessions now

def rotateAgedAllocations (cfg : AedtPoolConfig) (now : Time) : PoolTx Unit := do
  if cfg.allocationMaxAgeSeconds != 0 then
    write (.rotateAllocations (now - cfg.allocationMaxAgeSeconds) now)
  let rotating ← read fun db ↦ (db.allocations.select fun a ↦
    a.state == .draining && a.drainReason == allocationAgeRotationReason).map (·.id)
  if !rotating.isEmpty then
    write (.requestSessionsDrain allocationAgeRotationReason (some rotating) now)

def endTerminalTasks (now : Time) : PoolTx Unit := do
  let rows ← read fun db ↦ db.leases.select fun l ↦ l.state.live && l.state != .releasing &&
    db.taskTerminal l.taskId
  Tx.forEach rows fun l ↦
    if (l.state == .attaching || l.state == .active) && l.sessionId.isSome then
      write (.beginRelease l.id l.sessionId "scheduler task became terminal" now)
    else write (.cancelLease l.id l.sessionId "scheduler task became terminal" now)

def requeueStaleOffers (now : Time) : PoolTx Unit := do
  let rows ← read fun db ↦ db.leases.select fun l ↦ l.state == .offered &&
    decide (2 ≤ l.protocolVersion) && l.offerExpiresAt.any (· < now) &&
    l.clientDeadlineAt.any (now < ·) && decide (now < l.expiresAt)
  Tx.forEach rows fun l ↦ write (.requeueOffer l now)

def Lease.lapsed (cfg : AedtPoolConfig) (now : Time) (l : Lease) : Bool :=
  l.state.live && l.state != .releasing &&
  (decide (l.expiresAt < now) ||
    ((l.state == .queued || l.state == .offered) && l.clientDeadlineAt.any (· < now)) ||
    (l.state == .queued && decide (l.protocolVersion < 2) &&
      decide (l.lastHeartbeatAt < now - min cfg.leaseTtlSeconds 300)) ||
    (l.state == .offered && decide (l.protocolVersion < 2) && l.offerExpiresAt.any (· < now)))

def expireLeases (cfg : AedtPoolConfig) (now : Time) : PoolTx Unit := do
  let rows ← read fun db ↦ db.leases.select (·.lapsed cfg now)
  Tx.forEach rows fun l ↦
    match l.state with
    | .queued => write (.expireQueued l.id now)
    | .offered => write (.expireOffer l.id l.sessionId now)
    | _ => do
        write (.beginRelease l.id l.sessionId "lease heartbeat expired" now)
        match l.state, l.sessionId with
        -- a dead active client may have left a solve running in AEDT
        | .active, some sid => write (.quarantineExpired sid (now + 900) now)
        | _, _ => pure ()

def Db.reapable (db : Db) (recycleCutoff reapCutoff : Time) (s : Session) : Bool :=
  s.state == .unhealthy &&
  (((likePrefix nativeSuspectPrefix s.failureMessage ||
        s.quarantineReason == "confirmed_aedt_death") &&
      decide (s.drainRequestedAt.getD (s.lastFaultAt.getD s.lastSeen) < recycleCutoff) &&
      db.used s.id == 0) ||
    (decide (s.lastSeen < reapCutoff) && decide (s.unhealthySince < recycleCutoff)))

def recycleUnhealthySessions (cfg : AedtPoolConfig) (now : Time) : PoolTx Unit := do
  let heartbeatCutoff := now - cfg.sessionHeartbeatTimeoutSeconds
  write (.expireSessionHeartbeats heartbeatCutoff now)
  write (.failOrphanedReleases heartbeatCutoff now)
  write (.expireStarts (now - cfg.sessionStartTimeoutSeconds) now)
  let recycleCutoff := now - cfg.unhealthyRecycleGraceSeconds
  write (.drainUnhealthyAllocations recycleCutoff now)
  let reapCutoff := now - max 900 (5 * cfg.sessionHeartbeatTimeoutSeconds)
  let stale ← read fun db ↦ db.sessions.select (db.reapable recycleCutoff reapCutoff)
  Tx.forEach stale fun s ↦ write (.reapStale s.id now)

def Db.recoverableAllocations (db : Db) : List Allocation :=
  db.allocations.select fun a ↦ a.state == .draining && recycleReason a.drainReason &&
    (db.sessions.rows.any fun s ↦ s.allocationId == a.id && s.state.assignable) &&
    !db.sessions.rows.any fun s ↦ s.allocationId == a.id && s.state.visible &&
      (s.state == .unhealthy || notBlank s.quarantineReason)

def reviveAllocations (now : Time) : PoolTx Unit := do
  let rows ← read (·.recoverableAllocations)
  Tx.forEach rows fun a ↦ write (.reviveAllocation a.id now)
  write (.drainIdle now)

def Db.unreserved (db : Db) (s : Session) : Bool := db.held s.id == 0

def idleOrder (a b : Session) : Prop :=
  a.idleSince.getD a.createdAt < b.idleSince.getD b.createdAt ∨
    (a.idleSince.getD a.createdAt = b.idleSince.getD b.createdAt ∧ a.id ≤ b.id)

instance : DecidableRel idleOrder := fun _ _ ↦ inferInstanceAs (Decidable (_ ∨ (_ ∧ _)))

def Db.rebalanceCandidates (db : Db) (account : String) : List Session :=
  (db.sessions.select fun s ↦ s.state == .ready && s.solveBatchSealedAt.isNone &&
    s.drainRequestedAt.isNone && s.reuseBlockedAt.isNone && db.unreserved s &&
    db.allocationServing s && db.inAccount account s).insertionSort idleOrder

def Db.scaleInOrder (db : Db) (a b : Session) : Prop :=
  db.used a.id < db.used b.id ∨ (db.used a.id = db.used b.id ∧ idleOrder a b)

instance (db : Db) : DecidableRel db.scaleInOrder := fun _ _ ↦
  inferInstanceAs (Decidable (_ ∨ (_ ∧ _)))

def Db.scaleInCandidates (db : Db) : List Session :=
  (db.sessions.select fun s ↦ s.state.assignable && db.unreserved s).insertionSort db.scaleInOrder

def scale (cfg : AedtPoolConfig) (now : Time) (plan : Plan) : PoolTx Unit := do
  Tx.forEach plan.rebalanceDrainsByAccount fun drain ↦ do
    let candidates ← read (·.rebalanceCandidates drain.1)
    Tx.forEach (candidates.take drain.2) fun s ↦ write (.drainForRebalance s.id now)
  let candidates ← read (·.scaleInCandidates)
  Tx.forEach (candidates.take plan.drainNeeded) fun s ↦ write (.drainForScaleIn s.id now)
  Tx.forEach plan.placements fun p ↦
    write (.startSession p.sessionKey p.allocationId p.accountName p.nodeName
      cfg.projectsPerSession now)

def Service.reconcile (svc : Service) (env : Env) (args : ReconcileArgs) : PoolTx Unit := do
  let cfg := env.cfg
  let now := env.now
  let scaling := args.execute && cfg.operational
  refreshZeroOwnerDrainingSessions now
  refreshExactSessionReservations now
  refreshZeroOwnerDrainingSessions now
  when scaling do
    retireBlockedStarts svc now args
    drainPressuredAccounts svc now args
  when args.execute (rotateAgedAllocations cfg now)
  endTerminalTasks now
  requeueStaleOffers now
  expireLeases cfg now
  recycleUnhealthySessions cfg now
  when args.execute (reviveAllocations now)
  when scaling do
    placeQueuedLeases cfg now env.clock none false
    scale cfg now args.plan

end SlurmScheduler.Pool
