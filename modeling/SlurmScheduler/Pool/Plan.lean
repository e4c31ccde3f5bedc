import SlurmScheduler.Pool.Reconcile
import SlurmScheduler.Relational.Counter
import Mathlib.Data.String.Basic

namespace SlurmScheduler.Pool

open Relational PoolTx

structure ScaleSettings where
  maxSessions : ℕ := 250
  minIdleSessions : ℕ := 3
  projectMemoryMb : ℕ := 32768
  accountName : String := ""

/-- An entry of `demand_entries`: a project that wants a slot, with its route. -/
structure DemandEntry where
  account : String
  family : String
  exclusive : Bool := false
  actionableRoute : Bool := true
  strictNode : String := ""
  strictPartition : String := ""
  placementSessionId : ℕ := 0
  placementNodeName : String := ""
  placementPartition : String := ""

structure Route where
  account : String
  nodeName : String
  partition : String
  deriving DecidableEq

structure RouteGroup extends Route where
  group : String
  deriving DecidableEq

structure Resources where
  totalCpus : ℕ := 0
  totalMemoryMb : ℕ := 0
  freeCpus : Option ℕ := none
  freeMemoryMb : Option ℕ := none

/-- What a plan takes from the tasks and leases, from their routes, from the license check of
warm spares, and from the rules of scale-in. -/
structure PlanInputs where
  demandEntries : List DemandEntry := []
  /-- absent without a checker, and `none` when it was not asked before the transaction -/
  warmSpareAdmission : Option (Option ℤ) := none
  resources : ℕ → Resources := fun _ ↦ {}
  rebalanceDrainsByAccount : List (String × ℕ) := []
  drainNeeded : ℕ := 0
  sessionKey : ℕ → String := fun _ ↦ ""

structure Placement where
  allocationId : ℕ
  accountName : String
  nodeName : String

def exclusiveGroup : String := "__exclusive__"

def DemandEntry.group (e : DemandEntry) : String :=
  if e.exclusive then exclusiveGroup else "family:" ++ e.family

def DemandEntry.routeGroup (e : DemandEntry) : RouteGroup where
  account := e.account
  nodeName := e.strictNode
  partition := e.strictPartition
  group := e.group

def sessionsFor (projectsPerSession : ℕ) (group : String) (projects : ℕ) : ℕ :=
  if group == exclusiveGroup then projects
  else (projects + projectsPerSession - 1) / projectsPerSession

def partitionSpecAllows (svc : Service) (spec partition : String) : Bool :=
  let names := partitionSpecNames svc spec
  names.isEmpty || names.contains partition

def countEach {κ : Type} [DecidableEq κ] (ks : List κ) : Counter κ :=
  ks.foldl (fun c k ↦ c.add k 1) {}

def groupDemand (projectsPerSession : ℕ) (entries : List DemandEntry) :
    Counter (String × String) :=
  (countEach ((entries.filter (·.actionableRoute)).map fun e ↦ (e.account, e.group))).mapWith
    fun key projects ↦ sessionsFor projectsPerSession key.2 projects

def unroutedGroupDemand (projectsPerSession : ℕ) (entries : List DemandEntry) : Counter String :=
  (countEach ((entries.filter (!·.actionableRoute)).map (·.group))).mapWith
    (sessionsFor projectsPerSession)

def strictEntries (entries : List DemandEntry) : List DemandEntry :=
  entries.filter fun e ↦ e.actionableRoute && e.strictNode != ""

def strictProjectCountsByRouteGroup (entries : List DemandEntry) : Counter RouteGroup :=
  countEach ((strictEntries entries).map (·.routeGroup))

def strictPlacedProjects (svc : Service) (entries : List DemandEntry) :
    Counter (ℕ × RouteGroup) :=
  countEach <| ((strictEntries entries).filter fun e ↦ 0 < e.placementSessionId &&
    e.placementNodeName == e.strictNode &&
    partitionSpecAllows svc e.strictPartition e.placementPartition).map fun e ↦
      (e.placementSessionId, e.routeGroup)

/-- `SESSION_HARD_CAP_STATES` -/
def SessionState.hardCap : SessionState → Bool
  | starting | ready | busy => true
  | _ => false

namespace Db

variable (db : Db) (cutoff : Time)

def assignableReady (s : Session) : Bool :=
  s.state == .ready && db.allocationServing s && s.solveBatchSealedAt.isNone &&
    s.drainRequestedAt.isNone && s.reuseBlockedAt.isNone && s.lastHeartbeatAt.any (cutoff ≤ ·)

def undrainedBusy (s : Session) : Bool :=
  s.state == .busy && s.drainRequestedAt.isNone &&
    (db.allocationOf s).any fun a ↦ a.state.serving || a.state == .draining

def undrainedStarting (s : Session) : Bool :=
  s.state == .starting && s.drainRequestedAt.isNone && db.allocationServing s

/-- `GROUP BY a.account_name` over the sessions that satisfy `p` -/
def countByAccount (p : Session → Bool) : Counter String :=
  countEach ((db.sessions.select p).filterMap fun s ↦ (db.allocationOf s).map (·.accountName))

def activeSessionsByAccount : Counter String :=
  db.countByAccount fun s ↦ db.assignableReady cutoff s || db.undrainedBusy s

def startingSessionsByAccount : Counter String := db.countByAccount db.undrainedStarting

def deadParent (s : Session) : Bool :=
  (db.allocationOf s).any fun a ↦ a.state == .closed || a.state == .failed

def effectiveHardCount : ℕ :=
  db.sessions.count (·.state.hardCap) -
    db.sessions.count fun s ↦ s.state.hardCap && db.deadParent s

def unclaimedStartingSessions : ℕ :=
  db.sessions.count fun s ↦ s.state == .starting &&
    !db.tasks.rows.any fun t ↦ t.dedupeKey == hostDedupeKey s.id &&
      (t.status == .attaching || t.status == .running)

def fallbackAccount (configured : String) : String :=
  if configured != "" then configured else
  (((db.allocations.select fun a ↦ (a.state == .pending || a.state.drainable) &&
    notBlank a.accountName).head?).map (·.accountName)).getD ""

end Db

structure Contract where
  family : String
  policy : Option IsolationPolicy
  exclusive : Bool

def Lease.contract (svc : Service) (l : Lease) : Contract where
  family := svc.lower (svc.strip
    (if l.protocolVersion < 2 then l.placementGroup else l.workloadFamily))
  policy := some l.isolationPolicy
  exclusive := l.exclusiveSession

def Reservation.contract (svc : Service) (r : Reservation) : Contract where
  family := svc.lower (svc.strip r.workloadFamily)
  policy := r.isolationPolicy
  exclusive := r.isolationPolicy == some .exclusive

def Db.contracts (db : Db) (svc : Service) (cutoff : Time) (s : Session) : List Contract :=
  let ready := db.assignableReady cutoff s
  (if ready || db.undrainedBusy s then (db.occupants s.id).map (·.contract svc) else []) ++
    if ready then (db.reservations.select (·.holds s.id)).map (·.contract svc) else []

def contractGroup (sid : ℕ) (contracts : List Contract) : String :=
  let families := ((contracts.map (·.family)).filter (· != "")).dedup
  let policies := contracts.filterMap (·.policy)
  if contracts.any (·.exclusive) then exclusiveGroup
  else match families with
    | [family] =>
        if !policies.isEmpty && policies.all (· == .family) then "family:" ++ family
        else "__bound_session_" ++ toString sid
    | _ => "__bound_session_" ++ toString sid

structure BoundSession where
  sessionId : ℕ
  accountName : String
  group : String

def Db.boundSessions (db : Db) (svc : Service) (cutoff : Time) : List BoundSession :=
  db.sessions.rows.filterMap fun s ↦
    match db.allocationOf s, db.contracts svc cutoff s with
    | some a, c :: cs => some ⟨s.id, a.accountName, contractGroup s.id (c :: cs)⟩
    | _, _ => none

/-- A record of `strict_capacity_session_records`, with the group that it is assigned to and the
slots that remain free. -/
structure CapacityRecord where
  sessionId : ℕ
  accountName : String
  nodeName : String
  partition : String
  group : String
  freeSlots : ℕ

def Db.strictCapacityRecords (db : Db) (cutoff : Time) (bound : List BoundSession) :
    List CapacityRecord :=
  db.sessions.rows.filterMap fun s ↦
    (db.allocationOf s).bind fun a ↦
      if db.undrainedStarting s || (s.state.assignable && a.state.serving &&
          s.solveBatchSealedAt.isNone && s.drainRequestedAt.isNone && s.reuseBlockedAt.isNone &&
          s.lastHeartbeatAt.any (cutoff ≤ ·)) then
        some
          { sessionId := s.id, accountName := a.accountName, nodeName := s.nodeName
            partition := a.partition
            group := ((bound.find? (·.sessionId == s.id)).map (·.group)).getD ""
            freeSlots := s.slotsTotal - db.used s.id - db.held s.id }
      else none

/-- `strict_route_matches` -/
def Route.matches (svc : Service) (route : Route) (record : CapacityRecord) : Bool :=
  record.accountName == route.account && record.nodeName == route.nodeName &&
    partitionSpecAllows svc route.partition record.partition

def consume (svc : Service) (rg : RouteGroup) :
    ℕ → List CapacityRecord → ℕ × List CapacityRecord
  | projects, [] => (projects, [])
  | projects, record :: records =>
      let available := if rg.group == exclusiveGroup then min 1 record.freeSlots
        else record.freeSlots
      let open' := rg.toRoute.matches svc record && (record.group == "" || record.group == rg.group)
      let consumed := if open' then min projects available else 0
      let rest := consume svc rg (projects - consumed) records
      (rest.1, (if consumed = 0 then record
        else { record with freeSlots := record.freeSlots - consumed, group := rg.group }) :: rest.2)

/-- Specific partitions come before `auto` routes. -/
def Route.order (r : Route) : String ×ₗ String ×ₗ ℕ ×ₗ String :=
  toLex (r.account, toLex (r.nodeName,
    toLex (if r.partition == "" || r.partition == "auto" then 1 else 0, r.partition)))

def RouteGroup.order (r : RouteGroup) : (String ×ₗ String ×ₗ ℕ ×ₗ String) ×ₗ String :=
  toLex (r.toRoute.order, r.group)

def strictStartNeededByRouteGroup (svc : Service) (projectsPerSession : ℕ)
    (placed : Counter (ℕ × RouteGroup)) :
    List (RouteGroup × ℕ) → List CapacityRecord → List (RouteGroup × ℕ)
  | [], _ => []
  | (rg, projects) :: rest, records =>
      let placedHere := ((records.filter (rg.toRoute.matches svc)).map fun record ↦
        placed.get (record.sessionId, rg)).sum
      let consumed := consume svc rg (projects - placedHere) records
      let needed := strictStartNeededByRouteGroup svc projectsPerSession placed rest consumed.2
      if 0 < consumed.1 then (rg, sessionsFor projectsPerSession rg.group consumed.1) :: needed
      else needed

/-- `sorted(l, key=key)` -/
def sortBy {α κ : Type} [LinearOrder κ] (key : α → κ) (l : List α) : List α :=
  l.insertionSort fun a b ↦ key a ≤ key b

def grant {κ : Type} : ℕ → List (κ × ℕ) → List (κ × ℕ) × ℕ
  | budget, [] => ([], budget)
  | budget, (key, count) :: rest =>
      let granted := min count budget
      let later := grant (budget - granted) rest
      (if granted = 0 then later.1 else (key, granted) :: later.1, later.2)

structure Turns where
  limited : Counter String := {}
  remaining : Counter String
  budget : ℕ

/-- `for account in generic_order` -/
def Turns.pass : List String → Turns → Turns
  | [], t => t
  | account :: rest, t =>
      if t.remaining.get account = 0 then Turns.pass rest t else
      let t' : Turns :=
        { limited := t.limited.add account 1
          remaining := t.remaining.put account (t.remaining.get account - 1)
          budget := t.budget - 1 }
      if t'.budget = 0 then t' else Turns.pass rest t'

/-- `while remaining_global_start_budget > 0 and any(remaining_generic.values())`: every pass
spends one unit at least, so as many passes as there are units suffice. -/
def Turns.rounds (order : List String) : ℕ → Turns → Turns
  | 0, t => t
  | fuel + 1, t =>
      if 0 < t.budget && order.any fun account ↦ 0 < t.remaining.get account then
        Turns.rounds order fuel (t.pass order)
      else t

def allocationSessionCapacity (cfg : AedtPoolConfig) (settings : ScaleSettings) (r : Resources)
    (currentSessions : ℕ) : ℕ :=
  let slots := cfg.projectsPerSession
  let sessionCpus := max 1 (1 + cfg.projectCpus * slots)
  let sessionMemoryMb := max 1024 (settings.projectMemoryMb * slots)
  let freeCpus := r.freeCpus.getD r.totalCpus
  let freeMemoryMb := r.freeMemoryMb.getD r.totalMemoryMb
  min (min (r.totalCpus / sessionCpus) (currentSessions + freeCpus / sessionCpus))
    (min (r.totalMemoryMb / sessionMemoryMb) (currentSessions + freeMemoryMb / sessionMemoryMb))

structure Placing where
  planned : Counter ℕ := {}
  placements : List Placement := []

section Placing

variable (free : Counter ℕ → Allocation → ℕ)

def Placing.put (st : Placing) (a : Allocation) (account nodeName : String) (granted : ℕ) :
    Placing :=
  if granted = 0 then st else
  { planned := st.planned.add a.id granted
    placements := st.placements ++ List.replicate granted ⟨a.id, account, nodeName⟩ }

def placeRoute (fits : Allocation → Bool) (route : Route) :
    List Allocation → ℕ → Placing → ℕ × Placing
  | [], need, st => (need, st)
  | a :: rest, need, st =>
      if need = 0 then (need, st) else
      if !fits a then placeRoute fits route rest need st else
      let granted := min (free st.planned a) need
      placeRoute fits route rest (need - granted)
        (st.put a route.account route.nodeName granted)

def placeRoutes (fits : Route → Allocation → Bool) (allocations : List Allocation)
    (routes : List (Route × ℕ)) (st : Placing) : Placing :=
  routes.foldl (fun st e ↦ (placeRoute free (fits e.1) e.1 allocations e.2 st).2) st

def placeGeneric : List Allocation → Counter String → Placing → Placing
  | [], _, st => st
  | a :: rest, remaining, st =>
      let need := remaining.get a.accountName
      if need = 0 then placeGeneric rest remaining st else
      let granted := min (free st.planned a) need
      placeGeneric rest (remaining.put a.accountName (need - granted))
        (st.put a a.accountName a.nodeName granted)

end Placing

namespace Db

variable (db : Db)

/-- `_dedicated_allocations({"warm", "active"})`, of which `_eligible_allocations` keeps those for
the demand of projects. -/
def eligibleAllocations (svc : Service) : List Allocation :=
  (((db.allocations.select (·.state.serving)).reverse.take 10000).filter fun a ↦
    startsWith "AEDT pool" a.drainReason).filter fun a ↦
      svc.strip a.nodeName != "" && a.drainReason == demandDrainReason

def unsafeAllocation (aid : ℕ) : Bool :=
  db.sessions.rows.any fun s ↦ s.allocationId == aid && s.state.visible &&
    (s.state == .draining || s.state == .unhealthy || s.drainRequestedAt.isSome ||
      notBlank s.quarantineReason)

def currentSessions (aid : ℕ) : ℕ :=
  db.sessions.count fun s ↦ s.allocationId == aid && s.state.visible

def orderedAllocations (svc : Service) (excluded : List String) : List Allocation :=
  sortBy (fun a ↦ toLex (db.currentSessions a.id, a.id)) ((db.eligibleAllocations svc).filter fun a ↦
    !excluded.contains a.accountName && !db.unsafeAllocation a.id)

end Db

structure StartDemand where
  startNeededByAccount : Counter String
  strictStartNeededByRoute : Counter Route

def warmSpareStartsAuthorized (operational : Bool) (admission : Option (Option ℤ))
    (needed unclaimed demand : ℕ) : ℕ :=
  if needed = 0 then 0
  else if !operational then 0
  else match admission with
    | none => needed
    | some allowed => (min (needed : ℤ) (allowed.getD 0 - unclaimed - demand)).toNat

def addSpares (accounts : List String) (authorized : ℕ) (c : Counter String) : Counter String :=
  (List.range authorized).foldl
    (fun c i ↦ c.add (accounts.getD (i % accounts.length) "") 1) c

section Plan

variable (svc : Service) (cfg : AedtPoolConfig) (settings : ScaleSettings) (now : Time)
  (inputs : PlanInputs)

def startDemand (db : Db) : StartDemand :=
  let cutoff := now - cfg.sessionHeartbeatTimeoutSeconds
  let demand := groupDemand cfg.projectsPerSession inputs.demandEntries
  let bound := db.boundSessions svc cutoff
  let boundByGroup := countEach (bound.map fun b ↦ (b.accountName, b.group))
  let boundByAccount := countEach (bound.map (·.accountName))
  let required := Counter.ofKeys (demand.keys ++ boundByGroup.keys) fun key ↦
    max (demand.get key) (boundByGroup.get key)
  let demandByAccount := Counter.sumBy (·.1) required.entries {}
  let capped := grant settings.maxSessions
    (sortBy (fun e ↦ toLex e) demandByAccount.entries)
  let unrouted := unroutedGroupDemand cfg.projectsPerSession inputs.demandEntries
  let demandSessions := (capped.1.map (·.2)).sum + min unrouted.total capped.2
  let desiredSessions := min settings.maxSessions (demandSessions + settings.minIdleSessions)
  let active := db.activeSessionsByAccount cutoff
  let starting := db.startingSessionsByAccount
  let unsatisfied := Counter.sumBy (·.1)
    (required.mapWith fun key n ↦ n - boundByGroup.get key).entries {}
  let flexible := Counter.ofKeys
    (active.keys ++ starting.keys ++ capped.1.map (·.1) ++ unsatisfied.keys) fun account ↦
      (active.get account - boundByAccount.get account) + starting.get account
  let strictByGroup := strictStartNeededByRouteGroup svc cfg.projectsPerSession
    (strictPlacedProjects svc inputs.demandEntries)
    (sortBy (·.1.order) (strictProjectCountsByRouteGroup inputs.demandEntries).entries)
    (db.strictCapacityRecords cutoff bound)
  let strictByRoute := Counter.sumBy (·.toRoute) strictByGroup {}
  let strictByAccount := Counter.sumBy (·.account) strictByRoute.entries {}
  let netted := (unsatisfied.mapWith fun account n ↦ n - flexible.get account).select fun _ ↦ true
  let demandStarts := strictByAccount.entries.foldl
    (fun c e ↦ c.put e.1 (max (c.get e.1) e.2)) netted
  let spareCapacity := (flexible.entries.map fun e ↦ e.2 - unsatisfied.get e.1).sum
  let sparesNeeded := (desiredSessions - demandSessions) - spareCapacity
  let spares := warmSpareStartsAuthorized cfg.operational inputs.warmSpareAdmission sparesNeeded
    db.unclaimedStartingSessions demandStarts.total
  let spareAccounts := sortBy id (capped.1.map (·.1))
  { startNeededByAccount := addSpares
      (if spareAccounts.isEmpty then [db.fallbackAccount settings.accountName] else spareAccounts)
      spares demandStarts
    strictStartNeededByRoute := strictByRoute }

structure StartBudget where
  limitedStrict : List (Route × ℕ)
  limitedGeneric : Counter String

def globalStartBudget (db : Db) : ℕ := settings.maxSessions - db.effectiveHardCount

def limitStarts (excluded : List String) (budget : ℕ) (demand : StartDemand) : StartBudget :=
  let eligible := demand.startNeededByAccount.select (!excluded.contains ·)
  let eligibleStrict := demand.strictStartNeededByRoute.select (!excluded.contains ·.account)
  let strict := grant budget (sortBy (·.1.order) eligibleStrict.entries)
  let requestedStrict := Counter.sumBy (·.account) eligibleStrict.entries {}
  let generic := (eligible.mapWith fun account n ↦ n - requestedStrict.get account).select
    fun _ ↦ true
  let turns := Turns.rounds (sortBy id generic.keys) strict.2
    { remaining := generic, budget := strict.2 }
  ⟨strict.1, turns.limited⟩

def StartBudget.startNeededByAccount (b : StartBudget) : Counter String :=
  Counter.sumBy id b.limitedGeneric.entries (Counter.sumBy (·.account) b.limitedStrict {})

def placeStarts (excluded : List String) (db : Db) (b : StartBudget) : List Placement :=
  let free (planned : Counter ℕ) (a : Allocation) : ℕ :=
    let current := db.currentSessions a.id + planned.get a.id
    allocationSessionCapacity cfg settings (inputs.resources a.id) current - current
  let fits (route : Route) (a : Allocation) : Bool :=
    a.accountName == route.account && a.nodeName == route.nodeName &&
      partitionSpecAllows svc route.partition a.partition
  let allocations := db.orderedAllocations svc excluded
  let strict := placeRoutes free fits allocations (sortBy (·.1.order) b.limitedStrict) {}
  (placeGeneric free allocations b.limitedGeneric strict).placements

structure StartPlan where
  startNeededByAccount : Counter String
  placements : List Placement

def planStarts (excluded : List String) (db : Db) : StartPlan :=
  let budget := limitStarts excluded (globalStartBudget settings db)
    (startDemand svc cfg settings now inputs db)
  ⟨budget.startNeededByAccount, placeStarts svc cfg settings inputs excluded db budget⟩

def StartPlan.toPlan (plan : StartPlan) (inputs : PlanInputs) : Plan where
  rebalanceDrainsByAccount := inputs.rebalanceDrainsByAccount
  drainNeeded := inputs.drainNeeded
  placements := plan.placements.zipIdx.map fun p ↦
    ⟨inputs.sessionKey p.2, p.1.allocationId, p.1.accountName, p.1.nodeName⟩

end Plan

def Service.beforePlan (svc : Service) (env : Env) (args : ReconcileArgs) : PoolTx Unit := do
  let scaling := args.execute && env.cfg.operational
  refreshZeroOwnerDrainingSessions env.now
  refreshExactSessionReservations env.now
  refreshZeroOwnerDrainingSessions env.now
  when scaling do
    retireBlockedStarts svc env.now args
    drainPressuredAccounts svc env.now args
  when args.execute (rotateAgedAllocations env.cfg env.now)
  endTerminalTasks env.now
  requeueStaleOffers env.now
  expireLeases env.cfg env.now
  recycleUnhealthySessions env.cfg env.now
  when args.execute (reviveAllocations env.now)
  when scaling (placeQueuedLeases env.cfg env.now env.clock none false)

/-- `reconcile`, which plans on the rows that its own passes leave. -/
def Service.reconcileByPlan (svc : Service) (env : Env) (settings : ScaleSettings)
    (inputs : Db → PlanInputs) (args : ReconcileArgs) : PoolTx (Option StartPlan) := do
  svc.beforePlan env args
  if args.execute && env.cfg.operational then do
    let plan ← read fun db ↦ (planStarts svc env.cfg settings env.now (inputs db)
      (accountSet svc args.excludedStartAccounts) db, inputs db)
    scale env.cfg env.now (plan.1.toPlan plan.2)
    return some plan.1
  else return none

end SlurmScheduler.Pool
