import SlurmScheduler.Pool.Starts
import SlurmScheduler.Relational.Drawing

namespace SlurmScheduler.Pool

open Relational

/-- A pending dedicated allocation for the demand of projects. -/
structure PendingRequest where
  id : ℕ
  accountName : String := ""
  nodeName : String := ""
  partition : String := ""
  pendingReason : String := ""
  submittedAt : String := ""
  createdAt : String := ""
  resources : Resources := {}

instance : Keyed PendingRequest := ⟨PendingRequest.id⟩

/-- The timeout of hard pending requests, and the reading of the clock: how long ago a time stamp
was, unless it cannot be parsed. -/
structure ReplanSettings where
  timeoutSeconds : ℤ := 1800
  secondsSince : String → Option ℚ

section Planner

variable (svc : Service) (cfg : AedtPoolConfig) (settings : ScaleSettings)
  (replan : ReplanSettings) (excluded : List String)

def normalizedSlurmPendingReason (value : String) : String :=
  String.ofList ((svc.lower (svc.strip value)).toList.filter fun c ↦
    ('a' ≤ c && c ≤ 'z') || ('0' ≤ c && c ≤ '9'))

/-- `aedt_pool_hard_pending_reason` -/
def hardPendingReason (value : String) : Bool :=
  startsWith "assocmax" (normalizedSlurmPendingReason svc value) ||
    startsWith "qos" (normalizedSlurmPendingReason svc value)

namespace PendingRequest

variable (a : PendingRequest)

/-- `submitted_at or created_at` -/
def submitted : String := orDefault a.submittedAt a.createdAt

/-- `aedt_pool_pending_replan_reason` -/
def replanReason : String :=
  let reason := svc.strip a.pendingReason
  if !hardPendingReason svc reason then "" else
  if replan.timeoutSeconds ≤ 0 then "" else
  match replan.secondsSince (svc.strip a.submitted) with
  | none => ""
  | some age => if (max 60 replan.timeoutSeconds : ℤ) ≤ age then reason else ""

def stale : Bool := a.replanReason svc replan != ""

/-- `_allocation_session_capacity` of an allocation without sessions -/
def capacity : ℕ := allocationSessionCapacity cfg settings a.resources 0

def creditable : Bool := !a.stale svc replan && !excluded.contains a.accountName

/-- `allocation_matches_strict_route` -/
def matchesStrictRoute (route : Route) : Bool :=
  a.accountName == route.account && a.nodeName == route.nodeName &&
    partitionSpecAllows svc route.partition a.partition

def order : String ×ₗ ℕ := toLex (a.submitted, a.id)

end PendingRequest

/-- The starts that the placements of a plan left over. -/
structure Unplaced where
  strict : List (Route × ℕ)
  generic : Counter String

/-- The loop over `remaining_pending_capacity_by_allocation` for one route. -/
def creditRoute (fits : PendingRequest → Bool) :
    ℕ → List (PendingRequest × ℕ) → ℕ × List (PendingRequest × ℕ)
  | remaining, [] => (remaining, [])
  | remaining, (a, available) :: rest =>
      if remaining = 0 || available = 0 || !fits a then
        let later := creditRoute fits remaining rest
        (later.1, (a, available) :: later.2)
      else
        let consumed := min remaining available
        let later := creditRoute fits (remaining - consumed) rest
        (later.1, (a, available - consumed) :: later.2)

def creditRoutes : List (Route × ℕ) → List (PendingRequest × ℕ) →
    List (Route × ℕ) × List (PendingRequest × ℕ)
  | [], capacities => ([], capacities)
  | (route, need) :: routes, capacities =>
      let first := creditRoute (·.matchesStrictRoute svc route) need capacities
      let later := creditRoutes routes first.2
      ((route, first.1) :: later.1, later.2)

structure Ledger where
  strictUnplacedAfterPending : Counter Route
  unplacedAfterPending : Counter String
  /-- `remaining_pending_capacity_by_allocation` -/
  remainingCapacity : List (PendingRequest × ℕ)

def remainingOf (account : String) (capacities : List (PendingRequest × ℕ)) : ℕ :=
  Counter.sumWhere (·.accountName == account) capacities

def pendingLedger (u : Unplaced) (pending : List PendingRequest) : Ledger :=
  let credited := sortBy (·.id) (pending.filter (·.creditable svc replan excluded))
  let strict := creditRoutes svc (sortBy (·.1.order) u.strict)
    (credited.map fun a ↦ (a, a.capacity cfg settings))
  let strictUnplaced := strict.1.filter (0 < ·.2)
  let generic := (u.generic.select fun _ ↦ true).mapWith fun account count ↦
    count - remainingOf account strict.2
  { strictUnplacedAfterPending := ⟨strictUnplaced⟩
    unplacedAfterPending := Counter.sumBy id (generic.select fun _ ↦ true).entries
      (Counter.sumBy (·.account) strictUnplaced {})
    remainingCapacity := strict.2 }

def Ledger.credited (ledger : Ledger) (a : PendingRequest) : Bool :=
  ledger.remainingCapacity.any fun e ↦ e.1.id == a.id && e.2 < a.capacity cfg settings

/-- `unplaced_sessions_by_account` -/
def Unplaced.byAccount (u : Unplaced) : Counter String :=
  Counter.sumBy id (u.generic.select fun _ ↦ true).entries
    (Counter.sumBy (·.account) (u.strict.filter (0 < ·.2)) {})

def excessOf (capacity : PendingRequest → ℕ) (needed : ℕ) :
    ℕ → List PendingRequest → List PendingRequest
  | _, [] => []
  | retained, a :: rest =>
      if retained < needed then excessOf capacity needed (retained + capacity a) rest
      else a :: excessOf capacity needed retained rest

def excessPending (u : Unplaced) (pending : List PendingRequest) : List PendingRequest :=
  let accounts := ((pending.map (·.accountName)).filter (· != "")).eraseDups
  accounts.flatMap fun account ↦
    excessOf (·.capacity cfg settings) (u.byAccount.get account) 0
      (sortBy (·.order) (pending.filter (·.accountName == account)))

/-- `_close_excess_pending_dedicated_allocations`, by the requests that it closes; `closes` is the
answer of `close_empty_aedt_pool_allocation`. -/
def closeExcessPending (closes : ℕ → Bool) (u : Unplaced) (pending : List PendingRequest) :
    List PendingRequest :=
  ((sortBy (·.order) (excessPending cfg settings u pending)).reverse).filter (closes ·.id)

def survivors (closes : ℕ → Bool) (u : Unplaced) (pending : List PendingRequest) :
    List PendingRequest :=
  pending.filter fun a ↦ !(closeExcessPending cfg settings closes u pending).any (·.id == a.id)

end Planner

theorem creditRoute_eq_draw (fits : PendingRequest → Bool) (remaining : ℕ)
    (capacities : List (PendingRequest × ℕ)) :
    creditRoute fits remaining capacities = draw fits remaining capacities := by
  induction capacities generalizing remaining with
  | nil => rfl
  | cons e rest ih =>
      obtain ⟨a, available⟩ := e
      simp only [creditRoute, draw, ih]
      cases hfits : fits a with
      | false => simp
      | true =>
          by_cases hnone : remaining = 0 ∨ available = 0
          · have hdrawn : min remaining available = 0 := by omega
            simp [hnone, hdrawn]
          · simp [hnone]

theorem creditRoutes_eq_drawEach (svc : Service) (routes : List (Route × ℕ))
    (capacities : List (PendingRequest × ℕ)) :
    creditRoutes svc routes capacities =
      drawEach (fun route a ↦ a.matchesStrictRoute svc route) routes capacities := by
  induction routes generalizing capacities with
  | nil => rfl
  | cons e routes ih => rw [creditRoutes, drawEach, creditRoute_eq_draw, ih]

section Closer

variable (capacity : PendingRequest → ℕ)

def olderCapacity (requests : List PendingRequest) (a : PendingRequest) : ℕ :=
  ((requests.filter fun b ↦ b.order < a.order).map capacity).sum

variable {capacity} {needed : ℕ} {requests : List PendingRequest} {a b : PendingRequest}

theorem olderCapacity_cons : olderCapacity capacity (b :: requests) a =
    (if b.order < a.order then capacity b else 0) + olderCapacity capacity requests a := by
  unfold olderCapacity
  rw [List.filter_cons]
  split
  · rename_i h
    rw [if_pos (by simpa using h), List.map_cons, List.sum_cons]
  · rename_i h
    rw [if_neg (by simpa using h), Nat.zero_add]

theorem olderCapacity_perm {requests' : List PendingRequest} (h : requests.Perm requests') :
    olderCapacity capacity requests a = olderCapacity capacity requests' a :=
  ((h.filter _).map _).sum_eq

theorem olderCapacity_first (h : ∀ c ∈ requests, b.order < c.order) :
    olderCapacity capacity (b :: requests) b = 0 := by
  unfold olderCapacity
  rw [List.filter_eq_nil_iff.mpr]
  · rfl
  · intro c hc
    rcases List.mem_cons.mp hc with rfl | hc
    · simp
    · simpa using (h c hc).le

theorem olderCapacity_later (h : ∀ c ∈ requests, b.order < c.order) (ha : a ∈ requests) :
    olderCapacity capacity (b :: requests) a = capacity b + olderCapacity capacity requests a := by
  rw [olderCapacity_cons, if_pos (h a ha)]

/-- A request is in excess exactly if the older ones cover the need. -/
theorem mem_excessOf (h : requests.Pairwise fun a b ↦ a.order < b.order) (retained : ℕ) :
    a ∈ excessOf capacity needed retained requests ↔
      a ∈ requests ∧ needed ≤ retained + olderCapacity capacity requests a := by
  induction requests generalizing retained with
  | nil => simp [excessOf]
  | cons b requests ih =>
      obtain ⟨hfirst, hrest⟩ := List.pairwise_cons.mp h
      rw [excessOf]
      split
      · rename_i hneeded
        rw [ih hrest, List.mem_cons]
        constructor
        · rintro ⟨ha, hcovered⟩
          exact ⟨.inr ha, by rw [olderCapacity_later hfirst ha]; omega⟩
        · rintro ⟨rfl | ha, hcovered⟩
          · rw [olderCapacity_first hfirst] at hcovered
            omega
          · rw [olderCapacity_later hfirst ha] at hcovered
            exact ⟨ha, by omega⟩
      · rename_i hneeded
        have hcovered (n : ℕ) : needed ≤ retained + n := by omega
        rw [List.mem_cons, List.mem_cons, ih hrest]
        simp [hcovered]

/-- If a request is in excess, then those that are not cover the need. -/
theorem retained_covers (h : requests.Pairwise fun a b ↦ a.order < b.order) (retained : ℕ)
    (ha : a ∈ excessOf capacity needed retained requests) :
    needed ≤ retained + ((requests.filter fun b ↦
      decide (retained + olderCapacity capacity requests b < needed)).map capacity).sum := by
  induction requests generalizing retained with
  | nil => cases ha
  | cons b requests ih =>
      obtain ⟨hfirst, hrest⟩ := List.pairwise_cons.mp h
      rw [excessOf] at ha
      split at ha
      · rename_i hneeded
        have hown :
            decide (retained + olderCapacity capacity (b :: requests) b < needed) = true := by
          rw [olderCapacity_first hfirst]
          simpa using hneeded
        have hsame : (requests.filter fun c ↦
              decide (retained + olderCapacity capacity (b :: requests) c < needed)) =
            requests.filter fun c ↦
              decide (retained + capacity b + olderCapacity capacity requests c < needed) :=
          List.filter_congr fun c hc ↦ by rw [olderCapacity_later hfirst hc, Nat.add_assoc]
        have htail := ih hrest (retained + capacity b) ha
        rw [List.filter_cons, if_pos (by exact hown), hsame, List.map_cons, List.sum_cons]
        omega
      · omega

end Closer

end SlurmScheduler.Pool
