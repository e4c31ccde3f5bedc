import SlurmScheduler.Pool.PendingCloses
import SlurmScheduler.Pool.Scripts

namespace SlurmScheduler.Pool

open Relational

variable (svc : Service) (cfg : AedtPoolConfig) (settings : ScaleSettings)
  (replan : ReplanSettings) (excluded : List String) (closes : ℕ → Bool) (u : Unplaced)
  (pending : Table PendingRequest)

def requestsOf (account : String) : List PendingRequest :=
  pending.rows.filter (·.accountName == account)

def Superseded (a : PendingRequest) : Prop :=
  u.byAccount.get a.accountName ≤
    olderCapacity (·.capacity cfg settings) (requestsOf pending a.accountName) a

instance (a : PendingRequest) : Decidable (Superseded cfg settings u pending a) :=
  inferInstanceAs (Decidable (_ ≤ _))

section Selection

variable {cfg settings u pending closes} {a b : PendingRequest}

theorem mem_requestsOf {account : String} :
    a ∈ requestsOf pending account ↔ a ∈ pending ∧ a.accountName = account := by
  rw [requestsOf, List.mem_filter, beq_iff_eq]
  rfl

theorem order_injective (ha : a ∈ pending) (hb : b ∈ pending) (h : a.order = b.order) : a = b :=
  Table.eq_of_key_eq ha hb (congrArg (fun o ↦ (ofLex o).2) h)

theorem requestsOf_ordered (account : String) :
    (sortBy (·.order) (requestsOf pending account)).Pairwise fun a b ↦ a.order < b.order := by
  have hsorted : (sortBy (·.order) (requestsOf pending account)).Pairwise fun a b ↦
      a.order ≤ b.order := List.pairwise_insertionSort _ _
  have hnodup : (sortBy (·.order) (requestsOf pending account)).Nodup :=
    (sortBy_perm _ _).nodup_iff.mpr (pending.nodup_rows.filter _)
  refine (hsorted.and hnodup).imp_of_mem fun {a b} ha hb h ↦ lt_of_le_of_ne h.1 fun heq ↦ h.2 ?_
  exact order_injective (mem_requestsOf.mp (mem_sortBy.mp ha)).1
    (mem_requestsOf.mp (mem_sortBy.mp hb)).1 heq

theorem mem_excessPending : a ∈ excessPending cfg settings u pending.rows ↔
    a ∈ pending ∧ a.accountName ≠ "" ∧ Superseded cfg settings u pending a := by
  have hown (account : String) :
      a ∈ excessOf (·.capacity cfg settings) (u.byAccount.get account) 0
          (sortBy (·.order) (requestsOf pending account)) ↔
        (a ∈ pending ∧ a.accountName = account) ∧ u.byAccount.get account ≤
          olderCapacity (·.capacity cfg settings) (requestsOf pending account) a := by
    rw [mem_excessOf (requestsOf_ordered account), mem_sortBy, mem_requestsOf, Nat.zero_add,
      olderCapacity_perm (sortBy_perm _ _)]
  rw [excessPending, List.mem_flatMap]
  constructor
  · rintro ⟨account, haccount, ha⟩
    obtain ⟨⟨hpending, rfl⟩, hcovered⟩ := (hown account).mp ha
    have hnamed := (List.mem_filter.mp (List.mem_eraseDups.mp haccount)).2
    exact ⟨hpending, by simpa using hnamed, hcovered⟩
  · rintro ⟨hpending, hnamed, hcovered⟩
    refine ⟨a.accountName, List.mem_eraseDups.mpr (List.mem_filter.mpr
      ⟨List.mem_map_of_mem hpending, by simpa using hnamed⟩), ?_⟩
    exact (hown a.accountName).mpr ⟨⟨hpending, rfl⟩, hcovered⟩

theorem mem_closeExcessPending : a ∈ closeExcessPending cfg settings closes u pending.rows ↔
    a ∈ pending ∧ a.accountName ≠ "" ∧ Superseded cfg settings u pending a ∧
      closes a.id = true := by
  rw [closeExcessPending, List.mem_filter, List.mem_reverse, mem_sortBy, mem_excessPending]
  simp only [and_assoc]

/-- If a request is superseded, then those of its account that are not cover its need. -/
theorem unsuperseded_cover (ha : a ∈ pending) (h : Superseded cfg settings u pending a) :
    u.byAccount.get a.accountName ≤ (((requestsOf pending a.accountName).filter fun b ↦
      decide (¬ Superseded cfg settings u pending b)).map (·.capacity cfg settings)).sum := by
  have hperm : (sortBy (·.order) (requestsOf pending a.accountName)).Perm
      (requestsOf pending a.accountName) := sortBy_perm _ _
  have hexcess : a ∈ excessOf (·.capacity cfg settings) (u.byAccount.get a.accountName) 0
      (sortBy (·.order) (requestsOf pending a.accountName)) := by
    rw [mem_excessOf (requestsOf_ordered _), mem_sortBy, Nat.zero_add, olderCapacity_perm hperm]
    exact ⟨mem_requestsOf.mpr ⟨ha, rfl⟩, h⟩
  have hcover := retained_covers (requestsOf_ordered _) 0 hexcess
  rw [Nat.zero_add, ((hperm.filter _).map _).sum_eq] at hcover
  refine hcover.trans_eq (congrArg List.sum (congrArg (List.map _) ?_))
  refine List.filter_congr fun b hb ↦ ?_
  rw [Nat.zero_add, olderCapacity_perm hperm]
  simp only [Superseded, (mem_requestsOf.mp hb).2, not_le]

def keeps (cfg : AedtPoolConfig) (settings : ScaleSettings) (closes : ℕ → Bool) (u : Unplaced)
    (pending : Table PendingRequest) (a : PendingRequest) : Bool :=
  !(closeExcessPending cfg settings closes u pending.rows).any (·.id == a.id)

theorem keeps_eq_false (ha : a ∈ pending) : keeps cfg settings closes u pending a = false ↔
    a ∈ closeExcessPending cfg settings closes u pending.rows := by
  rw [keeps, Bool.not_eq_false', List.any_eq_true]
  constructor
  · rintro ⟨b, hb, hid⟩
    have hsame : b = a :=
      Table.eq_of_key_eq (mem_closeExcessPending.mp hb).1 ha (beq_iff_eq.mp hid)
    exact hsame ▸ hb
  · exact fun h ↦ ⟨a, h, by simp⟩

end Selection

/-- The starts that a plan left over are covered after the closer ran as they were before. -/
structure KeepsCovered : Prop where
  strict : ∀ route,
    (pendingLedger svc cfg settings replan excluded u
      (survivors cfg settings closes u pending.rows)).strictUnplacedAfterPending.get route ≤
    (pendingLedger svc cfg settings replan excluded u
      pending.rows).strictUnplacedAfterPending.get route
  accounts : ∀ account,
    (pendingLedger svc cfg settings replan excluded u
      (survivors cfg settings closes u pending.rows)).unplacedAfterPending.get account ≤
    (pendingLedger svc cfg settings replan excluded u
      pending.rows).unplacedAfterPending.get account
  credited : ∀ a ∈ closeExcessPending cfg settings closes u pending.rows,
    (pendingLedger svc cfg settings replan excluded u pending.rows).credited cfg settings a = false
  stale : ∀ a ∈ closeExcessPending cfg settings closes u pending.rows,
    a.creditable svc replan excluded = true → ∀ s ∈ pending, s.accountName = a.accountName →
      s.stale svc replan = true → s ∈ excessPending cfg settings u pending.rows

structure Dispensable : Prop where
  credited : ∀ a ∈ pending, a.accountName ≠ "" → closes a.id = true →
    Superseded cfg settings u pending a →
      (pendingLedger svc cfg settings replan excluded u pending.rows).credited cfg settings a = false
  stale : ∀ a ∈ pending, a.accountName ≠ "" → closes a.id = true →
    Superseded cfg settings u pending a → a.creditable svc replan excluded = true →
      ∀ s ∈ pending, s.accountName = a.accountName → s.stale svc replan = true →
        Superseded cfg settings u pending s

section Survivors

variable {svc cfg settings replan excluded closes u pending} {a b : PendingRequest}

def creditedStocks (svc : Service) (cfg : AedtPoolConfig) (settings : ScaleSettings)
    (replan : ReplanSettings) (excluded : List String) (pending : Table PendingRequest) :
    List (PendingRequest × ℕ) :=
  (pending.rows.filter (·.creditable svc replan excluded)).map fun a ↦ (a, a.capacity cfg settings)

theorem sortBy_id_filter (p : PendingRequest → Bool) :
    sortBy (·.id) (pending.rows.filter p) = pending.rows.filter p := by
  refine List.Pairwise.insertionSort_eq ?_
  have hordered : pending.rows.Pairwise fun a b ↦ a.id < b.id :=
    List.pairwise_map.mp pending.ordered
  exact (hordered.filter p).imp le_of_lt

theorem mem_creditedStocks {s : PendingRequest × ℕ}
    (h : s ∈ creditedStocks svc cfg settings replan excluded pending) :
    s.1 ∈ pending ∧ s.1.creditable svc replan excluded = true ∧
      s.2 = s.1.capacity cfg settings := by
  obtain ⟨a, ha, rfl⟩ := List.mem_map.mp h
  exact ⟨(List.mem_filter.mp ha).1, (List.mem_filter.mp ha).2, rfl⟩

def routesDrawn (svc : Service) (cfg : AedtPoolConfig) (settings : ScaleSettings)
    (replan : ReplanSettings) (excluded : List String) (u : Unplaced)
    (pending : Table PendingRequest) : List (Route × ℕ) × List (PendingRequest × ℕ) :=
  drawEach (fun route a ↦ a.matchesStrictRoute svc route) (sortBy (·.1.order) u.strict)
    (creditedStocks svc cfg settings replan excluded pending)

theorem credited_rows : creditRoutes svc (sortBy (·.1.order) u.strict)
      ((sortBy (·.id) (pending.rows.filter (·.creditable svc replan excluded))).map
        fun a ↦ (a, a.capacity cfg settings)) =
    routesDrawn svc cfg settings replan excluded u pending := by
  rw [creditRoutes_eq_drawEach, sortBy_id_filter]
  rfl

/-- The stocks of the survivors are those of the requests that are kept. -/
theorem credited_survivors :
    (sortBy (·.id) ((survivors cfg settings closes u pending.rows).filter
        (·.creditable svc replan excluded))).map (fun a ↦ (a, a.capacity cfg settings)) =
      (creditedStocks svc cfg settings replan excluded pending).filter
        (keeps cfg settings closes u pending ·.1) := by
  have hrows : (survivors cfg settings closes u pending.rows).filter
      (·.creditable svc replan excluded) = pending.rows.filter fun a ↦
        keeps cfg settings closes u pending a && a.creditable svc replan excluded := by
    rw [survivors, List.filter_filter]
    refine List.filter_congr fun a _ ↦ ?_
    rw [keeps, Bool.and_comm]
  rw [hrows, sortBy_id_filter, creditedStocks, List.filter_map, List.filter_filter]
  rfl

theorem routesDrawn_falls : Falls (creditedStocks svc cfg settings replan excluded pending)
    (routesDrawn svc cfg settings replan excluded u pending).2 := drawEach_falls _ _ _

theorem mem_routesDrawn {s : PendingRequest × ℕ}
    (h : s ∈ (routesDrawn svc cfg settings replan excluded u pending).2) :
    s.1 ∈ pending ∧ s.1.creditable svc replan excluded = true := by
  have hitem : s.1 ∈ (creditedStocks svc cfg settings replan excluded pending).map (·.1) :=
    routesDrawn_falls.items ▸ List.mem_map_of_mem h
  obtain ⟨stock, hstock, hsame⟩ := List.mem_map.mp hitem
  obtain ⟨hpending, hcreditable, -⟩ := mem_creditedStocks hstock
  exact hsame ▸ ⟨hpending, hcreditable⟩

theorem spares_closed (h : Dispensable svc cfg settings replan excluded closes u pending) :
    Relational.Spares (keeps cfg settings closes u pending)
      (creditedStocks svc cfg settings replan excluded pending)
      (routesDrawn svc cfg settings replan excluded u pending).2 := by
  refine routesDrawn_falls.spares (·.capacity cfg settings) (fun s hs ↦ (mem_creditedStocks hs).2.2)
    fun s hs hkeep ↦ ?_
  have hpending := (mem_routesDrawn hs).1
  obtain ⟨-, hnamed, hsuperseded, hcloses⟩ :=
    mem_closeExcessPending.mp ((keeps_eq_false hpending).mp hkeep)
  have huncredited := h.credited s.1 hpending hnamed hcloses hsuperseded
  rw [Ledger.credited, List.any_eq_false] at huncredited
  have hfull := huncredited s (by rw [pendingLedger]; simpa only [credited_rows] using hs)
  simpa using hfull

/-- The routes draw on the survivors as they did on all requests. -/
theorem routes_survivors (h : Dispensable svc cfg settings replan excluded closes u pending) :
    creditRoutes svc (sortBy (·.1.order) u.strict)
        ((sortBy (·.id) ((survivors cfg settings closes u pending.rows).filter
          (·.creditable svc replan excluded))).map fun a ↦ (a, a.capacity cfg settings)) =
      ((routesDrawn svc cfg settings replan excluded u pending).1,
        (routesDrawn svc cfg settings replan excluded u pending).2.filter
          (keeps cfg settings closes u pending ·.1)) := by
  rw [credited_survivors, creditRoutes_eq_drawEach]
  exact drawEach_filter (spares_closed h)

/-- Starts by account: those of its routes and the generic ones. -/
theorem startsByAccount_get (strict : List (Route × ℕ)) (generic : Counter String)
    (account : String) :
    (Counter.sumBy id (generic.select fun _ ↦ true).entries
        (Counter.sumBy (·.account) (strict.filter (0 < ·.2)) {})).get account =
      Counter.sumWhere (·.account = account) strict +
        Counter.sumWhere (· = account) generic.entries := by
  rw [Counter.get_sumBy, Counter.get_sumBy, Counter.sumWhere_pos]
  simp only [Counter.select, Bool.true_and]
  rw [Counter.sumWhere_pos]
  exact congrArg (· + _) (Nat.zero_add _)

theorem sumWhere_mapWith_le {p : String → Bool} {f g : String → ℕ → ℕ} (c : Counter String)
    (h : ∀ e ∈ c.entries, p e.1 = true → f e.1 e.2 ≤ g e.1 e.2) :
    Counter.sumWhere p (c.mapWith f).entries ≤ Counter.sumWhere p (c.mapWith g).entries := by
  obtain ⟨entries⟩ := c
  induction entries with
  | nil => exact le_rfl
  | cons e entries ih =>
      have htail := ih fun e' he' ↦ h e' (.tail _ he')
      simp only [Counter.mapWith, List.map_cons, Counter.sumWhere_cons] at htail ⊢
      split
      · rename_i hp
        exact Nat.add_le_add (h e (.head _) hp) htail
      · exact Nat.add_le_add_left htail _

theorem le_sumWhere {p : String → Bool} {entries : List (String × ℕ)} {e : String × ℕ}
    (he : e ∈ entries) (hp : p e.1 = true) : e.2 ≤ Counter.sumWhere p entries := by
  refine List.le_sum_of_mem (List.mem_map_of_mem (List.mem_filter.mpr ⟨he, hp⟩))

theorem sum_filter_le {p q : PendingRequest → Bool} {f : PendingRequest → ℕ}
    (l : List PendingRequest) (h : ∀ b ∈ l, p b = true → q b = true) :
    ((l.filter p).map f).sum ≤ ((l.filter q).map f).sum := by
  have hsame : l.filter p = (l.filter q).filter p := by
    rw [List.filter_filter]
    refine List.filter_congr fun b hb ↦ ?_
    cases hp : p b with
    | true => rw [h b hb hp, Bool.and_self]
    | false => rw [Bool.false_and]
  rw [hsame]
  exact (List.filter_sublist.map f).sum_le_sum fun _ _ ↦ Nat.zero_le _

/-- What the routes leave of the capacity that an account keeps. -/
theorem remainingOf_kept (account : String) :
    remainingOf account ((routesDrawn svc cfg settings replan excluded u pending).2.filter
        (keeps cfg settings closes u pending ·.1)) =
      Counter.sumWhere (fun a ↦ a.accountName == account && keeps cfg settings closes u pending a)
        (routesDrawn svc cfg settings replan excluded u pending).2 := by
  rw [remainingOf, Counter.sumWhere, Counter.sumWhere, List.filter_filter]

/-- If a creditable request of an account is closed, the others cover all its starts. -/
theorem generic_le_kept (h : Dispensable svc cfg settings replan excluded closes u pending)
    (ha : a ∈ closeExcessPending cfg settings closes u pending.rows)
    (hcreditable : a.creditable svc replan excluded = true) :
    Counter.sumWhere (· = a.accountName) u.generic.entries ≤
      Counter.sumWhere
        (fun b ↦ b.accountName == a.accountName && keeps cfg settings closes u pending b)
        (routesDrawn svc cfg settings replan excluded u pending).2 := by
  obtain ⟨hpending, hnamed, hsuperseded, hcloses⟩ := mem_closeExcessPending.mp ha
  -- the requests that are not superseded are creditable, and none of them is closed
  have hkept : (((requestsOf pending a.accountName).filter fun b ↦
      decide (¬ Superseded cfg settings u pending b)).map (·.capacity cfg settings)).sum ≤
      Counter.sumWhere
        (fun b ↦ b.accountName == a.accountName && keeps cfg settings closes u pending b)
        (creditedStocks svc cfg settings replan excluded pending) := by
    rw [Counter.sumWhere, creditedStocks, List.filter_map, List.map_map, requestsOf,
      List.filter_filter, List.filter_filter]
    refine sum_filter_le _ fun b hb hb' ↦ ?_
    simp only [Bool.and_eq_true, decide_eq_true_eq, beq_iff_eq] at hb'
    have hopen : keeps cfg settings closes u pending b = true := by
      by_contra hclosed
      have hmem := (keeps_eq_false hb).mp (by simpa using hclosed)
      exact hb'.1 (mem_closeExcessPending.mp hmem).2.2.1
    have hfresh : b.stale svc replan = false := by
      by_contra hstale
      exact hb'.1 (h.stale a hpending hnamed hcloses hsuperseded hcreditable b hb hb'.2
        (by simpa using hstale))
    have hincluded : (!excluded.contains a.accountName) = true :=
      (Bool.and_eq_true_iff.mp hcreditable).2
    simp only [PendingRequest.creditable, Function.comp, hb'.2, hopen, hfresh, hincluded,
      beq_self_eq_true, Bool.not_false, Bool.and_self]
  have hdrawn : Counter.sumWhere
        (fun b ↦ b.accountName == a.accountName && keeps cfg settings closes u pending b)
        (creditedStocks svc cfg settings replan excluded pending) ≤
      Counter.sumWhere
        (fun b ↦ b.accountName == a.accountName && keeps cfg settings closes u pending b)
        (routesDrawn svc cfg settings replan excluded u pending).2 +
        Counter.sumWhere (·.account = a.accountName) (sortBy (·.1.order) u.strict) := by
    refine sumWhere_le_drawEach _ _ fun route hroute s _ hmatch ↦ ?_
    have hsame : s.1.accountName = route.account := by
      simp only [PendingRequest.matchesStrictRoute, Bool.and_eq_true, beq_iff_eq] at hmatch
      exact hmatch.1.1
    have hother : s.1.accountName ≠ a.accountName := hsame ▸ by simpa using hroute
    simp [hother]
  rw [Counter.sumWhere_perm (sortBy_perm _ _)] at hdrawn
  have hneed := unsuperseded_cover hpending hsuperseded
  have hstarts := startsByAccount_get u.strict u.generic a.accountName
  change u.byAccount.get a.accountName = _ at hstarts
  omega

/-- If no creditable request of an account is closed, it keeps all that the routes leave. -/
theorem remainingOf_unclosed {account : String}
    (h : ∀ a ∈ closeExcessPending cfg settings closes u pending.rows, a.accountName = account →
      a.creditable svc replan excluded = false) :
    remainingOf account ((routesDrawn svc cfg settings replan excluded u pending).2.filter
        (keeps cfg settings closes u pending ·.1)) =
      remainingOf account (routesDrawn svc cfg settings replan excluded u pending).2 := by
  rw [remainingOf_kept, remainingOf, Counter.sumWhere, Counter.sumWhere]
  refine congrArg List.sum (congrArg (List.map _) ?_)
  refine List.filter_congr fun s hs ↦ ?_
  obtain ⟨hpending, hcreditable⟩ := mem_routesDrawn hs
  cases hkeep : keeps cfg settings closes u pending s.1 with
  | true => rw [Bool.and_true]
  | false =>
      have hother : s.1.accountName ≠ account := fun haccount ↦ by
        simp [h s.1 ((keeps_eq_false hpending).mp hkeep) haccount] at hcreditable
      simp [hother]

theorem unplaced_survivors (h : Dispensable svc cfg settings replan excluded closes u pending)
    (account : String) :
    (pendingLedger svc cfg settings replan excluded u
      (survivors cfg settings closes u pending.rows)).unplacedAfterPending.get account ≤
    (pendingLedger svc cfg settings replan excluded u
      pending.rows).unplacedAfterPending.get account := by
  simp only [pendingLedger, routes_survivors h, credited_rows, startsByAccount_get]
  refine Nat.add_le_add_left (sumWhere_mapWith_le _ fun e he haccount ↦ ?_) _
  have hsame : e.1 = account := by simpa using haccount
  by_cases hclosed : ∃ a ∈ closeExcessPending cfg settings closes u pending.rows,
      a.accountName = account ∧ a.creditable svc replan excluded = true
  · obtain ⟨a, ha, rfl, hcreditable⟩ := hclosed
    have hgeneric := generic_le_kept h ha hcreditable
    have hentry : e.2 ≤ Counter.sumWhere (· = a.accountName) u.generic.entries :=
      le_sumWhere (List.mem_filter.mp he).1 haccount
    rw [hsame, remainingOf_kept]
    omega
  · have hunclosed : ∀ a ∈ closeExcessPending cfg settings closes u pending.rows,
        a.accountName = account → a.creditable svc replan excluded = false := by
      intro a ha ho
      by_contra hcreditable
      exact hclosed ⟨a, ha, ho, by simpa using hcreditable⟩
    rw [hsame, remainingOf_unclosed hunclosed]

end Survivors

/-- The closer keeps the starts that a plan left over covered exactly if what it closes is neither
credited to a route nor better than what it keeps. -/
theorem keepsCovered_iff_dispensable : KeepsCovered svc cfg settings replan excluded closes u pending ↔
    Dispensable svc cfg settings replan excluded closes u pending := by
  constructor
  · intro h
    constructor
    · intro a ha hnamed hcloses hsuperseded
      exact h.credited a (mem_closeExcessPending.mpr ⟨ha, hnamed, hsuperseded, hcloses⟩)
    · intro a ha hnamed hcloses hsuperseded hcreditable s hs hsame hstale
      have hclosed := mem_closeExcessPending.mpr ⟨ha, hnamed, hsuperseded, hcloses⟩
      exact (mem_excessPending.mp (h.stale a hclosed hcreditable s hs hsame hstale)).2.2
  · intro h
    constructor
    · intro route
      simp only [pendingLedger, routes_survivors h, credited_rows, le_refl]
    · exact unplaced_survivors h
    · intro a ha
      obtain ⟨hpending, hnamed, hsuperseded, hcloses⟩ := mem_closeExcessPending.mp ha
      exact h.credited a hpending hnamed hcloses hsuperseded
    · intro a ha hcreditable s hs hsame hstale
      obtain ⟨hpending, hnamed, hsuperseded, hcloses⟩ := mem_closeExcessPending.mp ha
      refine mem_excessPending.mpr ⟨hs, hsame ▸ hnamed, ?_⟩
      exact h.stale a hpending hnamed hcloses hsuperseded hcreditable s hs hsame hstale

end SlurmScheduler.Pool
