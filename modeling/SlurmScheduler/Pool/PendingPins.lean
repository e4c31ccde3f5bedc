import SlurmScheduler.Pool.PendingCoverage

namespace SlurmScheduler.Pool

open Relational

variable (svc : Service) (cfg : AedtPoolConfig) (settings : ScaleSettings)
  (replan : ReplanSettings) (excluded : List String) (closes : ℕ → Bool) (u : Unplaced)
  (pending : Table PendingRequest)

def earlierCapacity (route : Route) (a : PendingRequest) : ℕ :=
  ((pending.rows.filter fun b ↦ b.creditable svc replan excluded &&
    b.matchesStrictRoute svc route && decide (b.id < a.id)).map (·.capacity cfg settings)).sum

/-- A request that the plan counts suits both routes. -/
def sharesRequest (route route' : Route) : Bool :=
  pending.rows.any fun b ↦ b.creditable svc replan excluded && b.matchesStrictRoute svc route &&
    b.matchesStrictRoute svc route'

/-- The starts of a route and of those before it that a common request suits. -/
def rivalStarts (e : Route × ℕ) : ℕ :=
  Counter.sumWhere (fun route ↦ decide (route.order ≤ e.1.order) &&
    sharesRequest svc replan excluded pending e.1 route) u.strict

/-- What the requests of the account that are older than this one and not stale have room for. -/
def freshCapacity (a : PendingRequest) : ℕ :=
  ((pending.rows.filter fun b ↦ b.accountName == a.accountName && !b.stale svc replan &&
    decide (b.order < a.order)).map (·.capacity cfg settings)).sum

/-- What is closed is not needed on its node, and the stale requests of its account are newer than
those that cover the account. -/
structure Unneeded (starts : Route × ℕ → ℕ) : Prop where
  pinned : ∀ a ∈ pending, a.accountName ≠ "" → closes a.id = true →
    Superseded cfg settings u pending a → a.creditable svc replan excluded = true →
      0 < a.capacity cfg settings → ∀ e ∈ u.strict, 0 < e.2 →
        a.matchesStrictRoute svc e.1 = true →
          starts e ≤ earlierCapacity svc cfg settings replan excluded pending e.1 a
  stale : ∀ a ∈ pending, a.accountName ≠ "" → closes a.id = true →
    Superseded cfg settings u pending a → a.creditable svc replan excluded = true →
      ∀ s ∈ pending, s.accountName = a.accountName → s.stale svc replan = true →
        u.byAccount.get a.accountName ≤ freshCapacity svc cfg settings replan pending s

section Earlier

variable {svc cfg settings replan excluded closes u pending} {a : PendingRequest}

def earlierStocks (svc : Service) (cfg : AedtPoolConfig) (settings : ScaleSettings)
    (replan : ReplanSettings) (excluded : List String) (pending : Table PendingRequest)
    (a : PendingRequest) : List (PendingRequest × ℕ) :=
  (creditedStocks svc cfg settings replan excluded pending).filter fun s ↦ decide (s.1.id < a.id)

theorem sumWhere_earlierStocks (route : Route) :
    Counter.sumWhere (·.matchesStrictRoute svc route)
        (earlierStocks svc cfg settings replan excluded pending a) =
      earlierCapacity svc cfg settings replan excluded pending route a := by
  rw [Counter.sumWhere, earlierStocks, creditedStocks, List.filter_filter, List.filter_map,
    List.filter_filter, List.map_map, earlierCapacity]
  refine congrArg List.sum (congrArg (List.map _) (List.filter_congr fun b _ ↦ ?_))
  simp only [Function.comp_apply]
  rw [Bool.and_comm, Bool.and_right_comm]
  simp only [Bool.and_assoc, Bool.and_comm, Bool.and_left_comm]

theorem creditedStocks_split (ha : a ∈ pending)
    (hcreditable : a.creditable svc replan excluded = true) :
    ∃ later, creditedStocks svc cfg settings replan excluded pending =
        earlierStocks svc cfg settings replan excluded pending a ++
          (a, a.capacity cfg settings) :: later ∧
      ∀ s ∈ later, a.id < s.1.id := by
  have hmem : (a, a.capacity cfg settings) ∈
      creditedStocks svc cfg settings replan excluded pending :=
    List.mem_map_of_mem (List.mem_filter.mpr ⟨ha, hcreditable⟩)
  have hordered : (creditedStocks svc cfg settings replan excluded pending).Pairwise
      fun s s' ↦ s.1.id < s'.1.id := by
    have hrows : pending.rows.Pairwise fun b c ↦ b.id < c.id :=
      List.pairwise_map.mp pending.ordered
    exact List.pairwise_map.mpr (hrows.filter _)
  rw [earlierStocks]
  generalize creditedStocks svc cfg settings replan excluded pending = stocks at hmem hordered
  obtain ⟨before, later, rfl⟩ := List.append_of_mem hmem
  obtain ⟨-, htail, hbefore⟩ := List.pairwise_append.mp hordered
  have hlater := (List.pairwise_cons.mp htail).1
  refine ⟨later, congrArg (· ++ _) ?_, hlater⟩
  rw [List.filter_append, List.filter_eq_self.mpr, List.filter_eq_nil_iff.mpr, List.append_nil]
  · intro s hs
    rcases List.mem_cons.mp hs with rfl | hs
    · simp
    · simpa using (hlater s hs).le
  · intro s hs
    simpa using hbefore s hs _ (.head _)

/-- A counted request is credited if the requests before it leave a route that it suits short. -/
theorem credited_iff (ha : a ∈ pending) (hcreditable : a.creditable svc replan excluded = true) :
    (pendingLedger svc cfg settings replan excluded u pending.rows).credited cfg settings a =
        true ↔
      0 < a.capacity cfg settings ∧
        ∃ n ∈ (drawEach (fun route b ↦ b.matchesStrictRoute svc route) (sortBy (·.1.order) u.strict)
            (earlierStocks svc cfg settings replan excluded pending a)).1,
          a.matchesStrictRoute svc n.1 = true ∧ 0 < n.2 := by
  obtain ⟨later, hsplit, hlater⟩ := @creditedStocks_split _ cfg settings _ _ _ _ ha
    hcreditable
  generalize hleft : drawEach (fun route b ↦ b.matchesStrictRoute svc route)
    (sortBy (·.1.order) u.strict)
      (earlierStocks svc cfg settings replan excluded pending a) = left
  obtain ⟨rest, -, hrest, hfell⟩ := drawEach_single
    (fun route b ↦ b.matchesStrictRoute svc route) left.1 a (a.capacity cfg settings)
  have hremaining : (routesDrawn svc cfg settings replan excluded u pending).2 =
      left.2 ++ (a, rest) :: (drawEach (fun route b ↦ b.matchesStrictRoute svc route)
        (drawEach (fun route b ↦ b.matchesStrictRoute svc route) left.1
          [(a, a.capacity cfg settings)]).1 later).2 := by
    rw [routesDrawn, hsplit, drawEach_append, hleft, ← List.singleton_append, drawEach_append,
      hrest]
    rfl
  rw [← hfell, Ledger.credited, pendingLedger]
  simp only [credited_rows, hremaining]
  rw [List.any_eq_true]
  constructor
  · rintro ⟨s, hs, hcredited⟩
    obtain ⟨hid, hless⟩ := Bool.and_eq_true_iff.mp hcredited
    have hid : s.1.id = a.id := beq_iff_eq.mp hid
    rcases List.mem_append.mp hs with hs | hs
    · have hfalls := drawEach_falls (fun route (b : PendingRequest) ↦ b.matchesStrictRoute svc route)
        (sortBy (·.1.order) u.strict) (earlierStocks svc cfg settings replan excluded pending a)
      obtain ⟨s', hs', hsame⟩ := (hleft ▸ hfalls).mem_of_mem hs
      have hearlier : s'.1.id < a.id := by simpa using (List.mem_filter.mp hs').2
      rw [hsame] at hearlier
      omega
    · rcases List.mem_cons.mp hs with rfl | hs
      · simpa using hless
      · obtain ⟨s', hs', hsame⟩ := (drawEach_falls _ _ _).mem_of_mem hs
        have hafter := hlater s' hs'
        rw [hsame] at hafter
        omega
  · intro hless
    exact ⟨(a, rest), List.mem_append_right _ (.head _), by simpa using hless⟩

theorem uncredited_of_uncounted (ha : a ∈ pending)
    (hcreditable : a.creditable svc replan excluded = false) :
    (pendingLedger svc cfg settings replan excluded u pending.rows).credited cfg settings a =
      false := by
  rw [Ledger.credited, List.any_eq_false]
  intro s hs hcredited
  rw [pendingLedger] at hs
  simp only [credited_rows] at hs
  obtain ⟨hpending, hcounted⟩ := mem_routesDrawn hs
  have hsame : s.1 = a :=
    Table.eq_of_key_eq hpending ha (beq_iff_eq.mp (Bool.and_eq_true_iff.mp hcredited).1)
  rw [hsame, hcreditable] at hcounted
  cases hcounted

/-- If the requests before it have enough for a route and its rivals, they leave nothing of it. -/
theorem left_eq_zero {left : Route × ℕ} (ha : a ∈ pending)
    (hcreditable : a.creditable svc replan excluded = true)
    (hleft : left ∈ (drawEach (fun route b ↦ b.matchesStrictRoute svc route)
      (sortBy (·.1.order) u.strict)
        (earlierStocks svc cfg settings replan excluded pending a)).1)
    (hsuits : a.matchesStrictRoute svc left.1 = true)
    (hcovered : ∀ e ∈ u.strict, 0 < e.2 → a.matchesStrictRoute svc e.1 = true →
      rivalStarts svc replan excluded u pending e ≤
        earlierCapacity svc cfg settings replan excluded pending e.1 a) :
    left.2 = 0 := by
  obtain ⟨before, n, later, hneeds, hroute, hvalue⟩ := exists_need hleft
  rcases Nat.eq_zero_or_pos n.2 with hnone | hneed
  · omega
  have hn : n ∈ u.strict := mem_sortBy.mp (hneeds ▸ List.mem_append_right _ (.head _))
  rw [hroute] at hsuits
  have hcover := hcovered n hn hneed hsuits
  -- the starts of the rivals are those of the routes before this one, and its own
  have hrivals : Counter.sumWhere (sharesRequest svc replan excluded pending n.1) before + n.2 ≤
      rivalStarts svc replan excluded u pending n := by
    have hsorted : (sortBy (·.1.order) u.strict).Pairwise fun e e' ↦ e.1.order ≤ e'.1.order :=
      List.pairwise_insertionSort _ _
    rw [hneeds] at hsorted
    have hbefore : ∀ e ∈ before, e.1.order ≤ n.1.order := fun e he ↦
      (List.pairwise_append.mp hsorted).2.2 e he n (.head _)
    have hown : sharesRequest svc replan excluded pending n.1 n.1 = true :=
      List.any_eq_true.mpr ⟨a, ha, by rw [hcreditable, hsuits]; rfl⟩
    rw [rivalStarts, ← Counter.sumWhere_perm (sortBy_perm (·.1.order) u.strict), hneeds,
      Counter.sumWhere_append, Counter.sumWhere_cons, if_pos (by simp [hown])]
    have hsame := Counter.sumWhere_mono (p := sharesRequest svc replan excluded pending n.1)
      (q := fun route ↦ decide (route.order ≤ n.1.order) &&
        sharesRequest svc replan excluded pending n.1 route)
      fun e (he : e ∈ before) hshares ↦ by simp [hbefore e he, hshares]
    omega
  have hdrawn := @sumWhere_le_drawEach _ _ (fun b : PendingRequest ↦ b.matchesStrictRoute svc n.1)
    (sharesRequest svc replan excluded pending n.1) (fun route b ↦ b.matchesStrictRoute svc route)
    before (earlierStocks svc cfg settings replan excluded pending a)
    fun route hshares s hs hmatch ↦ by
      have hstock := mem_creditedStocks (List.mem_filter.mp hs).1
      rw [sharesRequest, List.any_eq_false] at hshares
      simpa [hstock.2.1, hmatch] using hshares s.1 hstock.1
  rw [sumWhere_earlierStocks] at hdrawn
  omega

theorem credited_of_unneeded
    (h : Unneeded svc cfg settings replan excluded closes u pending
      (rivalStarts svc replan excluded u pending))
    (ha : a ∈ pending) (hnamed : a.accountName ≠ "") (hcloses : closes a.id = true)
    (hsuperseded : Superseded cfg settings u pending a) :
    (pendingLedger svc cfg settings replan excluded u pending.rows).credited cfg settings a =
      false := by
  cases hcreditable : a.creditable svc replan excluded with
  | false => exact uncredited_of_uncounted ha hcreditable
  | true =>
      by_contra hcredited
      obtain ⟨hroom, left, hleft, hsuits, hshort⟩ :=
        (credited_iff ha hcreditable).mp (by simpa using hcredited)
      have hnone := left_eq_zero ha hcreditable hleft hsuits
        (h.pinned a ha hnamed hcloses hsuperseded hcreditable hroom)
      omega

/-- A route that the requests before a counted one cannot cover draws on it. -/
theorem earlier_cover_of_uncredited (ha : a ∈ pending)
    (hcreditable : a.creditable svc replan excluded = true) (hroom : 0 < a.capacity cfg settings)
    (huncredited : (pendingLedger svc cfg settings replan excluded u pending.rows).credited
      cfg settings a = false) {e : Route × ℕ} (he : e ∈ u.strict)
    (hsuits : a.matchesStrictRoute svc e.1 = true) :
    e.2 ≤ earlierCapacity svc cfg settings replan excluded pending e.1 a := by
  have hsorted : e ∈ sortBy (·.1.order) u.strict := mem_sortBy.mpr he
  obtain ⟨left, hleft, hroute, hshort⟩ :=
    @exists_left _ _ (fun route (b : PendingRequest) ↦ b.matchesStrictRoute svc route) _ e
      hsorted (earlierStocks svc cfg settings replan excluded pending a)
  rw [sumWhere_earlierStocks] at hshort
  have hnone : left.2 = 0 := by
    by_contra hleftover
    have hcredited := (credited_iff (u := u) ha hcreditable).mpr
      ⟨hroom, left, hleft, hroute ▸ hsuits, Nat.pos_of_ne_zero hleftover⟩
    rw [huncredited] at hcredited
    cases hcredited
  omega

theorem sharesRequest_comm (route route' : Route) :
    sharesRequest svc replan excluded pending route route' =
      sharesRequest svc replan excluded pending route' route := by
  unfold sharesRequest
  simp only [Bool.and_right_comm]

theorem rivalStarts_le {e : Route × ℕ} (he : e ∈ u.strict) (hneed : 0 < e.2)
    (halone : u.strict.Pairwise fun e e' ↦ 0 < e.2 → 0 < e'.2 →
      sharesRequest svc replan excluded pending e.1 e'.1 = false) :
    rivalStarts svc replan excluded u pending e ≤ e.2 := by
  obtain ⟨before, later, hsplit⟩ := List.append_of_mem he
  rw [hsplit] at halone
  obtain ⟨-, htail, hbefore⟩ := List.pairwise_append.mp halone
  have hnone (l : List (Route × ℕ)) (h : ∀ e' ∈ l, 0 < e'.2 →
      sharesRequest svc replan excluded pending e.1 e'.1 = false) :
      Counter.sumWhere (fun route ↦ decide (route.order ≤ e.1.order) &&
        sharesRequest svc replan excluded pending e.1 route) l = 0 := by
    refine List.sum_eq_zero fun n hn ↦ ?_
    obtain ⟨e', he', rfl⟩ := List.mem_map.mp hn
    obtain ⟨hmem, hshares⟩ := List.mem_filter.mp he'
    by_contra hpos
    have hapart := h e' hmem (Nat.pos_of_ne_zero hpos)
    simp [hapart] at hshares
  rw [rivalStarts, hsplit, Counter.sumWhere_append, Counter.sumWhere_cons,
    hnone before fun e' he' hpos ↦ by
      rw [sharesRequest_comm]
      exact hbefore e' he' e (.head _) hpos hneed,
    hnone later fun e' he' hpos ↦ (List.pairwise_cons.mp htail).1 e' he' hneed hpos]
  split
  · omega
  · omega

theorem freshCapacity_le_older (s : PendingRequest) :
    freshCapacity svc cfg settings replan pending s ≤
      olderCapacity (·.capacity cfg settings) (requestsOf pending s.accountName) s := by
  rw [freshCapacity, olderCapacity, requestsOf, List.filter_filter]
  refine sum_filter_le _ fun b _ hb ↦ ?_
  simp only [Bool.and_eq_true] at hb ⊢
  exact ⟨hb.2, hb.1.1⟩

theorem freshCapacity_mono {s s' : PendingRequest} (haccount : s.accountName = s'.accountName)
    (horder : s.order < s'.order) : freshCapacity svc cfg settings replan pending s ≤
      freshCapacity svc cfg settings replan pending s' := by
  refine sum_filter_le _ fun b _ hb ↦ ?_
  simp only [Bool.and_eq_true, decide_eq_true_eq] at hb ⊢
  exact ⟨haccount ▸ hb.1, hb.2.trans horder⟩

theorem olderCapacity_le_fresh {s : PendingRequest}
    (h : ∀ b ∈ pending, b.accountName = s.accountName → b.order < s.order →
      b.stale svc replan = false) :
    olderCapacity (·.capacity cfg settings) (requestsOf pending s.accountName) s ≤
      freshCapacity svc cfg settings replan pending s := by
  rw [freshCapacity, olderCapacity, requestsOf, List.filter_filter]
  refine sum_filter_le _ fun b hb hb' ↦ ?_
  simp only [Bool.and_eq_true, decide_eq_true_eq, beq_iff_eq] at hb' ⊢
  exact ⟨⟨hb'.2, by rw [h b hb hb'.2 hb'.1]; rfl⟩, hb'.1⟩

/-- If all stale requests of an account are superseded, then by requests that are not stale. -/
theorem fresh_cover {account : String} {need : ℕ}
    (h : ∀ s ∈ pending, s.accountName = account → s.stale svc replan = true →
      need ≤ olderCapacity (·.capacity cfg settings) (requestsOf pending s.accountName) s)
    {s : PendingRequest} (hs : s ∈ pending) (haccount : s.accountName = account)
    (hstale : s.stale svc replan = true) :
    need ≤ freshCapacity svc cfg settings replan pending s := by
  -- the oldest stale request is superseded by requests that are not stale
  generalize hage : (pending.rows.filter fun b ↦ decide (b.order < s.order)).length = age
  induction age using Nat.strong_induction_on generalizing s with
  | _ age ih =>
      by_cases holder : ∃ b ∈ pending, b.accountName = s.accountName ∧ b.order < s.order ∧
          b.stale svc replan = true
      · obtain ⟨b, hb, hsame, horder, hbstale⟩ := holder
        have hyounger : (pending.rows.filter fun c ↦ decide (c.order < b.order)).length < age := by
          have hfilter : (pending.rows.filter fun c ↦ decide (c.order < b.order)) =
              (pending.rows.filter fun c ↦ decide (c.order < s.order)).filter
                fun c ↦ decide (c.order < b.order) := by
            rw [List.filter_filter]
            refine List.filter_congr fun c _ ↦ ?_
            rw [← Bool.decide_and, decide_eq_decide, iff_self_and]
            exact fun hc ↦ hc.trans horder
          rw [← hage, hfilter, List.length_filter_lt_length_iff_exists]
          exact ⟨b, List.mem_filter.mpr ⟨hb, by simpa using horder⟩, by simp⟩
        exact (ih _ hyounger hb (hsame.trans haccount) hbstale rfl).trans
          (freshCapacity_mono hsame horder)
      · refine (h s hs haccount hstale).trans (olderCapacity_le_fresh fun b hb hsame horder ↦ ?_)
        by_contra hbstale
        exact holder ⟨b, hb, hsame, horder, by simpa using hbstale⟩

end Earlier

def twoRequests (older newer : String) : Table PendingRequest :=
  (Table.empty.insert fun id ↦
      { id, accountName := "lab", nodeName := older, submittedAt := "2026-01-01T00:00:00+00:00"
        resources := { totalCpus := 16, totalMemoryMb := 262144 } }).insert fun id ↦
    { id, accountName := "lab", nodeName := newer, submittedAt := "2026-01-02T00:00:00+00:00"
      resources := { totalCpus := 16, totalMemoryMb := 262144 } }

end SlurmScheduler.Pool
