import SlurmScheduler.Relational.Counter

namespace SlurmScheduler.Relational

open Counter (sumWhere sumWhere_cons)

universe u v

variable {α : Type u} {ι : Type v}

def draw (suits : α → Bool) : ℕ → List (α × ℕ) → ℕ × List (α × ℕ)
  | need, [] => (need, [])
  | need, (a, stock) :: rest =>
      let drawn := if suits a then min need stock else 0
      let later := draw suits (need - drawn) rest
      (later.1, (a, stock - drawn) :: later.2)

def drawEach (suits : ι → α → Bool) : List (ι × ℕ) → List (α × ℕ) → List (ι × ℕ) × List (α × ℕ)
  | [], stocks => ([], stocks)
  | (i, need) :: needs, stocks =>
      let first := draw (suits i) need stocks
      let later := drawEach suits needs first.2
      ((i, first.1) :: later.1, later.2)

def Falls (stocks stocks' : List (α × ℕ)) : Prop :=
  List.Forall₂ (fun s s' ↦ s'.1 = s.1 ∧ s'.2 ≤ s.2) stocks stocks'

theorem Falls.refl (stocks : List (α × ℕ)) : Falls stocks stocks :=
  List.forall₂_same.mpr fun _ _ ↦ ⟨rfl, le_rfl⟩

theorem draw_falls (suits : α → Bool) (need : ℕ) (stocks : List (α × ℕ)) :
    Falls stocks (draw suits need stocks).2 := by
  induction stocks generalizing need with
  | nil => exact .nil
  | cons s stocks ih => exact .cons ⟨rfl, Nat.sub_le _ _⟩ (ih _)

theorem Falls.trans {stocks stocks' stocks'' : List (α × ℕ)} (h : Falls stocks stocks')
    (h' : Falls stocks' stocks'') : Falls stocks stocks'' := by
  induction h generalizing stocks'' with
  | nil => exact h'
  | cons hs _ ih =>
      cases h' with
      | cons hs' h' => exact .cons ⟨hs'.1.trans hs.1, hs'.2.trans hs.2⟩ (ih h')

theorem drawEach_falls (suits : ι → α → Bool) (needs : List (ι × ℕ)) (stocks : List (α × ℕ)) :
    Falls stocks (drawEach suits needs stocks).2 := by
  induction needs generalizing stocks with
  | nil => exact .refl stocks
  | cons n needs ih => exact (draw_falls _ _ stocks).trans (ih _)

theorem Falls.items {stocks stocks' : List (α × ℕ)} (h : Falls stocks stocks') :
    stocks'.map (·.1) = stocks.map (·.1) := by
  induction h with
  | nil => rfl
  | cons hs _ ih => rw [List.map_cons, List.map_cons, hs.1, ih]

theorem Falls.mem_of_mem {stocks stocks' : List (α × ℕ)} (h : Falls stocks stocks')
    {s' : α × ℕ} (hs : s' ∈ stocks') : ∃ s ∈ stocks, s.1 = s'.1 :=
  List.mem_map.mp (h.items ▸ List.mem_map_of_mem hs)

theorem Falls.sumWhere_le {stocks stocks' : List (α × ℕ)} (h : Falls stocks stocks')
    (p : α → Bool) : sumWhere p stocks' ≤ sumWhere p stocks := by
  induction h with
  | nil => exact le_rfl
  | cons hs _ ih =>
      rw [sumWhere_cons, sumWhere_cons, hs.1]
      split
      · exact Nat.add_le_add hs.2 ih
      · exact Nat.add_le_add_left ih _

def Spares (keep : α → Bool) (stocks stocks' : List (α × ℕ)) : Prop :=
  List.Forall₂ (fun s s' ↦ s'.1 = s.1 ∧ (keep s.1 = false → s'.2 = s.2)) stocks stocks'

theorem Falls.spares {keep : α → Bool} {stocks stocks' : List (α × ℕ)}
    (h : Falls stocks stocks') (size : α → ℕ) (hsize : ∀ s ∈ stocks, s.2 = size s.1)
    (hfull : ∀ s ∈ stocks', keep s.1 = false → size s.1 ≤ s.2) : Spares keep stocks stocks' := by
  induction h with
  | nil => exact .nil
  | cons hs _ ih =>
      refine .cons ⟨hs.1, fun hkeep ↦ le_antisymm hs.2 ?_⟩
        (ih (fun s h ↦ hsize s (.tail _ h)) fun s h ↦ hfull s (.tail _ h))
      have hend := hfull _ (.head _) (hs.1 ▸ hkeep)
      rw [hs.1, ← hsize _ (.head _)] at hend
      exact hend

/-- If nothing was drawn in the end, nothing was drawn on the way. -/
theorem Spares.between {keep : α → Bool} {stocks stocks' stocks'' : List (α × ℕ)}
    (h : Spares keep stocks stocks'') (hfirst : Falls stocks stocks')
    (hlater : Falls stocks' stocks'') : Spares keep stocks stocks' ∧ Spares keep stocks' stocks'' := by
  induction hfirst generalizing stocks'' with
  | nil =>
      cases h with
      | nil => exact ⟨.nil, .nil⟩
  | cons hs _ ih =>
      cases h with
      | cons hspared h =>
          cases hlater with
          | cons hs' hlater =>
              obtain ⟨hbefore, hafter⟩ := ih h hlater
              refine ⟨.cons ⟨hs.1, fun hkeep ↦ ?_⟩ hbefore, .cons ⟨hs'.1, fun hkeep ↦ ?_⟩ hafter⟩
              · have hend := hspared.2 hkeep
                omega
              · have hend := hspared.2 (hs.1 ▸ hkeep)
                omega

theorem draw_filter {keep suits : α → Bool} {need : ℕ} {stocks : List (α × ℕ)}
    (h : Spares keep stocks (draw suits need stocks).2) :
    draw suits need (stocks.filter (keep ·.1)) =
      ((draw suits need stocks).1, (draw suits need stocks).2.filter (keep ·.1)) := by
  induction stocks generalizing need with
  | nil => rfl
  | cons s stocks ih =>
      obtain ⟨a, stock⟩ := s
      cases h with
      | cons hspared h =>
          have htail := ih h
          cases hkeep : keep a with
          | true => simp only [List.filter_cons, hkeep, if_true, draw, htail]
          | false =>
              have hnone := hspared.2 hkeep
              have hdrawn : (if suits a then min need stock else 0) ≤ stock := by
                split
                · exact min_le_right _ _
                · exact Nat.zero_le _
              simp only [List.filter_cons, hkeep, Bool.false_eq_true, if_false, draw]
              generalize (if suits a then min need stock else 0) = drawn at hnone hdrawn htail ⊢
              have hzero : drawn = 0 := by omega
              rw [hzero, Nat.sub_zero] at htail ⊢
              exact htail

theorem drawEach_filter {keep : α → Bool} {suits : ι → α → Bool} {needs : List (ι × ℕ)}
    {stocks : List (α × ℕ)} (h : Spares keep stocks (drawEach suits needs stocks).2) :
    drawEach suits needs (stocks.filter (keep ·.1)) =
      ((drawEach suits needs stocks).1, (drawEach suits needs stocks).2.filter (keep ·.1)) := by
  induction needs generalizing stocks with
  | nil => rfl
  | cons n needs ih =>
      obtain ⟨hfirst, hlater⟩ := Spares.between h (draw_falls _ _ _) (drawEach_falls _ _ _)
      simp only [drawEach, draw_filter hfirst, ih hlater]

theorem sumWhere_le_draw (p suits : α → Bool) (need : ℕ) (stocks : List (α × ℕ)) :
    sumWhere p stocks ≤ sumWhere p (draw suits need stocks).2 + need := by
  induction stocks generalizing need with
  | nil => exact Nat.zero_le _
  | cons s stocks ih =>
      obtain ⟨a, stock⟩ := s
      simp only [draw, sumWhere_cons]
      have hdrawn : (if suits a then min need stock else 0) ≤ need := by
        split
        · exact min_le_left _ _
        · exact Nat.zero_le _
      generalize (if suits a then min need stock else 0) = drawn at hdrawn ⊢
      have htail := ih (need - drawn)
      split
      · omega
      · omega

/-- A need that suits none of the items draws nothing from them. -/
theorem sumWhere_draw_of_unsuited {p suits : α → Bool} (need : ℕ) {stocks : List (α × ℕ)}
    (h : ∀ s ∈ stocks, suits s.1 = true → p s.1 = false) :
    sumWhere p (draw suits need stocks).2 = sumWhere p stocks := by
  induction stocks generalizing need with
  | nil => rfl
  | cons s stocks ih =>
      obtain ⟨a, stock⟩ := s
      have htail (need : ℕ) := ih need fun s hs ↦ h s (.tail _ hs)
      simp only [draw, sumWhere_cons, htail]
      cases hp : p a with
      | false => simp
      | true =>
          have hsuits : suits a = false := by
            by_contra hsuits
            simp [h (a, stock) (.head _) (by simpa using hsuits)] at hp
          simp [hsuits]

/-- What is drawn from the items adds up to no more than the needs that suit some of them. -/
theorem sumWhere_le_drawEach (p : α → Bool) {q : ι → Bool} {suits : ι → α → Bool}
    (needs : List (ι × ℕ)) {stocks : List (α × ℕ)}
    (h : ∀ i, q i = false → ∀ s ∈ stocks, suits i s.1 = true → p s.1 = false) :
    sumWhere p stocks ≤ sumWhere p (drawEach suits needs stocks).2 + sumWhere q needs := by
  induction needs generalizing stocks with
  | nil => exact Nat.le_add_right _ _
  | cons n needs ih =>
      obtain ⟨i, need⟩ := n
      simp only [drawEach, sumWhere_cons]
      have hrest := @ih (draw (suits i) need stocks).2 fun j hj s' hs' hsuits ↦ by
        obtain ⟨s, hs, hsame⟩ := (draw_falls _ _ _).mem_of_mem hs'
        exact hsame ▸ h j hj s hs (hsame ▸ hsuits)
      cases hq : q i with
      | true =>
          have hfirst := sumWhere_le_draw p (suits i) need stocks
          rw [if_pos rfl]
          omega
      | false =>
          rw [sumWhere_draw_of_unsuited need (h i hq)] at hrest
          simpa using hrest

theorem draw_left (suits : α → Bool) (need : ℕ) (stocks : List (α × ℕ)) :
    (draw suits need stocks).1 = need - sumWhere suits stocks := by
  induction stocks generalizing need with
  | nil => rfl
  | cons s stocks ih =>
      obtain ⟨a, stock⟩ := s
      simp only [draw, ih, sumWhere_cons]
      split
      · omega
      · omega

theorem draw_append (suits : α → Bool) (need : ℕ) (stocks later : List (α × ℕ)) :
    draw suits need (stocks ++ later) =
      ((draw suits (draw suits need stocks).1 later).1,
        (draw suits need stocks).2 ++ (draw suits (draw suits need stocks).1 later).2) := by
  induction stocks generalizing need with
  | nil => rfl
  | cons s stocks ih => simp only [List.cons_append, draw, ih]

/-- The needs draw on the first stocks, and what is left of them on the later ones. -/
theorem drawEach_append (suits : ι → α → Bool) (needs : List (ι × ℕ))
    (stocks later : List (α × ℕ)) :
    drawEach suits needs (stocks ++ later) =
      ((drawEach suits (drawEach suits needs stocks).1 later).1,
        (drawEach suits needs stocks).2 ++
          (drawEach suits (drawEach suits needs stocks).1 later).2) := by
  induction needs generalizing stocks later with
  | nil => rfl
  | cons n needs ih => simp only [drawEach, draw_append, ih]

/-- A single stock falls if a need that suits it comes to it. -/
theorem drawEach_single (suits : ι → α → Bool) (needs : List (ι × ℕ)) (a : α) (stock : ℕ) :
    ∃ rest ≤ stock, (drawEach suits needs [(a, stock)]).2 = [(a, rest)] ∧
      (rest < stock ↔ 0 < stock ∧ ∃ n ∈ needs, suits n.1 a = true ∧ 0 < n.2) := by
  induction needs generalizing stock with
  | nil => exact ⟨stock, le_rfl, rfl, by simp⟩
  | cons n needs ih =>
      obtain ⟨i, need⟩ := n
      obtain ⟨rest, hle, hrest, hiff⟩ := ih (stock - if suits i a then min need stock else 0)
      refine ⟨rest, hle.trans (Nat.sub_le _ _), hrest, ?_⟩
      by_cases hdraws : suits i a = true ∧ 0 < need ∧ 0 < stock
      · obtain ⟨hsuits, hneed, hstock⟩ := hdraws
        rw [if_pos hsuits] at hle
        have hfell : rest < stock := by omega
        exact iff_of_true hfell ⟨hstock, _, .head _, hsuits, hneed⟩
      · have hnone : (if suits i a then min need stock else 0) = 0 := by
          split
          · rename_i hsuits
            simp only [hsuits, true_and] at hdraws
            omega
          · rfl
        rw [hnone, Nat.sub_zero] at hiff
        rw [hiff]
        refine and_congr_right fun hstock ↦ ?_
        simp only [hstock, and_true] at hdraws
        simp [hdraws]

/-- What is left of a need is what the earlier needs leave it short of. -/
theorem exists_need {suits : ι → α → Bool} {needs : List (ι × ℕ)} {stocks : List (α × ℕ)}
    {left : ι × ℕ} (hleft : left ∈ (drawEach suits needs stocks).1) :
    ∃ earlier n later, needs = earlier ++ n :: later ∧ left.1 = n.1 ∧
      left.2 = n.2 - sumWhere (suits n.1) (drawEach suits earlier stocks).2 := by
  induction needs generalizing stocks with
  | nil => cases hleft
  | cons m needs ih =>
      rcases List.mem_cons.mp hleft with rfl | hleft
      · exact ⟨[], m, needs, rfl, rfl, draw_left _ _ _⟩
      · obtain ⟨earlier, n, later, rfl, hsame, hvalue⟩ := ih hleft
        exact ⟨m :: earlier, n, later, rfl, hsame, hvalue⟩

/-- A need is left over at least as far as the stocks that suit it fall short of it. -/
theorem exists_left {suits : ι → α → Bool} {needs : List (ι × ℕ)} {n : ι × ℕ} (hn : n ∈ needs)
    (stocks : List (α × ℕ)) : ∃ left ∈ (drawEach suits needs stocks).1, left.1 = n.1 ∧
      n.2 ≤ left.2 + sumWhere (suits n.1) stocks := by
  induction needs generalizing stocks with
  | nil => cases hn
  | cons m needs ih =>
      rcases List.mem_cons.mp hn with rfl | hn
      · refine ⟨_, .head _, rfl, ?_⟩
        rw [draw_left]
        omega
      · obtain ⟨left, hleft, hsame, hle⟩ := ih hn (draw (suits m.1) m.2 stocks).2
        have hfall := (draw_falls (suits m.1) m.2 stocks).sumWhere_le (suits n.1)
        exact ⟨left, .tail _ hleft, hsame, by omega⟩

end SlurmScheduler.Relational
