import Mathlib.Tactic

namespace SlurmScheduler.Relational

def collected (read : ℕ → Option ℕ → List ℕ) : ℕ → List ℕ
  | 0 => []
  | n + 1 => collected read n ++ read n (collected read n).min?

def readAt (read : ℕ → Option ℕ → List ℕ) (n : ℕ) : List ℕ := read n (collected read n).min?

def Below (cursor : Option ℕ) (k : ℕ) : Prop := ∀ c ∈ cursor, k < c

structure IsPage (population : ℕ → Prop) (cursor : Option ℕ) (page : List ℕ) : Prop where
  descending : page.Pairwise (· > ·)
  drawn : ∀ k ∈ page, population k
  below : ∀ k ∈ page, Below cursor k
  greatest : ∀ k, population k → Below cursor k → k ∉ page → page ≠ [] ∧ ∀ j ∈ page, k < j

theorem below_min? {keys : List ℕ} {k : ℕ} : Below keys.min? k ↔ ∀ j ∈ keys, k < j := by
  unfold Below
  constructor
  · intro h j hj
    cases hmin : keys.min? with
    | none =>
      rw [List.min?_eq_none_iff] at hmin
      rw [hmin] at hj
      cases hj
    | some c =>
      have hk := h c (by rw [hmin]; rfl)
      have hc := (List.min?_eq_some_iff.mp hmin).2 j hj
      omega
  · intro h c hc
    exact h c (List.min?_eq_some_iff.mp hc).1

theorem exists_of_mem_collected {read : ℕ → Option ℕ → List ℕ} {n k : ℕ}
    (h : k ∈ collected read n) : ∃ i cursor, k ∈ read i cursor := by
  induction n with
  | zero => cases h
  | succ n ih =>
    rcases List.mem_append.mp h with h | h
    · exact ih h
    · exact ⟨n, _, h⟩

/-- A strictly descending list is no longer than its first key allows. -/
theorem length_le_head {keys : List ℕ} {k : ℕ} (h : (k :: keys).Pairwise (· > ·)) :
    keys.length ≤ k := by
  induction keys generalizing k with
  | nil => simp
  | cons j keys ih =>
    obtain ⟨hk, htail⟩ := List.pairwise_cons.mp h
    have hlength := ih htail
    have hj := hk j (by simp)
    rw [List.length_cons]
    omega

section Reads

variable {valid : ℕ → Prop} {population : ℕ → ℕ → Prop} {read : ℕ → Option ℕ → List ℕ}
  (hvalid : ∀ n k, population n k → valid k)
  (hread : ∀ n cursor, (∀ c ∈ cursor, valid c) → IsPage (population n) cursor (read n cursor))
include hvalid hread

theorem collected_page (n : ℕ) :
    (∀ k ∈ collected read n, valid k) ∧
      IsPage (population n) (collected read n).min? (readAt read n) := by
  have hpage : ∀ keys : List ℕ, (∀ k ∈ keys, valid k) →
      IsPage (population n) keys.min? (read n keys.min?) := by
    intro keys hkeys
    apply hread
    intro c hc
    exact hkeys c (List.min?_eq_some_iff.mp hc).1
  have hall : ∀ m, ∀ k ∈ collected read m, valid k := by
    intro m
    induction m with
    | zero =>
      intro k hk
      cases hk
    | succ m ih =>
      intro k hk
      rcases List.mem_append.mp hk with hk | hk
      · exact ih k hk
      · refine hvalid m k ((hread m _ fun c hc ↦ ?_).drawn k hk)
        exact ih c (List.min?_eq_some_iff.mp hc).1
  exact ⟨hall n, hpage _ (hall n)⟩

theorem collected_descending (n : ℕ) : (collected read n).Pairwise (· > ·) := by
  induction n with
  | zero => exact .nil
  | succ n ih =>
    have hpage := (collected_page hvalid hread n).2
    refine List.pairwise_append.mpr ⟨ih, hpage.descending, ?_⟩
    intro j hj k hk
    exact below_min?.mp (hpage.below k hk) j hj

theorem collected_nodup (n : ℕ) : (collected read n).Nodup :=
  (collected_descending hvalid hread n).imp fun h ↦ (Nat.ne_of_lt h).symm

/-- A key that stays in the population is returned, or lies below all that has been returned. -/
theorem collected_or_below (n k : ℕ) (hk : ∀ i < n, population i k) :
    k ∈ collected read n ∨ ∀ j ∈ collected read n, k < j := by
  induction n with
  | zero =>
    right
    intro j hj
    cases hj
  | succ n ih =>
    rcases ih fun i hi ↦ hk i (by omega) with hin | hbelow
    · exact .inl (List.mem_append_left _ hin)
    · by_cases hpage : k ∈ read n (collected read n).min?
      · exact .inl (List.mem_append_right _ hpage)
      · right
        intro j hj
        rcases List.mem_append.mp hj with hj | hj
        · exact hbelow j hj
        · exact ((collected_page hvalid hread n).2.greatest k (hk n (by omega))
            (below_min?.mpr hbelow) hpage).2 j hj

/-- Nothing that stayed in the population is missing when a read returns nothing. -/
theorem mem_collected_of_end {n k : ℕ} (hend : readAt read n = []) (hk : ∀ i ≤ n, population i k) :
    k ∈ collected read n := by
  rcases collected_or_below hvalid hread n k fun i hi ↦ hk i (by omega) with hin | hbelow
  · exact hin
  · have hnone : k ∉ read n (collected read n).min? := by
      rw [show read n (collected read n).min? = [] from hend]
      exact List.not_mem_nil
    exact absurd hend ((collected_page hvalid hread n).2.greatest k (hk n le_rfl)
      (below_min?.mpr hbelow) hnone).1

theorem reads_end : ∃ n, readAt read n = [] := by
  by_contra hnone
  push Not at hnone
  have hgrow : ∀ n, n ≤ (collected read n).length := by
    intro n
    induction n with
    | zero => simp
    | succ n ih =>
      have hpos := List.length_pos_of_ne_nil (hnone n)
      rw [readAt] at hpos
      rw [collected, List.length_append]
      omega
  obtain ⟨k, keys, hfirst⟩ := List.exists_cons_of_ne_nil (hnone 0)
  have hprefix : ∀ n, ∃ rest, collected read (n + 1) = k :: rest := by
    intro n
    induction n with
    | zero => exact ⟨keys, hfirst⟩
    | succ n ih =>
      obtain ⟨rest, hrest⟩ := ih
      exact ⟨rest ++ read (n + 1) (collected read (n + 1)).min?, by
        rw [collected, hrest, List.cons_append]⟩
  obtain ⟨rest, hrest⟩ := hprefix (k + 1)
  have hlong := hgrow (k + 2)
  have hshort := length_le_head (hrest ▸ collected_descending hvalid hread (k + 2))
  rw [hrest, List.length_cons] at hlong
  omega

end Reads

end SlurmScheduler.Relational
