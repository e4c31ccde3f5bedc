import Mathlib.Tactic

namespace SlurmScheduler.Relational

variable {α κ : Type} [LinearOrder κ]

section SortedBy

variable (key : α → κ)

def sortedBy (l : List α) : List α := l.insertionSort fun a b ↦ key a ≤ key b

variable {key} {l : List α}

theorem sortedBy_perm (l : List α) : (sortedBy key l).Perm l := List.perm_insertionSort _ l

@[simp] theorem mem_sortedBy {x : α} : x ∈ sortedBy key l ↔ x ∈ l := (sortedBy_perm l).mem_iff

@[simp] theorem length_sortedBy : (sortedBy key l).length = l.length := (sortedBy_perm l).length_eq

theorem sortedBy_pairwise (l : List α) : (sortedBy key l).Pairwise (key · ≤ key ·) := by
  have : Std.Total fun a b : α ↦ key a ≤ key b := ⟨fun a b ↦ le_total (key a) (key b)⟩
  have : IsTrans α fun a b ↦ key a ≤ key b := ⟨fun _ _ _ h h' ↦ h.trans h'⟩
  exact List.pairwise_insertionSort _ l

theorem sortedBy_pairwise_lt (h : (l.map key).Nodup) :
    (sortedBy key l).Pairwise (key · < key ·) := by
  have hne : (sortedBy key l).Pairwise (key · ≠ key ·) := by
    rw [← List.pairwise_map (f := key) (R := (· ≠ ·))]
    exact ((sortedBy_perm l).map key).nodup_iff.mpr h
  exact ((sortedBy_pairwise l).and hne).imp fun h ↦ lt_of_le_of_ne h.1 h.2

theorem groups_perm {ι : Type} [DecidableEq ι] (f : α → ι) {ks : List ι} (hnodup : ks.Nodup)
    (l : List α) : (ks.flatMap fun k ↦ l.filter (f · == k)).Perm (l.filter (ks.contains <| f ·)) := by
  induction ks with
  | nil => simp
  | cons k ks ih =>
      obtain ⟨hk, hks⟩ := List.nodup_cons.mp hnodup
      have hfirst : (l.filter ((k :: ks).contains <| f ·)).filter (f · == k) = l.filter (f · == k) := by
        rw [List.filter_filter]
        refine List.filter_congr fun x _ ↦ ?_
        by_cases hx : f x = k <;> simp [hx]
      have hrest : (l.filter ((k :: ks).contains <| f ·)).filter (fun x ↦ !(f x == k)) =
          l.filter (ks.contains <| f ·) := by
        rw [List.filter_filter]
        refine List.filter_congr fun x _ ↦ ?_
        by_cases hx : f x = k <;> simp [hx, hk]
      have hsplit := List.filter_append_perm (fun x ↦ f x == k) (l.filter ((k :: ks).contains <| f ·))
      rw [hfirst, hrest] at hsplit
      rw [List.flatMap_cons]
      exact ((ih hks).append_left _).trans hsplit

def bisectRight (l : List κ) (c : κ) : ℕ := l.findIdx (c < ·)

theorem bisect_sorted {l : List κ} (h : l.Pairwise (· < ·)) (c : κ) :
    l.drop (bisectRight l c) = l.filter (c < ·) ∧
      l.take (bisectRight l c) = l.filter (· ≤ c) := by
  unfold bisectRight
  induction l with
  | nil => simp
  | cons x l ih =>
      obtain ⟨hx, hl⟩ := List.pairwise_cons.mp h
      by_cases hc : c < x
      · have hall : ∀ y ∈ l, c < y := fun y hy ↦ hc.trans (hx y hy)
        have hnone : l.filter (· ≤ c) = [] :=
          List.filter_eq_nil_iff.mpr fun y hy ↦ by simpa using hall y hy
        have hevery : l.filter (c < ·) = l :=
          List.filter_eq_self.mpr fun y hy ↦ by simpa using hall y hy
        simp [List.findIdx_cons, hc, hnone, hevery]
      · obtain ⟨hdrop, htake⟩ := ih hl
        simp [List.findIdx_cons, hc, hdrop, htake, not_lt.mp hc]

end SortedBy

/-- Going up from the cursor and round, `x` is met before `t`. -/
def Ahead (c x t : κ) : Prop := c < x ∧ (t ≤ c ∨ x < t) ∨ x ≤ c ∧ t ≤ c ∧ x < t

instance (c x t : κ) : Decidable (Ahead c x t) := by unfold Ahead; infer_instance

theorem Ahead.irrefl {c x : κ} : ¬ Ahead c x x := by
  rintro (⟨hc, h | h⟩ | ⟨-, -, h⟩)
  · exact absurd (hc.trans_le h) (lt_irrefl c)
  · exact lt_irrefl x h
  · exact lt_irrefl x h

theorem Ahead.asymm {c x t : κ} (h : Ahead c x t) : ¬ Ahead c t x := by
  unfold Ahead at *
  grind

theorem Ahead.from {c u x t : κ} (h : Ahead c u t) (h' : Ahead u x t) :
    Ahead c u x ∧ Ahead c x t := by
  unfold Ahead at *
  grind

theorem Ahead.after {c u x t : κ} (h : Ahead c u x) (h' : Ahead c x t) : Ahead u x t := by
  unfold Ahead at *
  grind

/-- Every item is met after the one before it and before `t`. -/
def Approach (t : κ) : κ → List κ → Prop
  | _, [] => True
  | c, x :: xs => Ahead c x t ∧ Approach t x xs

section Approach

variable {c t : κ} {xs ys : List κ}

theorem Approach.of_pairwise (hbefore : ∀ x ∈ xs, Ahead c x t) (h : xs.Pairwise (Ahead c)) :
    Approach t c xs := by
  induction xs generalizing c with
  | nil => trivial
  | cons x xs ih =>
      obtain ⟨hx, hxs⟩ := List.pairwise_cons.mp h
      have hlater (y : κ) (hy : y ∈ xs) : Ahead c y t := hbefore y (List.mem_cons_of_mem _ hy)
      refine ⟨hbefore x (List.mem_cons_self ..), ih (fun y hy ↦ (hx y hy).after (hlater y hy)) ?_⟩
      exact hxs.imp_of_mem fun {y z} hy hz hyz ↦ ((hx y hy).after hyz)

theorem Approach.append (h : Approach t c xs) (h' : Approach t (xs.getLast?.getD c) ys) :
    Approach t c (xs ++ ys) := by
  induction xs generalizing c with
  | nil => exact h'
  | cons x xs ih =>
      refine ⟨h.1, ih h.2 ?_⟩
      cases xs with
      | nil => exact h'
      | cons y xs => simpa only [List.getLast?_cons, Option.getD_some] using h'

theorem Approach.ahead (h : Approach t c xs) : ∀ x ∈ xs, Ahead c x t := by
  induction xs generalizing c with
  | nil => simp
  | cons x xs ih =>
      intro y hy
      rcases List.mem_cons.mp hy with rfl | hy
      · exact h.1
      · exact (h.1.from (ih h.2 y hy)).2

theorem Approach.nodup (h : Approach t c xs) : (t :: xs).Nodup := by
  refine List.nodup_cons.mpr ⟨fun ht ↦ Ahead.irrefl (h.ahead t ht), ?_⟩
  induction xs generalizing c with
  | nil => exact List.nodup_nil
  | cons x xs ih =>
      refine List.nodup_cons.mpr ⟨fun hx ↦ ?_, ih h.2⟩
      exact Ahead.irrefl (h.1.from (h.2.ahead x hx)).1

end Approach

section Rotate

variable (key : α → κ)

def rotate (c : κ) (l : List α) : List α := l.filter (c < key ·) ++ l.filter (key · ≤ c)

variable {key} {c : κ} {l l' : List α}

theorem rotate_perm (c : κ) (l : List α) : (rotate key c l).Perm l := by
  have h : l.filter (key · ≤ c) = l.filter fun x ↦ !decide (c < key x) :=
    List.filter_congr fun x _ ↦ by simp [← not_lt]
  rw [rotate, h]
  exact List.filter_append_perm _ l

@[simp] theorem mem_rotate {x : α} : x ∈ rotate key c l ↔ x ∈ l := (rotate_perm c l).mem_iff

@[simp] theorem length_rotate : (rotate key c l).length = l.length := (rotate_perm c l).length_eq

theorem rotate_pairwise (h : l.Pairwise (key · < key ·)) :
    (rotate key c l).Pairwise fun x y ↦ Ahead c (key x) (key y) := by
  refine List.pairwise_append.mpr ⟨?_, ?_, ?_⟩
  · refine (h.filter _).imp_of_mem fun {x y} hx _ hxy ↦ ?_
    exact .inl ⟨by simpa using (List.mem_filter.mp hx).2, .inr hxy⟩
  · refine (h.filter _).imp_of_mem fun {x y} hx hy hxy ↦ ?_
    exact .inr ⟨by simpa using (List.mem_filter.mp hx).2, by simpa using (List.mem_filter.mp hy).2,
      hxy⟩
  · intro x hx y hy
    exact .inl ⟨by simpa using (List.mem_filter.mp hx).2, .inl (by simpa using (List.mem_filter.mp hy).2)⟩

def waiting (key : α → κ) (c : κ) (l : List α) (t : κ) : ℕ := l.countP fun x ↦ Ahead c (key x) t

/-- An item that is not among the first `m + 1` moves up by `m + 1` places. -/
theorem waiting_take (hsorted : l.Pairwise (key · < key ·)) {t u : α} {taken rest : List α}
    (hsplit : rotate key c l = taken ++ u :: rest) (ht : t ∈ rest) :
    waiting key (key u) l (key t) + (taken.length + 1) ≤ waiting key c l (key t) := by
  have hpairwise := rotate_pairwise (c := c) hsorted
  rw [hsplit, List.pairwise_append, List.pairwise_cons] at hpairwise
  obtain ⟨-, ⟨hu, hrest⟩, htaken⟩ := hpairwise
  have hcount (c' : κ) : waiting key c' l (key t) =
      taken.countP (fun x ↦ Ahead c' (key x) (key t)) +
        ((if Ahead c' (key u) (key t) then 1 else 0) +
          rest.countP fun x ↦ Ahead c' (key x) (key t)) := by
    have hperm : (rotate key c l).Perm l := rotate_perm c l
    rw [waiting, ← hperm.countP_eq, hsplit, List.countP_append, List.countP_cons]
    simp [Nat.add_comm]
  have hut := hu t ht
  -- from the new cursor, only what lies between it and `t` is met before `t`
  have hbefore : taken.countP (fun x ↦ Ahead (key u) (key x) (key t)) = 0 := by
    refine List.countP_eq_zero.mpr fun x hx ↦ ?_
    intro h
    exact (htaken x hx u (List.mem_cons_self ..)).asymm (hut.from (by simpa using h)).1
  have hself : ¬ Ahead (key u) (key u) (key t) := fun h ↦ Ahead.irrefl (hut.from h).1
  have hafter : rest.countP (fun x ↦ Ahead (key u) (key x) (key t)) ≤
      rest.countP fun x ↦ Ahead c (key x) (key t) :=
    List.countP_mono_left fun x _ h ↦ by simpa using (hut.from (by simpa using h)).2
  have hall : taken.countP (fun x ↦ Ahead c (key x) (key t)) = taken.length := by
    refine List.countP_eq_length.mpr fun x hx ↦ ?_
    simpa using htaken x hx t (List.mem_cons_of_mem _ ht)
  rw [hcount c, hcount (key u), hbefore, if_neg hself, hall, if_pos hut]
  omega

end Rotate

end SlurmScheduler.Relational
