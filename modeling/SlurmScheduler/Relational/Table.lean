import Mathlib.Tactic

namespace SlurmScheduler.Relational

universe u

class Keyed (α : Type u) where
  key : α → ℕ

open Keyed (key)

structure Table (α : Type u) [Keyed α] where
  rows : List α
  ordered : (rows.map key).Pairwise (· < ·)

namespace Table

variable {α : Type u} [Keyed α]

instance : Membership α (Table α) := ⟨fun t r ↦ r ∈ t.rows⟩

theorem mem_def {t : Table α} {r : α} : r ∈ t ↔ r ∈ t.rows := Iff.rfl

instance (t : Table α) (p : α → Prop) [DecidablePred p] : Decidable (∀ r ∈ t, p r) :=
  inferInstanceAs (Decidable (∀ r ∈ t.rows, p r))

instance (t : Table α) (p : α → Prop) [DecidablePred p] : Decidable (∃ r ∈ t, p r) :=
  inferInstanceAs (Decidable (∃ r ∈ t.rows, p r))

def empty : Table α := ⟨[], List.Pairwise.nil⟩

instance : Inhabited (Table α) := ⟨empty⟩

def find? (t : Table α) (k : ℕ) : Option α := t.rows.find? (fun r ↦ key r == k)

def select (t : Table α) (p : α → Bool) : List α := t.rows.filter p

def count (t : Table α) (p : α → Bool) : ℕ := t.rows.countP p

def lastKey (t : Table α) : ℕ := (t.rows.map key).getLast?.getD 0

def nextKey (t : Table α) : ℕ := t.lastKey + 1

/-- `UPDATE … SET f WHERE p`.  The assignment may not touch the key. -/
def update (t : Table α) (p : α → Bool) (f : α → α)
    (hf : ∀ r, key (f r) = key r := by intro r; rfl) : Table α where
  rows := t.rows.map fun r ↦ if p r then f r else r
  ordered := by
    have hkeys : (t.rows.map fun r ↦ if p r then f r else r).map key = t.rows.map key := by
      rw [List.map_map]
      refine List.map_congr_left fun r _ ↦ ?_
      by_cases hp : p r <;> simp [hp, hf]
    rw [hkeys]
    exact t.ordered

def view {β : Type u} [Keyed β] (t : Table α) (f : α → β)
    (hf : ∀ r, key (f r) = key r := by intro r; rfl) : Table β where
  rows := t.rows.map f
  ordered := by
    have hkeys : (t.rows.map f).map key = t.rows.map key := by
      rw [List.map_map]
      exact List.map_congr_left fun r _ ↦ hf r
    rw [hkeys]
    exact t.ordered

theorem le_lastKey {t : Table α} {r : α} (hr : r ∈ t) : key r ≤ t.lastKey := by
  have hmem : key r ∈ t.rows.map key := List.mem_map_of_mem hr
  have hord := t.ordered
  unfold lastKey
  revert hmem hord
  generalize t.rows.map key = ks
  induction ks using List.reverseRecOn with
  | nil => simp
  | append_singleton ks k ih =>
      intro hmem hord
      simp only [List.getLast?_append, List.getLast?_singleton, Option.some_or, Option.getD_some]
      rcases List.mem_append.mp hmem with h | h
      · exact le_of_lt ((List.pairwise_append.mp hord).2.2 _ h _ (by simp))
      · exact (List.mem_singleton.mp h).le

theorem lt_nextKey {t : Table α} {r : α} (hr : r ∈ t) : key r < t.nextKey :=
  Nat.lt_succ_of_le (le_lastKey hr)

/-- `INSERT` of the row that `mk` builds for the next key. -/
def insert (t : Table α) (mk : ℕ → α) (hmk : ∀ k, key (mk k) = k := by intro k; rfl) :
    Table α where
  rows := t.rows ++ [mk t.nextKey]
  ordered := by
    simp only [List.map_append, List.map_cons, List.map_nil, hmk]
    refine List.pairwise_append.mpr ⟨t.ordered, List.pairwise_singleton _ _, ?_⟩
    intro a ha b hb
    obtain ⟨r, hr, rfl⟩ := List.mem_map.mp ha
    rw [List.mem_singleton.mp hb]
    exact lt_nextKey hr

theorem eq_of_key_eq {t : Table α} {r s : α} (hr : r ∈ t) (hs : s ∈ t) (h : key r = key s) :
    r = s := by
  have hne : t.rows.Pairwise fun a b ↦ key a ≠ key b :=
    (List.pairwise_map.mp t.ordered).imp fun hlt ↦ hlt.ne
  by_contra hrs
  have : Std.Symm fun a b : α ↦ key a ≠ key b := ⟨fun _ _ ↦ Ne.symm⟩
  exact hne.forall hr hs hrs h

theorem nodup_rows (t : Table α) : t.rows.Nodup :=
  (List.pairwise_map.mp t.ordered).imp fun hlt heq ↦ by simp [heq] at hlt

@[simp]
theorem mem_select {t : Table α} {p : α → Bool} {r : α} : r ∈ t.select p ↔ r ∈ t ∧ p r = true :=
  List.mem_filter

theorem find?_eq_some {t : Table α} {k : ℕ} {r : α} :
    t.find? k = some r ↔ r ∈ t ∧ key r = k := by
  constructor
  · intro h
    exact ⟨List.mem_of_find?_eq_some h, by simpa using List.find?_some h⟩
  · rintro ⟨hr, rfl⟩
    cases hf : t.find? (key r) with
    | none => exact absurd (List.find?_eq_none.mp hf r hr) (by simp)
    | some s =>
        have hs : key s = key r := by simpa using List.find?_some hf
        rw [eq_of_key_eq (List.mem_of_find?_eq_some hf) hr hs]

theorem find?_key {t : Table α} {r : α} (hr : r ∈ t) : t.find? (key r) = some r :=
  find?_eq_some.mpr ⟨hr, rfl⟩

@[simp]
theorem mem_update {t : Table α} {p : α → Bool} {f : α → α} {hf : ∀ r, key (f r) = key r} {r : α} :
    r ∈ t.update p f hf ↔ ∃ a ∈ t, (if p a then f a else a) = r :=
  List.mem_map

@[simp]
theorem mem_insert {t : Table α} {mk : ℕ → α} {hmk : ∀ k, key (mk k) = k} {r : α} :
    r ∈ t.insert mk hmk ↔ r ∈ t ∨ r = mk t.nextKey := by
  simp [insert, mem_def]

theorem find?_update {t : Table α} {p : α → Bool} {f : α → α} {hf : ∀ r, key (f r) = key r}
    (k : ℕ) : (t.update p f hf).find? k = (t.find? k).map fun r ↦ if p r then f r else r := by
  have hkey : ∀ r, key (if p r then f r else r) = key r := fun r ↦ by split <;> simp [hf]
  simp only [find?, update, List.find?_map, Function.comp_def, hkey]

theorem update_eq_self_iff {t : Table α} {p : α → Bool} {f : α → α} {hf : ∀ r, key (f r) = key r} :
    t.update p f hf = t ↔ ∀ r ∈ t, p r = true → f r = r := by
  have hext : t.update p f hf = t ↔ (t.update p f hf).rows = t.rows := by
    cases t
    simp [update]
  rw [hext]
  constructor
  · intro h r hr hp
    have hmap : t.rows.map (fun r ↦ if p r then f r else r) = t.rows.map id := by
      simpa [update] using h
    simpa [hp] using List.map_inj_left.mp hmap r hr
  · intro h
    refine (List.map_congr_left fun r hr ↦ ?_).trans (List.map_id' t.rows)
    by_cases hp : p r = true
    · simp [hp, h r hr hp]
    · simp [hp]

theorem count_pos {t : Table α} {p : α → Bool} : 0 < t.count p ↔ ∃ r ∈ t, p r = true :=
  List.countP_pos_iff

theorem count_eq_zero {t : Table α} {p : α → Bool} : t.count p = 0 ↔ ∀ r ∈ t, p r = false := by
  simp [count, List.countP_eq_zero, mem_def]

theorem count_insert {t : Table α} {mk : ℕ → α} {hmk : ∀ k, key (mk k) = k} (p : α → Bool) :
    (t.insert mk hmk).count p = t.count p + if p (mk t.nextKey) then 1 else 0 := by
  simp [count, insert, List.countP_append, List.countP_cons]

theorem count_update {p q : α → Bool} {f : α → α} {t : Table α}
    {hf : ∀ r, key (f r) = key r} :
    (t.update p f hf).count q = t.rows.countP fun r ↦ q (if p r then f r else r) := by
  simp [count, update, List.countP_map, Function.comp_def]

/-- An update by which one row stops to count and no row starts to. -/
theorem count_update_lt {p q : α → Bool} {f : α → α} {t : Table α}
    {hf : ∀ r, key (f r) = key r} {a : α} (ha : a ∈ t) (hqa : q a = true)
    (hna : q (if p a then f a else a) = false)
    (hle : ∀ r ∈ t, q (if p r then f r else r) = true → q r = true) :
    (t.update p f hf).count q < t.count q := by
  rw [count_update, count]
  simp only [mem_def] at ha hle
  revert ha hle
  generalize t.rows = l
  induction l with
  | nil => simp
  | cons r l ih =>
      intro ha hle
      have htail : (l.countP fun r ↦ q (if p r then f r else r)) ≤ l.countP q :=
        List.countP_mono_left fun r hr ↦ hle r (List.mem_cons_of_mem _ hr)
      simp only [List.countP_cons]
      rcases List.mem_cons.mp ha with rfl | ha
      · simp only [hqa, hna]
        simpa using Nat.lt_succ_of_le htail
      · have hlt := ih ha fun r hr ↦ hle r (List.mem_cons_of_mem _ hr)
        have hhead := hle r List.mem_cons_self
        cases hq : q (if p r then f r else r) with
        | false => simpa using Nat.lt_of_lt_of_le hlt (Nat.le_add_right _ _)
        | true => simpa [hhead hq] using hlt

theorem count_update_le_succ {p q : α → Bool} {f : α → α} {t : Table α}
    {hf : ∀ r, key (f r) = key r}
    (huniq : ∀ a ∈ t, ∀ b ∈ t, p a = true → p b = true → a = b) :
    (t.update p f hf).count q ≤ t.count q + 1 := by
  rw [count_update, count]
  have hnodup := t.nodup_rows
  simp only [mem_def] at huniq
  revert huniq hnodup
  generalize t.rows = l
  induction l with
  | nil => simp
  | cons r l ih =>
      intro hnodup huniq
      have hnodup := List.nodup_cons.mp hnodup
      have ih := ih hnodup.2 fun a ha b hb ↦
        huniq a (List.mem_cons_of_mem _ ha) b (List.mem_cons_of_mem _ hb)
      simp only [List.countP_cons]
      cases hp : p r with
      | false => simpa using Nat.add_le_add_right ih _ |>.trans (by omega)
      | true =>
          have htail : (l.countP fun r ↦ q (if p r then f r else r)) = l.countP q := by
            refine List.countP_congr fun x hx ↦ ?_
            have hpx : p x = false := by
              cases hpx : p x with
              | false => rfl
              | true =>
                  have := huniq r List.mem_cons_self x (List.mem_cons_of_mem _ hx) hp hpx
                  exact absurd (this ▸ hx) hnodup.1
            simp [hpx]
          rw [htail]
          split <;> split <;> omega

/-- Each row of `t` has become the row of `t'` in the same place, by a change `R` allows. -/
def Moved (R : α → α → Prop) (t t' : Table α) : Prop := List.Forall₂ R t.rows t'.rows

namespace Moved

variable {R S : α → α → Prop} {t t' t'' : Table α}

theorem refl (hR : ∀ r ∈ t, R r r) : Moved R t t := List.forall₂_same.mpr hR

theorem mono (h : Moved R t t') (hRS : ∀ a b, R a b → S a b) : Moved S t t' :=
  List.Forall₂.imp hRS h

theorem flip (h : Moved R t t') : Moved (fun a b ↦ R b a) t' t := List.Forall₂.flip h

theorem exists_right (h : Moved R t t') {r : α} (hr : r ∈ t) : ∃ r' ∈ t', R r r' := by
  unfold Moved at h
  simp only [mem_def] at hr ⊢
  generalize t.rows = l at h hr
  generalize t'.rows = l' at h
  induction h with
  | nil => simp at hr
  | cons hab _ ih =>
      rcases List.mem_cons.mp hr with rfl | hr
      · exact ⟨_, List.mem_cons_self, hab⟩
      · obtain ⟨r', hr', hR⟩ := ih hr
        exact ⟨r', List.mem_cons_of_mem _ hr', hR⟩

theorem with_mem (h : Moved R t t') : Moved (fun a b ↦ R a b ∧ a ∈ t) t t' := by
  refine List.forall₂_iff_get.mpr ⟨h.length_eq, fun i hi hi' ↦ ?_⟩
  exact ⟨List.forall₂_iff_get.mp h |>.2 i hi hi', List.get_mem _ _⟩

theorem exists_left (h : Moved R t t') {r' : α} (hr : r' ∈ t') : ∃ r ∈ t, R r r' :=
  h.flip.exists_right hr

theorem trans {S T : α → α → Prop} (h : Moved R t t') (h' : Moved S t' t'')
    (hR : ∀ a b c, R a b → S b c → T a c) : Moved T t t'' := by
  unfold Moved at *
  generalize t''.rows = l'' at h' ⊢
  generalize t'.rows = l' at h h'
  generalize t.rows = l at h ⊢
  induction h generalizing l'' with
  | nil => cases h'; exact .nil
  | cons hab _ ih =>
      cases h' with
      | cons hbc htl => exact .cons (hR _ _ _ hab hbc) (ih _ htl)

theorem update {p : α → Bool} {f : α → α} (hf : ∀ r, key (f r) = key r)
    (hp : ∀ r ∈ t, p r = true → R r (f r)) (hn : ∀ r ∈ t, p r = false → R r r) :
    Moved R t (t.update p f hf) := by
  unfold Moved Table.update
  rw [List.forall₂_map_right_iff]
  refine List.forall₂_same.mpr fun r hr ↦ ?_
  cases h : p r with
  | true => simpa [h] using hp r hr h
  | false => simpa [h] using hn r hr h

theorem count_le {p q : α → Bool} (h : Moved R t t')
    (hpq : ∀ a b, R a b → q b = true → p a = true) : t'.count q ≤ t.count p := by
  unfold Moved at h
  unfold count
  generalize t.rows = l at h
  generalize t'.rows = l' at h
  induction h with
  | nil => simp
  | @cons a b _ _ hab _ ih =>
      simp only [List.countP_cons]
      have := hpq a b hab
      cases hq : q b <;> cases hpa : p a <;> simp_all
      omega

end Moved

end Table

end SlurmScheduler.Relational
