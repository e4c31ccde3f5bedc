import Mathlib.Tactic

namespace SlurmScheduler.Relational

universe u v

structure Counter (κ : Type u) where
  entries : List (κ × ℕ) := []

namespace Counter

variable {κ : Type u} {ι : Type v}

def keys (c : Counter κ) : List κ := c.entries.map (·.1)

/-- `sum(d.values())` -/
def total (c : Counter κ) : ℕ := (c.entries.map (·.2)).sum

/-- `{k: n for k, n in d.items() if p(k) and n > 0}` -/
def select (c : Counter κ) (p : κ → Bool) : Counter κ := ⟨c.entries.filter fun e ↦ p e.1 && 0 < e.2⟩

/-- `{k: f(k, n) for k, n in d.items()}` -/
def mapWith (c : Counter κ) (f : κ → ℕ → ℕ) : Counter κ := ⟨c.entries.map fun e ↦ (e.1, f e.1 e.2)⟩

/-- The sum of the counts in a list whose keys satisfy `p`. -/
def sumWhere (p : κ → Bool) (es : List (κ × ℕ)) : ℕ := ((es.filter fun e ↦ p e.1).map (·.2)).sum

section Keys

variable [DecidableEq κ]

def getIn (k : κ) : List (κ × ℕ) → ℕ
  | [] => 0
  | e :: es => if e.1 = k then e.2 else getIn k es

def addIn (k : κ) (n : ℕ) : List (κ × ℕ) → List (κ × ℕ)
  | [] => [(k, n)]
  | e :: es => if e.1 = k then (k, e.2 + n) :: es else e :: addIn k n es

def putIn (k : κ) (n : ℕ) : List (κ × ℕ) → List (κ × ℕ)
  | [] => [(k, n)]
  | e :: es => if e.1 = k then (k, n) :: es else e :: putIn k n es

def get (c : Counter κ) (k : κ) : ℕ := getIn k c.entries

/-- `d[key] = d.get(key, 0) + n` -/
def add (c : Counter κ) (k : κ) (n : ℕ) : Counter κ := ⟨addIn k n c.entries⟩

/-- `d[key] = n` -/
def put (c : Counter κ) (k : κ) (n : ℕ) : Counter κ := ⟨putIn k n c.entries⟩

def ofKeys (ks : List κ) (f : κ → ℕ) : Counter κ := ⟨ks.dedup.map fun k ↦ (k, f k)⟩

variable {c : Counter κ} {k k' : κ} {n : ℕ}

theorem getIn_addIn (k k' : κ) (n : ℕ) (es : List (κ × ℕ)) :
    getIn k' (addIn k n es) = getIn k' es + if k = k' then n else 0 := by
  induction es with
  | nil => simp [addIn, getIn]
  | cons e es ih =>
      by_cases hk : e.1 = k
      · by_cases hk' : k = k' <;> simp [addIn, getIn, hk, hk']
      · by_cases he : e.1 = k'
        · have hne : ¬ k = k' := fun h ↦ hk (he.trans h.symm)
          rw [addIn, if_neg hk, getIn, getIn, if_pos he, if_pos he, if_neg hne, Nat.add_zero]
        · rw [addIn, if_neg hk, getIn, getIn, if_neg he, if_neg he, ih]

@[simp] theorem get_add : (c.add k n).get k' = c.get k' + if k = k' then n else 0 :=
  getIn_addIn k k' n c.entries

@[simp] theorem total_add : (c.add k n).total = c.total + n := by
  unfold total add
  generalize c.entries = es
  induction es with
  | nil => simp [addIn]
  | cons e es ih =>
      by_cases hk : e.1 = k
      · simp [addIn, hk]
        omega
      · simp only [addIn, if_neg hk, List.map_cons, List.sum_cons, ih]
        omega

theorem getIn_putIn (k k' : κ) (n : ℕ) (es : List (κ × ℕ)) :
    getIn k' (putIn k n es) = if k = k' then n else getIn k' es := by
  induction es with
  | nil => simp [putIn, getIn]
  | cons e es ih =>
      by_cases hk : e.1 = k
      · by_cases hk' : k = k' <;> simp [putIn, getIn, hk, hk']
      · by_cases he : e.1 = k'
        · have hne : ¬ k = k' := fun h ↦ hk (he.trans h.symm)
          rw [putIn, if_neg hk, getIn, getIn, if_pos he, if_pos he, if_neg hne]
        · rw [putIn, if_neg hk, getIn, getIn, if_neg he, if_neg he, ih]

@[simp] theorem get_put : (c.put k n).get k' = if k = k' then n else c.get k' :=
  getIn_putIn k k' n c.entries

/-- A key that counts is present, so its count is exchanged. -/
theorem total_put (h : 0 < c.get k) : (c.put k n).total + c.get k = c.total + n := by
  obtain ⟨es⟩ := c
  show ((putIn k n es).map (·.2)).sum + getIn k es = (es.map (·.2)).sum + n
  replace h : 0 < getIn k es := h
  induction es with
  | nil => exact absurd h (lt_irrefl 0)
  | cons e es ih =>
      by_cases hk : e.1 = k
      · simp [putIn, getIn, hk]
        omega
      · rw [getIn, if_neg hk] at h ⊢
        have ih := ih h
        rw [putIn, if_neg hk, List.map_cons, List.sum_cons, List.map_cons, List.sum_cons]
        omega

end Keys

/-- The counts of `es`, added up under other keys. -/
def sumBy [DecidableEq ι] (f : κ → ι) (es : List (κ × ℕ)) (c : Counter ι) : Counter ι :=
  es.foldl (fun c e ↦ c.add (f e.1) e.2) c

theorem get_sumBy [DecidableEq ι] (f : κ → ι) (es : List (κ × ℕ)) (c : Counter ι) (i : ι) :
    (sumBy f es c).get i = c.get i + sumWhere (fun k ↦ f k = i) es := by
  unfold sumBy sumWhere
  induction es generalizing c with
  | nil => rfl
  | cons e es ih =>
      rw [List.foldl_cons, ih, get_add]
      by_cases hi : f e.1 = i
      · simp [hi]
        omega
      · simp [hi]

theorem sumWhere_cons {p : κ → Bool} (e : κ × ℕ) (es : List (κ × ℕ)) :
    sumWhere p (e :: es) = (if p e.1 then e.2 else 0) + sumWhere p es := by
  unfold sumWhere
  rw [List.filter_cons]
  split <;> simp

theorem sumWhere_pos (p : κ → Bool) (es : List (κ × ℕ)) :
    sumWhere p (es.filter (0 < ·.2)) = sumWhere p es := by
  induction es with
  | nil => rfl
  | cons e es ih =>
      rw [List.filter_cons, sumWhere_cons]
      split
      · rw [sumWhere_cons, ih]
      · rename_i hnone
        have hzero : e.2 = 0 := by simpa using hnone
        rw [ih, hzero, ite_self, Nat.zero_add]

theorem sumWhere_perm {p : κ → Bool} {es es' : List (κ × ℕ)} (h : es.Perm es') :
    sumWhere p es = sumWhere p es' := ((h.filter _).map _).sum_eq

theorem get_le_sumWhere [DecidableEq κ] (c : Counter κ) (k : κ) :
    c.get k ≤ sumWhere (· = k) c.entries := by
  unfold get
  generalize c.entries = es
  induction es with
  | nil => exact le_rfl
  | cons e es ih =>
      rw [getIn, sumWhere_cons]
      by_cases hk : e.1 = k
      · simp [hk]
      · simpa [hk] using ih

theorem sumWhere_append (p : κ → Bool) (es es' : List (κ × ℕ)) :
    sumWhere p (es ++ es') = sumWhere p es + sumWhere p es' := by
  simp [sumWhere]

theorem sumWhere_mono {p q : κ → Bool} {es : List (κ × ℕ)}
    (h : ∀ e ∈ es, p e.1 = true → q e.1 = true) : sumWhere p es ≤ sumWhere q es := by
  induction es with
  | nil => exact le_rfl
  | cons e es ih =>
      rw [List.forall_mem_cons] at h
      rw [sumWhere_cons, sumWhere_cons]
      refine Nat.add_le_add ?_ (ih h.2)
      split
      · rename_i hp
        rw [if_pos (h.1 hp)]
      · exact Nat.zero_le _

/-- A selection drops what does not count and what `q` rejects. -/
theorem sumWhere_select (p q : κ → Bool) (c : Counter κ) :
    sumWhere p (c.select q).entries = sumWhere (fun k ↦ p k && q k) c.entries := by
  obtain ⟨es⟩ := c
  change sumWhere p (es.filter fun e ↦ q e.1 && 0 < e.2) = sumWhere (fun k ↦ p k && q k) es
  induction es with
  | nil => rfl
  | cons e es ih =>
      rw [List.filter_cons, sumWhere_cons, ← ih]
      cases hq : q e.1 with
      | false => simp
      | true =>
          rcases Nat.eq_zero_or_pos e.2 with hnone | hsome
          · simp [hnone]
          · simp [hsome, sumWhere_cons]

theorem sumWhere_keys (p : κ → Bool) (g : κ → ℕ) (ks : List κ) :
    sumWhere p (ks.map fun k ↦ (k, g k)) = ((ks.filter p).map g).sum := by
  induction ks with
  | nil => rfl
  | cons k ks ih =>
      rw [List.map_cons, sumWhere_cons, ih, List.filter_cons]
      dsimp only
      split <;> simp

section Distinct

variable [DecidableEq κ] {c : Counter κ} {k : κ} {n : ℕ}

theorem sumWhere_add (p : κ → Bool) :
    sumWhere p (c.add k n).entries = sumWhere p c.entries + if p k then n else 0 := by
  obtain ⟨es⟩ := c
  change sumWhere p (addIn k n es) = sumWhere p es + if p k then n else 0
  induction es with
  | nil => rw [addIn, sumWhere_cons, Nat.add_comm]
  | cons e es ih =>
      by_cases hk : e.1 = k
      · rw [addIn, if_pos hk, sumWhere_cons, sumWhere_cons, hk]
        split <;> omega
      · rw [addIn, if_neg hk, sumWhere_cons, sumWhere_cons, ih, Nat.add_assoc]

omit [DecidableEq κ] in
theorem sumWhere_sumBy [DecidableEq ι] (p : ι → Bool) (f : κ → ι) (es : List (κ × ℕ))
    (c : Counter ι) : sumWhere p (sumBy f es c).entries =
      sumWhere p c.entries + sumWhere (fun k ↦ p (f k)) es := by
  unfold sumBy
  induction es generalizing c with
  | nil => rfl
  | cons e es ih =>
      rw [List.foldl_cons, ih, sumWhere_add, sumWhere_cons]
      omega

def Distinct (c : Counter κ) : Prop := c.keys.Nodup

omit [DecidableEq κ] in
theorem distinct_empty : ({} : Counter κ).Distinct := List.nodup_nil

theorem mem_keys_addIn {k' : κ} {es : List (κ × ℕ)} :
    k' ∈ (addIn k n es).map (·.1) ↔ k' = k ∨ k' ∈ es.map (·.1) := by
  induction es with
  | nil => simp [addIn]
  | cons e es ih =>
      by_cases hk : e.1 = k
      · simp [addIn, hk]
      · simp only [addIn, if_neg hk, List.map_cons, List.mem_cons, ih]
        tauto

theorem mem_keys_putIn {k' : κ} {es : List (κ × ℕ)} :
    k' ∈ (putIn k n es).map (·.1) ↔ k' = k ∨ k' ∈ es.map (·.1) := by
  induction es with
  | nil => simp [putIn]
  | cons e es ih =>
      by_cases hk : e.1 = k
      · simp [putIn, hk]
      · simp only [putIn, if_neg hk, List.map_cons, List.mem_cons, ih]
        tauto

theorem Distinct.add (h : c.Distinct) : (c.add k n).Distinct := by
  obtain ⟨es⟩ := c
  change ((addIn k n es).map (·.1)).Nodup
  replace h : (es.map (·.1)).Nodup := h
  induction es with
  | nil => simp [addIn]
  | cons e es ih =>
      rw [List.map_cons, List.nodup_cons] at h
      by_cases hk : e.1 = k
      · rw [addIn, if_pos hk, List.map_cons, List.nodup_cons]
        exact ⟨hk ▸ h.1, h.2⟩
      · rw [addIn, if_neg hk, List.map_cons, List.nodup_cons, mem_keys_addIn]
        exact ⟨fun hmem ↦ hmem.elim hk h.1, ih h.2⟩

theorem Distinct.put (h : c.Distinct) : (c.put k n).Distinct := by
  obtain ⟨es⟩ := c
  change ((putIn k n es).map (·.1)).Nodup
  replace h : (es.map (·.1)).Nodup := h
  induction es with
  | nil => simp [putIn]
  | cons e es ih =>
      rw [List.map_cons, List.nodup_cons] at h
      by_cases hk : e.1 = k
      · rw [putIn, if_pos hk, List.map_cons, List.nodup_cons]
        exact ⟨hk ▸ h.1, h.2⟩
      · rw [putIn, if_neg hk, List.map_cons, List.nodup_cons, mem_keys_putIn]
        exact ⟨fun hmem ↦ hmem.elim hk h.1, ih h.2⟩

omit [DecidableEq κ] in
theorem Distinct.sumBy [DecidableEq ι] {f : κ → ι} {es : List (κ × ℕ)} {c : Counter ι}
    (h : c.Distinct) : (sumBy f es c).Distinct := by
  unfold Counter.sumBy
  induction es generalizing c with
  | nil => exact h
  | cons e es ih => exact ih h.add

omit [DecidableEq κ] in
theorem mem_keys_sumBy [DecidableEq ι] {f : κ → ι} {es : List (κ × ℕ)} {i : ι}
    (h : i ∈ (Counter.sumBy f es {}).keys) : ∃ e ∈ es, f e.1 = i := by
  suffices hfold : ∀ c : Counter ι, i ∈ (Counter.sumBy f es c).keys →
      i ∈ c.keys ∨ ∃ e ∈ es, f e.1 = i by
    exact (hfold {} h).resolve_left List.not_mem_nil
  clear h
  unfold Counter.sumBy
  induction es with
  | nil => exact fun _ h ↦ .inl h
  | cons e es ih =>
      intro c h
      rcases ih _ h with h | ⟨e', he', hi⟩
      · rcases mem_keys_addIn.mp h with rfl | h
        · exact .inr ⟨e, List.mem_cons_self, rfl⟩
        · exact .inl h
      · exact .inr ⟨e', List.mem_cons_of_mem _ he', hi⟩

omit [DecidableEq κ] in
theorem Distinct.mapWith {f : κ → ℕ → ℕ} (h : c.Distinct) : (c.mapWith f).Distinct := by
  have hkeys : (c.mapWith f).keys = c.keys := by simp [keys, Counter.mapWith]
  rw [Distinct, hkeys]
  exact h

omit [DecidableEq κ] in
theorem Distinct.select {p : κ → Bool} (h : c.Distinct) : (c.select p).Distinct :=
  h.sublist (List.filter_sublist.map _)

theorem get_mapWith {f : κ → ℕ → ℕ} (hf : f k 0 = 0) : (c.mapWith f).get k = f k (c.get k) := by
  obtain ⟨es⟩ := c
  change getIn k (es.map fun e ↦ (e.1, f e.1 e.2)) = f k (getIn k es)
  induction es with
  | nil => exact hf.symm
  | cons e es ih =>
      rw [List.map_cons, getIn, getIn, ih]
      dsimp only
      split
      · rename_i hk
        rw [hk]
      · rfl

theorem getIn_of_not_mem {es : List (κ × ℕ)} (h : k ∉ es.map (·.1)) : getIn k es = 0 := by
  induction es with
  | nil => rfl
  | cons e es ih =>
      rw [List.map_cons, List.mem_cons, not_or] at h
      rw [getIn, if_neg (Ne.symm h.1), ih h.2]

theorem Distinct.get_eq (h : c.Distinct) : c.get k = sumWhere (· = k) c.entries := by
  obtain ⟨es⟩ := c
  change getIn k es = sumWhere (· = k) es
  replace h : (es.map (·.1)).Nodup := h
  induction es with
  | nil => rfl
  | cons e es ih =>
      rw [List.map_cons, List.nodup_cons] at h
      rw [getIn, sumWhere_cons, ← ih h.2]
      by_cases hk : e.1 = k
      · subst hk
        simp [getIn_of_not_mem h.1]
      · simp [hk]

theorem Distinct.get_select_le {p : κ → Bool} (h : c.Distinct) : (c.select p).get k ≤ c.get k := by
  rw [h.select.get_eq, h.get_eq, sumWhere_select]
  refine sumWhere_mono fun e _ he ↦ ?_
  rw [Bool.and_eq_true] at he
  exact he.1

theorem sum_single {ks : List κ} (h : ks.Nodup) (k : κ) (n : ℕ) :
    (ks.map fun j ↦ if k = j then n else 0).sum = if k ∈ ks then n else 0 := by
  induction ks with
  | nil => rfl
  | cons j ks ih =>
      rw [List.nodup_cons] at h
      rw [List.map_cons, List.sum_cons, ih h.2]
      by_cases hk : k = j
      · subst hk
        simp [h.1]
      · simp [hk]

/-- Keys that are all different count no more than all that satisfy `p`. -/
theorem sum_get_le (c : Counter κ) {p : κ → Bool} {ks : List κ} (hnodup : ks.Nodup)
    (hp : ∀ k ∈ ks, p k = true) : (ks.map c.get).sum ≤ sumWhere p c.entries := by
  obtain ⟨es⟩ := c
  change (ks.map fun k ↦ getIn k es).sum ≤ sumWhere p es
  induction es with
  | nil => simp [getIn, sumWhere]
  | cons e es ih =>
      have hfirst : (ks.map fun k ↦ if e.1 = k then e.2 else 0).sum ≤ if p e.1 then e.2 else 0 := by
        rw [sum_single hnodup]
        split
        · rename_i hmem
          rw [if_pos (hp _ hmem)]
        · exact Nat.zero_le _
      have hsplit : (ks.map fun k ↦ getIn k (e :: es)).sum ≤
          (ks.map fun k ↦ if e.1 = k then e.2 else 0).sum + (ks.map fun k ↦ getIn k es).sum := by
        rw [← List.sum_map_add]
        refine List.sum_le_sum fun k _ ↦ ?_
        rw [getIn]
        split <;> omega
      rw [sumWhere_cons]
      exact hsplit.trans (Nat.add_le_add hfirst ih)

end Distinct

end Counter

end SlurmScheduler.Relational
