import SlurmScheduler.Relational.Transaction

namespace SlurmScheduler.Relational.Tx

open Statement (apply)

variable {σ ω ε α β : Type} [Statement σ ω]

/-- The transaction returns, and `Q` holds of its result and of the state that it leaves. -/
def Returns (m : Tx σ ω ε α) (Q : α → σ → Prop) (s : σ) : Prop :=
  ∃ a, (m s).1 = .ok a ∧ Q a (replay (m s).2 s)

variable {Q Q' : α → σ → Prop} {s : σ}

@[simp] theorem returns_pure {a : α} : (pure a : Tx σ ω ε α).Returns Q s ↔ Q a s := by
  change (∃ b, Except.ok a = (.ok b : Except ε α) ∧ Q b s) ↔ Q a s
  simp

@[simp] theorem returns_fail {e : ε} : (fail e : Tx σ ω ε α).Returns Q s ↔ False := by
  simp [Returns, fail]

@[simp] theorem returns_read {f : σ → α} : (read f : Tx σ ω ε α).Returns Q s ↔ Q (f s) s := by
  simp [Returns, read]

@[simp] theorem returns_write {w : ω} {Q : Unit → σ → Prop} :
    (write w : Tx σ ω ε Unit).Returns Q s ↔ Q () (apply w s) := by
  simp [Returns, write, Unique.exists_iff]

@[simp] theorem returns_require {c : Bool} {e : ε} {Q : Unit → σ → Prop} :
    (require c e : Tx σ ω ε Unit).Returns Q s ↔ c = true ∧ Q () s := by
  cases c <;> simp [require, Returns, ret, fail, Unique.exists_iff]

theorem returns_andThen {m : Tx σ ω ε β} {k : β → Tx σ ω ε α} :
    (andThen m k).Returns Q s ↔ m.Returns (fun b s' ↦ (k b).Returns Q s') s := by
  unfold Returns andThen
  rcases m s with ⟨r | b, ws⟩
  · simp
  · simp [replay_append]

@[simp] theorem returns_bind {m : Tx σ ω ε β} {k : β → Tx σ ω ε α} :
    (m >>= k).Returns Q s ↔ m.Returns (fun b s' ↦ (k b).Returns Q s') s := returns_andThen

theorem returns_ite {c : Prop} [Decidable c] {m n : Tx σ ω ε α} :
    (if c then m else n).Returns Q s ↔ (c → m.Returns Q s) ∧ (¬ c → n.Returns Q s) := by
  by_cases hc : c <;> simp [hc]

theorem isOk_iff {m : Tx σ ω ε α} : (m s).1.isOk = true ↔ m.Returns (fun _ _ ↦ True) s := by
  unfold Returns
  rcases m s with ⟨r | a, ws⟩ <;> simp [Except.isOk, Except.toBool]

theorem Returns.commit {m : Tx σ ω ε α} (h : m.Returns Q s) : ∃ a, Q a (m.commit s) := by
  obtain ⟨a, ha, hq⟩ := h
  refine ⟨a, ?_⟩
  unfold Tx.commit
  rcases hm : m s with ⟨r | b, ws⟩
  · rw [hm] at ha
    cases ha
  · rwa [hm] at hq

def Raises (m : Tx σ ω ε α) (E : ε → Prop) (s : σ) : Prop :=
  ∃ e, (m s).1 = .error e ∧ E e

variable {E : ε → Prop}

@[simp] theorem raises_pure {a : α} : (pure a : Tx σ ω ε α).Raises E s ↔ False := by
  change (∃ e, (Except.ok a : Except ε α) = .error e ∧ E e) ↔ False
  simp

omit [Statement σ ω] in
@[simp] theorem raises_fail {e : ε} : (fail e : Tx σ ω ε α).Raises E s ↔ E e := by
  simp [Raises, fail]

omit [Statement σ ω] in
@[simp] theorem raises_read {f : σ → α} : (read f : Tx σ ω ε α).Raises E s ↔ False := by
  simp [Raises, read]

omit [Statement σ ω] in
@[simp] theorem raises_write {w : ω} : (write w : Tx σ ω ε Unit).Raises E s ↔ False := by
  simp [Raises, write]

omit [Statement σ ω] in
@[simp] theorem raises_require {c : Bool} {e : ε} :
    (require c e : Tx σ ω ε Unit).Raises E s ↔ c = false ∧ E e := by
  cases c <;> simp [require, Raises, ret, fail]

theorem raises_andThen {m : Tx σ ω ε β} {k : β → Tx σ ω ε α} :
    (andThen m k).Raises E s ↔ m.Raises E s ∨ m.Returns (fun b s' ↦ (k b).Raises E s') s := by
  unfold Raises Returns andThen
  rcases m s with ⟨r | b, ws⟩ <;> simp

@[simp] theorem raises_bind {m : Tx σ ω ε β} {k : β → Tx σ ω ε α} :
    (m >>= k).Raises E s ↔ m.Raises E s ∨ m.Returns (fun b s' ↦ (k b).Raises E s') s :=
  raises_andThen

omit [Statement σ ω] in
theorem raises_ite {c : Prop} [Decidable c] {m n : Tx σ ω ε α} :
    (if c then m else n).Raises E s ↔ (c ∧ m.Raises E s) ∨ (¬ c ∧ n.Raises E s) := by
  by_cases hc : c <;> simp [hc]

def Avoids (m : Tx σ ω ε α) (E : ε → Prop) : Prop := ∀ s, ¬ m.Raises E s

theorem Avoids.bind {m : Tx σ ω ε β} {k : β → Tx σ ω ε α} (hm : m.Avoids E)
    (hk : ∀ b, (k b).Avoids E) : (m >>= k).Avoids E := by
  intro s hraises
  rcases raises_bind.mp hraises with h | ⟨b, -, h⟩
  · exact hm s h
  · exact hk b _ h

theorem avoids_pure {a : α} : (pure a : Tx σ ω ε α).Avoids E := fun _ h ↦ raises_pure.mp h

omit [Statement σ ω] in
theorem avoids_read {f : σ → α} : (read f : Tx σ ω ε α).Avoids E := fun _ h ↦ raises_read.mp h

omit [Statement σ ω] in
theorem avoids_write {w : ω} : (write w : Tx σ ω ε Unit).Avoids E := fun _ h ↦ raises_write.mp h

omit [Statement σ ω] in
theorem avoids_require {c : Bool} {e : ε} (he : ¬ E e) : (require c e : Tx σ ω ε Unit).Avoids E :=
  fun _ h ↦ he (raises_require.mp h).2

omit [Statement σ ω] in
theorem avoids_ite {c : Prop} [Decidable c] {m n : Tx σ ω ε α} (hm : c → m.Avoids E)
    (hn : ¬ c → n.Avoids E) : (if c then m else n).Avoids E := by
  split
  · exact hm ‹c›
  · exact hn ‹¬ c›

theorem avoids_forEach {bs : List β} {f : β → Tx σ ω ε Unit} (h : ∀ b ∈ bs, (f b).Avoids E) :
    (forEach bs f).Avoids E := by
  induction bs with
  | nil => exact avoids_pure
  | cons b bs ih =>
      exact (h b List.mem_cons_self).bind fun _ ↦ ih fun c hc ↦ h c (List.mem_cons_of_mem b hc)

theorem avoids_fold {bs : List β} {a : α} {f : α → β → Tx σ ω ε α}
    (h : ∀ a b, (f a b).Avoids E) : (fold bs a f).Avoids E := by
  induction bs generalizing a with
  | nil => exact avoids_pure
  | cons b bs ih => exact (h a b).bind fun _ ↦ ih

end SlurmScheduler.Relational.Tx
