import Mathlib.Tactic

namespace SlurmScheduler.Relational

class Statement (σ : outParam Type) (ω : Type) where
  apply : ω → σ → σ

open Statement (apply)

section Journal

variable {σ ω : Type} [Statement σ ω]

def replay (ws : List ω) (s : σ) : σ := ws.foldl (fun s w ↦ apply w s) s

@[simp] theorem replay_nil (s : σ) : replay ([] : List ω) s = s := rfl

@[simp] theorem replay_cons (w : ω) (ws : List ω) (s : σ) :
    replay (w :: ws) s = replay ws (apply w s) := rfl

theorem replay_append (ws ws' : List ω) (s : σ) :
    replay (ws ++ ws') s = replay ws' (replay ws s) := by
  simp [replay, List.foldl_append]

/-- Every write of the journal meets the guard `G` in the state it is executed in. -/
def Journal (G : σ → ω → Prop) : σ → List ω → Prop
  | _, [] => True
  | s, w :: ws => G s w ∧ Journal G (apply w s) ws

variable {G H : σ → ω → Prop}

@[simp] theorem journal_nil (s : σ) : Journal G s ([] : List ω) := trivial

@[simp] theorem journal_cons {s : σ} {w : ω} {ws : List ω} :
    Journal G s (w :: ws) ↔ G s w ∧ Journal G (apply w s) ws := Iff.rfl

theorem journal_append {s : σ} {ws ws' : List ω} :
    Journal G s (ws ++ ws') ↔ Journal G s ws ∧ Journal G (replay ws s) ws' := by
  induction ws generalizing s with
  | nil => simp
  | cons w ws ih => simp [ih, and_assoc]

theorem Journal.mono {s : σ} {ws : List ω} (h : Journal G s ws)
    (hGH : ∀ s w, G s w → H s w) : Journal H s ws := by
  induction ws generalizing s with
  | nil => trivial
  | cons w ws ih => exact ⟨hGH _ _ h.1, ih h.2⟩

theorem Journal.and {s : σ} {ws : List ω} (h : Journal G s ws) (h' : Journal H s ws) :
    Journal (fun s w ↦ G s w ∧ H s w) s ws := by
  induction ws generalizing s with
  | nil => trivial
  | cons w ws ih => exact ⟨⟨h.1, h'.1⟩, ih h.2 h'.2⟩

theorem Journal.of_forall {s : σ} {ws : List ω} (h : ∀ s w, G s w) : Journal G s ws := by
  induction ws generalizing s with
  | nil => trivial
  | cons w ws ih => exact ⟨h _ _, ih⟩

instance decidableJournal [∀ s w, Decidable (G s w)] : ∀ (s : σ) (ws : List ω),
    Decidable (Journal G s ws)
  | _, [] => isTrue trivial
  | s, w :: ws =>
      have := decidableJournal (apply w s) ws
      inferInstanceAs (Decidable (_ ∧ _))

/-- What every guarded write preserves, a guarded journal preserves. -/
theorem Journal.preserves {I : σ → Prop} {s : σ} {ws : List ω} (h : Journal G s ws)
    (hI : ∀ s w, I s → G s w → I (apply w s)) (hs : I s) : I (replay ws s) := by
  induction ws generalizing s with
  | nil => exact hs
  | cons w ws ih => exact ih h.2 (hI _ _ hs h.1)

/-- A guarded journal meets what its guard preserves before every write. -/
theorem Journal.with_invariant {I : σ → Prop} {s : σ} {ws : List ω} (h : Journal G s ws)
    (hI : ∀ s w, I s → G s w → I (apply w s)) (hs : I s) :
    Journal (fun s w ↦ I s ∧ G s w) s ws := by
  induction ws generalizing s with
  | nil => trivial
  | cons w ws ih => exact ⟨⟨hs, h.1⟩, ih h.2 (hI _ _ hs h.1)⟩

end Journal

structure Execution (σ ω : Type) where
  before : σ
  write : ω

section Execution

variable {σ ω : Type} [Statement σ ω]

def Execution.after (e : Execution σ ω) : σ := apply e.write e.before

def executions : σ → List ω → List (Execution σ ω)
  | _, [] => []
  | s, w :: ws => ⟨s, w⟩ :: executions (apply w s) ws

theorem journal_iff {G : σ → ω → Prop} {s : σ} {ws : List ω} :
    Journal G s ws ↔ ∀ e ∈ executions s ws, G e.before e.write := by
  induction ws generalizing s with
  | nil => simp [executions]
  | cons w ws ih => simp [executions, ih]

end Execution

def Tx (σ ω ε α : Type) : Type := σ → Except ε α × List ω

namespace Tx

variable {σ ω ε α β : Type} [Statement σ ω]

def ret (a : α) : Tx σ ω ε α := fun _ ↦ (.ok a, [])

def andThen (m : Tx σ ω ε α) (k : α → Tx σ ω ε β) : Tx σ ω ε β := fun s ↦
  match m s with
  | (.error e, ws) => (.error e, ws)
  | (.ok a, ws) =>
      match k a (replay ws s) with
      | (r, ws') => (r, ws ++ ws')

instance : Monad (Tx σ ω ε) where
  pure := ret
  bind := andThen

def read (f : σ → α) : Tx σ ω ε α := fun s ↦ (.ok (f s), [])

def write (w : ω) : Tx σ ω ε Unit := fun _ ↦ (.ok (), [w])

def fail (e : ε) : Tx σ ω ε α := fun _ ↦ (.error e, [])

def require (c : Bool) (e : ε) : Tx σ ω ε Unit := if c then ret () else fail e

def forEach : List β → (β → Tx σ ω ε Unit) → Tx σ ω ε Unit
  | [], _ => ret ()
  | b :: bs, f => andThen (f b) fun _ ↦ forEach bs f

def fold : List β → α → (α → β → Tx σ ω ε α) → Tx σ ω ε α
  | [], a, _ => ret a
  | b :: bs, a, f => andThen (f a b) fun a' ↦ fold bs a' f

/-- The state after the transaction: its journal replayed, or nothing when it raised. -/
def commit (m : Tx σ ω ε α) (s : σ) : σ :=
  match m s with
  | (.ok _, ws) => replay ws s
  | (.error _, _) => s

/-- Whatever `m` executes from `s` is guarded by `G`, and if it returns then `Q` holds. -/
def wp (G : σ → ω → Prop) (m : Tx σ ω ε α) (Q : α → σ → Prop) (s : σ) : Prop :=
  Journal G s (m s).2 ∧ ∀ a, (m s).1 = .ok a → Q a (replay (m s).2 s)

variable {G : σ → ω → Prop} {Q Q' : α → σ → Prop} {s : σ}

theorem wp_mono {m : Tx σ ω ε α} (h : wp G m Q s) (hQ : ∀ a s', Q a s' → Q' a s') :
    wp G m Q' s :=
  ⟨h.1, fun a ha ↦ hQ _ _ (h.2 a ha)⟩

theorem wp_and {H : σ → ω → Prop} {m : Tx σ ω ε α} (h : wp G m Q s) (h' : wp H m Q' s) :
    wp (fun s w ↦ G s w ∧ H s w) m (fun a s' ↦ Q a s' ∧ Q' a s') s :=
  ⟨h.1.and h'.1, fun a ha ↦ ⟨h.2 a ha, h'.2 a ha⟩⟩

/-- What every guarded write preserves also holds after the transaction. -/
theorem wp_invariant {I : σ → Prop} {m : Tx σ ω ε α} (h : wp G m Q s)
    (hI : ∀ s w, I s → G s w → I (apply w s)) (hs : I s) :
    wp G m (fun a s' ↦ Q a s' ∧ I s') s :=
  ⟨h.1, fun a ha ↦ ⟨h.2 a ha, h.1.preserves hI hs⟩⟩

@[simp] theorem wp_pure {a : α} : wp G (pure a : Tx σ ω ε α) Q s ↔ Q a s := by
  change Journal G s [] ∧ (∀ b, Except.ok a = (.ok b : Except ε α) → Q b s) ↔ Q a s
  simp

@[simp] theorem wp_ret {a : α} : wp G (ret a : Tx σ ω ε α) Q s ↔ Q a s := wp_pure

@[simp] theorem wp_fail {e : ε} : wp G (fail e : Tx σ ω ε α) Q s := by
  simp [wp, fail]

@[simp] theorem wp_read {f : σ → α} : wp G (read f : Tx σ ω ε α) Q s ↔ Q (f s) s := by
  simp [wp, read]

@[simp] theorem wp_write {w : ω} {Q : Unit → σ → Prop} :
    wp G (write w : Tx σ ω ε Unit) Q s ↔ G s w ∧ Q () (apply w s) := by
  simp only [wp, write, journal_cons, journal_nil, and_true, replay_cons, replay_nil]
  exact and_congr_right fun _ ↦ ⟨fun h ↦ h () trivial, fun h _ _ ↦ h⟩

@[simp] theorem wp_require {c : Bool} {e : ε} {Q : Unit → σ → Prop} :
    wp G (require c e : Tx σ ω ε Unit) Q s ↔ (c = true → Q () s) := by
  cases c <;> simp [require]

theorem wp_andThen {m : Tx σ ω ε β} {k : β → Tx σ ω ε α} :
    wp G (andThen m k) Q s ↔ wp G m (fun b s' ↦ wp G (k b) Q s') s := by
  unfold wp andThen
  rcases m s with ⟨r | b, ws⟩
  · simp
  · simp only [Except.ok.injEq, forall_eq', journal_append, replay_append, and_assoc]

@[simp] theorem wp_bind {m : Tx σ ω ε β} {k : β → Tx σ ω ε α} :
    wp G (m >>= k) Q s ↔ wp G m (fun b s' ↦ wp G (k b) Q s') s := wp_andThen

theorem wp_ite {c : Prop} [Decidable c] {m n : Tx σ ω ε α} :
    wp G (if c then m else n) Q s ↔ (c → wp G m Q s) ∧ (¬ c → wp G n Q s) := by
  by_cases hc : c <;> simp [hc]

theorem wp_forEach {I : σ → Prop} {bs : List β} {f : β → Tx σ ω ε Unit}
    (hf : ∀ b ∈ bs, ∀ s, I s → wp G (f b) (fun _ s' ↦ I s') s) (hs : I s) :
    wp G (forEach bs f) (fun _ s' ↦ I s') s := by
  induction bs generalizing s with
  | nil => exact wp_ret.mpr hs
  | cons b bs ih =>
      refine wp_andThen.mpr (wp_mono (hf b List.mem_cons_self s hs) fun _ s' hs' ↦ ?_)
      exact ih (fun c hc ↦ hf c (List.mem_cons_of_mem b hc)) hs'

/-- The invariant of a loop may speak about the elements that are still to come. -/
theorem wp_forEach_suffix {I : List β → σ → Prop} {bs : List β} {f : β → Tx σ ω ε Unit}
    (hf : ∀ b rest s, I (b :: rest) s → wp G (f b) (fun _ s' ↦ I rest s') s) (hs : I bs s) :
    wp G (forEach bs f) (fun _ s' ↦ I [] s') s := by
  induction bs generalizing s with
  | nil => exact wp_ret.mpr hs
  | cons b bs ih => exact wp_andThen.mpr (wp_mono (hf b bs s hs) fun _ s' hs' ↦ ih hs')

theorem wp_fold {I : List β → α → σ → Prop} {bs : List β} {a : α} {f : α → β → Tx σ ω ε α}
    (hf : ∀ b rest a s, I (b :: rest) a s → wp G (f a b) (I rest) s) (hs : I bs a s) :
    wp G (fold bs a f) (I []) s := by
  induction bs generalizing a s with
  | nil => exact wp_ret.mpr hs
  | cons b bs ih => exact wp_andThen.mpr (wp_mono (hf b bs a s hs) fun a' s' hs' ↦ ih hs')

def Guarded (G : σ → ω → Prop) (m : Tx σ ω ε α) : Prop := ∀ s, wp G m (fun _ _ ↦ True) s

theorem Guarded.wp {m : Tx σ ω ε α} (h : Guarded G m) (hQ : ∀ a s', Q a s') :
    wp G m Q s := wp_mono (h s) fun a s' _ ↦ hQ a s'

theorem Guarded.mono {H : σ → ω → Prop} {m : Tx σ ω ε α} (h : Guarded G m)
    (hG : ∀ s w, G s w → H s w) : Guarded H m :=
  fun s ↦ ⟨(h s).1.mono hG, (h s).2⟩

theorem Guarded.bind {m : Tx σ ω ε β} {k : β → Tx σ ω ε α} (h : Guarded G m)
    (hk : ∀ b, Guarded G (k b)) : Guarded G (m >>= k) :=
  fun _ ↦ wp_bind.mpr (h.wp fun b s' ↦ hk b s')

theorem Guarded.ret {a : α} : Guarded G (pure a : Tx σ ω ε α) := fun _ ↦ wp_pure.mpr trivial

theorem Guarded.fail {e : ε} : Guarded G (fail e : Tx σ ω ε α) := fun _ ↦ wp_fail

theorem Guarded.read {f : σ → α} : Guarded G (read f : Tx σ ω ε α) :=
  fun _ ↦ wp_read.mpr trivial

theorem Guarded.write {w : ω} (h : ∀ s, G s w) : Guarded G (write w : Tx σ ω ε Unit) :=
  fun s ↦ wp_write.mpr ⟨h s, trivial⟩

theorem Guarded.ite {c : Prop} [Decidable c] {m n : Tx σ ω ε α} (hm : Guarded G m)
    (hn : Guarded G n) : Guarded G (if c then m else n) := by
  split
  · exact hm
  · exact hn

theorem Guarded.forEach {bs : List β} {f : β → Tx σ ω ε Unit} (h : ∀ b ∈ bs, Guarded G (f b)) :
    Guarded G (forEach bs f) :=
  fun _ ↦ wp_forEach (fun b hb s _ ↦ h b hb s) trivial

theorem Guarded.fold {bs : List β} {a : α} {f : α → β → Tx σ ω ε α}
    (h : ∀ a, ∀ b ∈ bs, Guarded G (f a b)) : Guarded G (fold bs a f) := by
  induction bs generalizing a with
  | nil => exact fun _ ↦ wp_ret.mpr trivial
  | cons b bs ih =>
      have htail := fun a ↦ @ih a fun a c hc ↦ h a c (List.mem_cons_of_mem b hc)
      exact fun _ ↦ wp_andThen.mpr ((h a b List.mem_cons_self).wp htail)

theorem Guarded.commit {m : Tx σ ω ε α} (h : Guarded G m) (s : σ) :
    ∃ ws, Journal G s ws ∧ m.commit s = replay ws s := by
  have hs := (h s).1
  unfold Tx.commit
  rcases hm : m s with ⟨r | a, ws⟩
  · exact ⟨[], trivial, rfl⟩
  · exact ⟨ws, by rw [hm] at hs; exact hs, rfl⟩

/-- A transaction that can execute no write leaves the state alone. -/
theorem commit_eq_self {m : Tx σ ω ε α} (h : wp (fun _ _ ↦ False) m (fun _ _ ↦ True) s) :
    m.commit s = s := by
  have hj := h.1
  unfold commit
  rcases hm : m s with ⟨r | a, ws⟩
  · rfl
  · rw [hm] at hj
    cases ws with
    | nil => rfl
    | cons w ws => exact hj.1.elim

theorem wp_commit {m : Tx σ ω ε α} {Q : α → σ → Prop} (h : wp G m Q s) {a : α}
    (ha : (m s).1 = .ok a) : Q a (m.commit s) := by
  have hq := h.2 a ha
  unfold commit
  rcases hm : m s with ⟨r | b, ws⟩
  · rw [hm] at ha
    cases ha
  · rw [hm] at hq
    exact hq

/-- A sequence that returns has run its parts one after the other. -/
theorem commit_bind_of_ok {m : Tx σ ω ε α} {k : α → Tx σ ω ε β}
    (h : ((m >>= k) s).1.isOk = true) : ∃ a, (m s).1 = .ok a ∧
      (k a (m.commit s)).1.isOk = true ∧ (m >>= k).commit s = (k a).commit (m.commit s) := by
  change (andThen m k s).1.isOk = true at h
  change ∃ a, _ ∧ _ ∧ (andThen m k).commit s = _
  unfold andThen commit at *
  rcases hm : m s with ⟨r | a, ws⟩
  · simp [hm, Except.isOk, Except.toBool] at h
  · simp only [hm] at h ⊢
    rcases hk : k a (replay ws s) with ⟨r | b, ws'⟩
    · simp [hk, Except.isOk, Except.toBool] at h
    · exact ⟨a, rfl, by simp [hk, Except.isOk, Except.toBool],
        by simp [hk, replay_append]⟩

section Commit

variable {γ : Type}

theorem andThen_assoc (m : Tx σ ω ε α) (f : α → Tx σ ω ε β) (g : β → Tx σ ω ε γ) :
    (m >>= f) >>= g = m >>= fun a ↦ f a >>= g := by
  funext s
  change andThen (andThen m f) g s = andThen m (fun a ↦ andThen (f a) g) s
  unfold andThen
  rcases m s with ⟨r | a, ws⟩
  · rfl
  · dsimp only
    rcases f a (replay ws s) with ⟨r | b, ws'⟩
    · rfl
    · simp only [replay_append, List.append_assoc]

@[simp] theorem commit_pure (a : α) : (pure a : Tx σ ω ε α).commit s = s := rfl

@[simp] theorem commit_fail (e : ε) : (fail e : Tx σ ω ε α).commit s = s := rfl

theorem commit_ret_bind (a : α) (k : α → Tx σ ω ε β) :
    ((pure a : Tx σ ω ε α) >>= k).commit s = (k a).commit s := by
  change commit (andThen (ret a : Tx σ ω ε α) k) s = (k a).commit s
  unfold commit andThen ret
  rcases hk : k a s with ⟨r | b, ws⟩ <;> simp [hk]

theorem commit_fail_bind (e : ε) (k : α → Tx σ ω ε β) :
    ((fail e : Tx σ ω ε α) >>= k).commit s = s := rfl

theorem commit_read_bind (f : σ → α) (k : α → Tx σ ω ε β) :
    ((read f : Tx σ ω ε α) >>= k).commit s = (k (f s)).commit s := commit_ret_bind (f s) k

theorem commit_require_bind (c : Bool) (e : ε) (k : Unit → Tx σ ω ε β) :
    ((require c e : Tx σ ω ε Unit) >>= k).commit s = if c then (k ()).commit s else s := by
  cases c
  · exact commit_fail_bind e k
  · exact commit_ret_bind () k

/-- Two transactions end alike where they leave the same journal and both return or both fail. -/
def EndsAlike (m : Tx σ ω ε α) (n : Tx σ ω ε β) (s : σ) : Prop :=
  (m s).1.isOk = (n s).1.isOk ∧ (m s).2 = (n s).2

theorem EndsAlike.commit {m : Tx σ ω ε α} {n : Tx σ ω ε β} (h : EndsAlike m n s) :
    m.commit s = n.commit s := by
  obtain ⟨hok, hws⟩ := h
  unfold Tx.commit
  rcases hm : m s with ⟨e | a, ws⟩ <;> rcases hn : n s with ⟨e' | b, ws'⟩ <;>
    simp_all [Except.isOk, Except.toBool]

theorem EndsAlike.bind {m : Tx σ ω ε α} {k : α → Tx σ ω ε β} {k' : α → Tx σ ω ε γ}
    (h : ∀ a, EndsAlike (k a) (k' a) (m.commit s)) : EndsAlike (m >>= k) (m >>= k') s := by
  change EndsAlike (andThen m k) (andThen m k') s
  unfold EndsAlike andThen
  rcases hm : m s with ⟨e | a, ws⟩
  · exact ⟨rfl, rfl⟩
  · have ha := h a
    unfold Tx.commit at ha
    simp only [hm] at ha ⊢
    obtain ⟨hok, hws⟩ := ha
    rcases hk : k a (replay ws s) with ⟨e | b, ws'⟩ <;>
      rcases hk' : k' a (replay ws s) with ⟨e' | c, ws''⟩ <;>
      simp_all [Except.isOk, Except.toBool]

omit [Statement σ ω] in
theorem EndsAlike.trans {l : Tx σ ω ε γ} {m : Tx σ ω ε α} {n : Tx σ ω ε β}
    (h : EndsAlike l m s) (h' : EndsAlike m n s) : EndsAlike l n s :=
  ⟨h.1.trans h'.1, h.2.trans h'.2⟩

theorem endsAlike_bind_pure (m : Tx σ ω ε α) (f : α → β) :
    EndsAlike (m >>= fun a ↦ (pure (f a) : Tx σ ω ε β)) m s := by
  change EndsAlike (andThen m _) m s
  unfold EndsAlike andThen
  rcases hm : m s with ⟨e | a, ws⟩
  · exact ⟨rfl, rfl⟩
  · exact ⟨rfl, List.append_nil ws⟩

theorem endsAlike_read_bind (f : σ → α) (k : α → Tx σ ω ε β) :
    EndsAlike ((read f : Tx σ ω ε α) >>= k) (k (f s)) s := by
  change EndsAlike (andThen (read f) k) _ s
  unfold EndsAlike andThen read
  rcases hk : k (f s) s with ⟨e | b, ws⟩ <;> simp [hk]

end Commit

end Tx

end SlurmScheduler.Relational
