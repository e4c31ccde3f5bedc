import SlurmScheduler.Concurrent.Discipline

namespace SlurmScheduler.Concurrent.Discipline

open Relational Statement

variable {σ ω ℓ π κ : Type} {ans : κ → Type} {α β : Type} [Statement σ ω] [DecidableEq ℓ]

/-- From every state the process keeps the discipline, and its result satisfies `R`. -/
def Ensures (D : Discipline σ ω ℓ π) (held : ℓ → Bool) (p : Proc σ ω ℓ π κ ans α)
    (R : α → Prop) : Prop :=
  ∀ s, D.wp p (fun a held' _ ↦ held' = held ∧ R a) held s

/-- From every state the process keeps the discipline. -/
abbrev Keeps (D : Discipline σ ω ℓ π) (held : ℓ → Bool) (p : Proc σ ω ℓ π κ ans α) : Prop :=
  D.Ensures held p fun _ ↦ True

variable {D : Discipline σ ω ℓ π} {held : ℓ → Bool} {R R' : α → Prop} {S : β → Prop}

theorem Ensures.wp {p : Proc σ ω ℓ π κ ans α} {Q : α → (ℓ → Bool) → σ → Prop} {s : σ}
    (h : D.Ensures held p R) (hQ : ∀ a s, R a → Q a held s) : D.wp p Q held s :=
  wp_mono (h s) fun a _ s' hp ↦ hp.1 ▸ hQ a s' hp.2

theorem ensures_pure {a : α} (h : R a) : D.Ensures held (pure a : Proc σ ω ℓ π κ ans α) R :=
  fun _ ↦ ⟨rfl, h⟩

theorem ensures_bind {p : Proc σ ω ℓ π κ ans β} {f : β → Proc σ ω ℓ π κ ans α}
    (hp : D.Ensures held p S) (hf : ∀ b, S b → D.Ensures held (f b) R) :
    D.Ensures held (p >>= f) R :=
  fun _ ↦ wp_bind.mpr (hp.wp fun b s hb ↦ hf b hb s)

theorem ensures_read {f : σ → β} {k : β → Proc σ ω ℓ π κ ans α}
    (h : ∀ s, D.inv s → D.Ensures held (k (f s)) R) :
    D.Ensures held (Proc.read f >>= k) R :=
  fun _ ↦ wp_bind.mpr fun s _ hs ↦ h s hs s

theorem keeps_read {f : σ → α} : D.Keeps held (Proc.read f : Proc σ ω ℓ π κ ans α) :=
  fun _ _ _ _ ↦ ⟨rfl, trivial⟩

theorem keeps_query {q : κ} : D.Keeps held (Proc.query q : Proc σ ω ℓ π κ ans (ans q)) :=
  fun _ _ ↦ ⟨rfl, trivial⟩

theorem ensures_write {w : ω} {F : Prop}
    (h : ∀ s, D.inv s → D.may held s w ∧ (D.cond s w → F)) :
    D.Ensures held (Proc.write w : Proc σ ω ℓ π κ ans Unit) fun _ ↦ F :=
  fun _ s _ hs ↦ ⟨(h s hs).1, fun hc ↦ ⟨rfl, (h s hs).2 hc⟩⟩

theorem keeps_write {w : ω} (h : ∀ s, D.inv s → D.may held s w) :
    D.Keeps held (Proc.write w : Proc σ ω ℓ π κ ans Unit) :=
  ensures_write fun s hs ↦ ⟨h s hs, fun _ ↦ trivial⟩

theorem keeps_spawn {call : π} (h : ∀ s, D.inv s → D.pre call s) :
    D.Keeps held (Proc.spawn call : Proc σ ω ℓ π κ ans Unit) :=
  fun _ s _ hs ↦ ⟨h s hs, rfl, trivial⟩

theorem ensures_transact_single {w : σ → ω} {f : σ → α}
    (h : ∀ s, D.inv s → D.may held s (w s) ∧ (D.cond s (w s) → R (f s))) :
    D.Ensures held (Proc.transact fun s ↦ ([w s], f s) : Proc σ ω ℓ π κ ans α) R :=
  fun _ s _ hs ↦ ⟨(h s hs).1, fun hc ↦ ⟨rfl, (h s hs).2 hc⟩⟩

theorem keeps_transact_single {w : σ → ω} {f : σ → α} (h : ∀ s, D.inv s → D.may held s (w s)) :
    D.Keeps held (Proc.transact fun s ↦ ([w s], f s) : Proc σ ω ℓ π κ ans α) :=
  ensures_transact_single fun s hs ↦ ⟨h s hs, fun _ ↦ trivial⟩

omit [DecidableEq ℓ] in
/-- What a permitted write keeps, so do the writes of a transaction. -/
theorem permits_of {ws : List ω} {Q : σ → Prop} {s : σ}
    (hkeep : ∀ s w, D.inv s → D.may held s w → D.cond s w → D.inv (apply w s))
    (h : ∀ w ∈ ws, ∀ s, D.inv s → D.may held s w) (hs : D.inv s) (hQ : ∀ s, Q s) :
    D.permits held ws Q s := by
  induction ws generalizing s with
  | nil => exact hQ s
  | cons w ws ih =>
      have hw := h w List.mem_cons_self s hs
      exact ⟨hw, fun hc ↦ ih (fun v hv ↦ h v (List.mem_cons_of_mem w hv)) (hkeep s w hs hw hc)⟩

theorem keeps_writeAll {ws : List ω}
    (hkeep : ∀ s w, D.inv s → D.may held s w → D.cond s w → D.inv (apply w s))
    (h : ∀ w ∈ ws, ∀ s, D.inv s → D.may held s w) :
    D.Keeps held (Proc.writeAll ws : Proc σ ω ℓ π κ ans Unit) :=
  fun _ _ _ hs ↦ permits_of hkeep h hs fun _ ↦ ⟨rfl, trivial⟩

theorem keeps_transact {f : σ → List ω × α}
    (hkeep : ∀ s w, D.inv s → D.may held s w → D.cond s w → D.inv (apply w s))
    (h : ∀ s₀, D.inv s₀ → ∀ w ∈ (f s₀).1, ∀ s, D.inv s → D.may held s w) :
    D.Keeps held (Proc.transact f : Proc σ ω ℓ π κ ans α) :=
  fun _ s₀ _ hs₀ ↦ permits_of hkeep (h s₀ hs₀) hs₀ fun _ ↦ ⟨rfl, trivial⟩

theorem ensures_ite {c : Prop} [Decidable c] {p q : Proc σ ω ℓ π κ ans α}
    (hp : c → D.Ensures held p R) (hq : ¬ c → D.Ensures held q R) :
    D.Ensures held (if c then p else q) R := by
  split
  · exact hp ‹c›
  · exact hq ‹¬ c›

theorem keeps_when {c : Bool} {p : Proc σ ω ℓ π κ ans Unit} (h : c = true → D.Keeps held p) :
    D.Keeps held (Proc.when c p) :=
  ensures_ite h fun _ ↦ ensures_pure trivial

theorem keeps_forEach {bs : List β} {f : β → Proc σ ω ℓ π κ ans Unit}
    (h : ∀ b ∈ bs, D.Keeps held (f b)) : D.Keeps held (Proc.forEach bs f) := by
  induction bs with
  | nil => exact ensures_pure trivial
  | cons b bs ih =>
      refine ensures_bind (h b List.mem_cons_self) fun _ _ ↦ ?_
      exact ih fun c hc ↦ h c (List.mem_cons_of_mem b hc)

theorem ensures_fold {bs : List β} {a : α} {f : α → β → Proc σ ω ℓ π κ ans α} (ha : R a)
    (h : ∀ b ∈ bs, ∀ a, R a → D.Ensures held (f a b) R) :
    D.Ensures held (Proc.fold bs a f) R := by
  induction bs generalizing a with
  | nil => exact ensures_pure ha
  | cons b bs ih =>
      refine ensures_bind (h b List.mem_cons_self a ha) fun a' ha' ↦ ?_
      exact ih ha' fun c hc ↦ h c (List.mem_cons_of_mem b hc)

theorem ensures_locked {l : ℓ} {p : Proc σ ω ℓ π κ ans α}
    (h : held l = false → D.Ensures (Function.update held l true) p R) :
    D.Ensures held (Proc.locked l p) R := by
  refine fun s ↦ wp_locked.mpr fun s' _ _ hfree ↦ (h hfree).wp fun a s'' ha ↦ ⟨?_, ha⟩
  rw [Function.update_idem, ← hfree, Function.update_eq_self]

variable {P P' : σ → Prop} {Q Q' : α → σ → Prop} {T : β → σ → Prop}

/-- From a state that satisfies `P` the process keeps the discipline, leaves its locks as it has
found them and ends with `Q`. -/
def Triple (D : Discipline σ ω ℓ π) (held : ℓ → Bool) (P : σ → Prop) (p : Proc σ ω ℓ π κ ans α)
    (Q : α → σ → Prop) : Prop :=
  ∀ s, P s → D.wp p (fun a held' s' ↦ held' = held ∧ Q a s') held s

def Steady (D : Discipline σ ω ℓ π) (held : ℓ → Bool) (P : σ → Prop) : Prop :=
  ∀ s s', D.rely held s s' → P s → P s'

theorem Triple.mono {p : Proc σ ω ℓ π κ ans α} (h : D.Triple held P p Q) (hP : ∀ s, P' s → P s)
    (hQ : ∀ a s, Q a s → Q' a s) : D.Triple held P' p Q' :=
  fun s hs ↦ wp_mono (h s (hP s hs)) fun a _ s' hp ↦ ⟨hp.1, hQ a s' hp.2⟩

theorem Triple.ensures {p : Proc σ ω ℓ π κ ans α}
    (h : D.Triple held (fun _ ↦ True) p fun a _ ↦ R a) : D.Ensures held p R := fun s ↦ h s trivial

theorem triple_pure {a : α} (h : ∀ s, P s → Q a s) :
    D.Triple held P (pure a : Proc σ ω ℓ π κ ans α) Q := fun s hs ↦ ⟨rfl, h s hs⟩

theorem triple_bind {p : Proc σ ω ℓ π κ ans β} {f : β → Proc σ ω ℓ π κ ans α}
    (hp : D.Triple held P p T) (hf : ∀ b, D.Triple held (T b) (f b) Q) :
    D.Triple held P (p >>= f) Q := fun s hs ↦ wp_bind.mpr <| wp_mono (hp s hs) fun b _ s' hb ↦
  hb.1 ▸ hf b s' hb.2

theorem triple_ite {c : Prop} [Decidable c] {p q : Proc σ ω ℓ π κ ans α}
    (hp : c → D.Triple held P p Q) (hq : ¬ c → D.Triple held P q Q) :
    D.Triple held P (if c then p else q) Q := by
  split
  · exact hp ‹c›
  · exact hq ‹¬ c›

theorem triple_when {c : Bool} {p : Proc σ ω ℓ π κ ans Unit} {Q : Unit → σ → Prop}
    (hp : c = true → D.Triple held P p Q) (hq : c = false → ∀ s, P s → Q () s) :
    D.Triple held P (Proc.when c p) Q :=
  triple_ite hp fun hc ↦ triple_pure (hq (Bool.eq_false_of_not_eq_true hc))

theorem triple_query {q : κ} : D.Triple held P (Proc.query q : Proc σ ω ℓ π κ ans (ans q))
    fun _ ↦ P := fun _ hs _ ↦ ⟨rfl, hs⟩

theorem triple_read {f : σ → α} (hP : D.Steady held P) :
    D.Triple held P (Proc.read f : Proc σ ω ℓ π κ ans α)
      fun a s ↦ a = f s ∧ P s ∧ D.inv s :=
  fun s hs s' hr hinv ↦ ⟨rfl, rfl, hP s s' hr hs, hinv⟩

theorem triple_write {w : ω} {Q : Unit → σ → Prop} (hP : D.Steady held P)
    (h : ∀ s, D.inv s → P s → D.may held s w ∧ (D.cond s w → Q () (apply w s))) :
    D.Triple held P (Proc.write w : Proc σ ω ℓ π κ ans Unit) Q := by
  intro s hs s' hr hinv
  obtain ⟨hmay, hnext⟩ := h s' hinv (hP s s' hr hs)
  exact ⟨hmay, fun hc ↦ ⟨rfl, hnext hc⟩⟩

theorem triple_spawn {call : π} (hP : D.Steady held P)
    (h : ∀ s, D.inv s → P s → D.pre call s) :
    D.Triple held P (Proc.spawn call : Proc σ ω ℓ π κ ans Unit) fun _ ↦ P :=
  fun s hs s' hr hinv ↦ ⟨h s' hinv (hP s s' hr hs), rfl, hP s s' hr hs⟩

theorem triple_transact {f : σ → List ω × α} (hP : D.Steady held P)
    (h : ∀ s, D.inv s → P s → D.permits held (f s).1 (Q (f s).2) s) :
    D.Triple held P (Proc.transact f : Proc σ ω ℓ π κ ans α) Q :=
  fun s hs s' hr hinv ↦ permits_mono (h s' hinv (hP s s' hr hs)) fun _ hq ↦ ⟨rfl, hq⟩

theorem triple_transact_single {w : σ → ω} {f : σ → α} (hP : D.Steady held P)
    (h : ∀ s, D.inv s → P s → D.may held s (w s) ∧ (D.cond s (w s) → Q (f s) (apply (w s) s))) :
    D.Triple held P (Proc.transact fun s ↦ ([w s], f s) : Proc σ ω ℓ π κ ans α) Q := by
  intro s hs s' hr hinv
  obtain ⟨hmay, hnext⟩ := h s' hinv (hP s s' hr hs)
  exact ⟨hmay, fun hc ↦ ⟨rfl, hnext hc⟩⟩

theorem triple_locked {l : ℓ} {p : Proc σ ω ℓ π κ ans α} (hP : D.Steady held P)
    (h : held l = false → D.Triple (Function.update held l true) P p Q) :
    D.Triple held P (Proc.locked l p) Q := by
  refine fun s hs ↦ wp_locked.mpr fun s' hr _ hfree ↦ wp_mono (h hfree s' (hP s s' hr hs)) ?_
  rintro a _ s'' ⟨rfl, hq⟩
  refine ⟨?_, hq⟩
  rw [Function.update_idem, ← hfree, Function.update_eq_self]

def Respected (D : Discipline σ ω ℓ π) (F : σ → Prop) : Prop :=
  ∀ s s', D.rely noLocks s s' → F s → F s'

omit [DecidableEq ℓ] in
theorem Respected.rely {F : σ → Prop} (hD : D.Coherent) (hF : D.Respected F) {s s' : σ}
    (h : D.rely held s s') (hs : F s) : F s' :=
  hF s s' (hD.anti held noLocks s s' (by simp [noLocks]) h) hs

omit [DecidableEq ℓ] in
theorem Respected.steady {F : σ → Prop} (hD : D.Coherent) (hF : D.Respected F) :
    D.Steady held F := fun _ _ h hs ↦ hF.rely hD h hs

omit [DecidableEq ℓ] in
theorem Respected.permits {F Q : σ → Prop} (hD : D.Coherent) (hF : D.Respected F) {ws : List ω}
    {s : σ} (h : D.permits held ws Q s) (hinv : D.inv s) (hs : F s) :
    D.permits held ws (fun s ↦ Q s ∧ F s) s := by
  induction ws generalizing s with
  | nil => exact ⟨h, hs⟩
  | cons w ws ih =>
      refine ⟨h.1, fun hc ↦ ih (h.2 hc) (hD.keep held s w hinv h.1 hc) ?_⟩
      exact hF s _ (hD.compatible noLocks held s w (by simp [noLocks]) hinv h.1 hc) hs

/-- A respected fact that holds before a process holds after it. -/
theorem Respected.wp {F : σ → Prop} (hD : D.Coherent) (hF : D.Respected F)
    {p : Proc σ ω ℓ π κ ans α} {Q : α → (ℓ → Bool) → σ → Prop} {s : σ} (h : D.wp p Q held s)
    (hs : F s) : D.wp p (fun a held s ↦ Q a held s ∧ F s) held s := by
  induction p generalizing held s with
  | ret a => exact ⟨h, hs⟩
  | step writes k ih =>
      intro s' hr hinv
      have hnow := hF.permits hD (h s' hr hinv) hinv (hF.rely hD hr hs)
      exact permits_mono hnow fun s'' hk ↦ ih s' hk.1 hk.2
  | ask q k ih => exact fun a ↦ ih a (h a) hs
  | fork call k ih =>
      exact fun s' hr hinv ↦ ⟨(h s' hr hinv).1, ih (h s' hr hinv).2 (hF.rely hD hr hs)⟩
  | lock l k ih => exact fun s' hr hinv hfree ↦ ih (h s' hr hinv hfree) (hF.rely hD hr hs)
  | unlock l k ih => exact ih h hs

theorem Ensures.triple {F : σ → Prop} {p : Proc σ ω ℓ π κ ans α} (h : D.Ensures held p R)
    (hD : D.Coherent) (hF : D.Respected F) : D.Triple held F p fun a s ↦ R a ∧ F s :=
  fun s hs ↦ wp_mono (hF.wp hD (h s) hs) fun _ _ _ hp ↦ ⟨hp.1.1, hp.1.2, hp.2⟩

theorem Ensures.frame {F : σ → Prop} {p : Proc σ ω ℓ π κ ans α} (h : D.Ensures held p R)
    (hD : D.Coherent) (hF : D.Respected F) : D.Triple held F p fun _ ↦ F :=
  (h.triple hD hF).mono (fun _ hs ↦ hs) fun _ _ hp ↦ hp.2

end SlurmScheduler.Concurrent.Discipline
