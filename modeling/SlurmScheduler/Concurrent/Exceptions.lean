import SlurmScheduler.Concurrent.Triples

namespace SlurmScheduler.Concurrent

open Relational

variable {σ ω ℓ π κ ε : Type} {ans : κ → Type} {α β γ : Type}

/-- A thread that may raise an error of type `ε`. -/
abbrev Throwing (ε σ ω ℓ π κ : Type) (ans : κ → Type) (α : Type) : Type :=
  ExceptT ε (Proc σ ω ℓ π κ ans) α

namespace Throwing

def attempt (p : Throwing ε σ ω ℓ π κ ans α) : Throwing ε σ ω ℓ π κ ans (Except ε α) :=
  liftM p.run

/-- `with l: …`, which leaves the lock also when an error is raised. -/
def locked (l : ℓ) (p : Throwing ε σ ω ℓ π κ ans α) : Throwing ε σ ω ℓ π κ ans α :=
  ExceptT.mk (Proc.locked l p.run)

end Throwing

namespace Discipline

variable [Statement σ ω] [DecidableEq ℓ]

/-- `Q` after a normal return and `E` after an error. -/
def Exits (Q : α → σ → Prop) (E : ε → σ → Prop) : Except ε α → σ → Prop
  | .ok a => Q a
  | .error e => E e

/-- From a state that satisfies `P` the thread keeps the discipline, leaves its locks as it has
found them, and returns with `Q` or raises with `E`. -/
def Ends (D : Discipline σ ω ℓ π) (held : ℓ → Bool) (P : σ → Prop)
    (p : Throwing ε σ ω ℓ π κ ans α) (Q : α → σ → Prop) (E : ε → σ → Prop) : Prop :=
  D.Triple held P p.run (Exits Q E)

variable {D : Discipline σ ω ℓ π} {held : ℓ → Bool} {P P' : σ → Prop} {Q Q' : α → σ → Prop}
  {T : β → σ → Prop} {E E' : ε → σ → Prop}

theorem Ends.mono {p : Throwing ε σ ω ℓ π κ ans α} (h : D.Ends held P p Q E)
    (hP : ∀ s, P' s → P s) (hQ : ∀ a s, Q a s → Q' a s) (hE : ∀ e s, E e s → E' e s) :
    D.Ends held P' p Q' E' :=
  Triple.mono h hP fun r s ↦ match r with
    | .ok a => hQ a s
    | .error e => hE e s

theorem Ends.weaken {p : Throwing ε σ ω ℓ π κ ans α} (h : D.Ends held P p Q E)
    (hP : ∀ s, P' s → P s) : D.Ends held P' p Q E :=
  h.mono hP (fun _ _ hs ↦ hs) fun _ _ hs ↦ hs

/-- What holds from every state holds from every state that satisfies `P`. -/
theorem Ends.anywhere {p : Throwing ε σ ω ℓ π κ ans α} (h : D.Ends held (fun _ ↦ True) p Q E) :
    D.Ends held P p Q E :=
  h.weaken fun _ _ ↦ trivial

theorem ends_pure {a : α} (h : ∀ s, P s → Q a s) :
    D.Ends held P (pure a : Throwing ε σ ω ℓ π κ ans α) Q E :=
  fun s hs ↦ ⟨rfl, h s hs⟩

theorem ends_throw {e : ε} (h : ∀ s, P s → E e s) :
    D.Ends held P (throw e : Throwing ε σ ω ℓ π κ ans α) Q E :=
  fun s hs ↦ ⟨rfl, h s hs⟩

theorem ends_bind {p : Throwing ε σ ω ℓ π κ ans β} {f : β → Throwing ε σ ω ℓ π κ ans α}
    (hp : D.Ends held P p T E) (hf : ∀ b, D.Ends held (T b) (f b) Q E) :
    D.Ends held P (p >>= f) Q E := by
  have hrun : (p >>= f).run = p.run >>= ExceptT.bindCont f := rfl
  unfold Ends
  rw [hrun]
  refine triple_bind hp fun r ↦ ?_
  cases r with
  | ok b => exact hf b
  | error e => exact fun s hs ↦ ⟨rfl, hs⟩

theorem ends_lift {p : Proc σ ω ℓ π κ ans α} (h : D.Triple held P p Q) :
    D.Ends held P (liftM p : Throwing ε σ ω ℓ π κ ans α) Q E := by
  have hrun : (liftM p : Throwing ε σ ω ℓ π κ ans α).run = p >>= fun a ↦ pure (.ok a) := rfl
  unfold Ends
  rw [hrun]
  exact triple_bind h fun a ↦ triple_pure fun _ hs ↦ hs

theorem ends_ite {c : Prop} [Decidable c] {p q : Throwing ε σ ω ℓ π κ ans α}
    (hp : c → D.Ends held P p Q E) (hq : ¬ c → D.Ends held P q Q E) :
    D.Ends held P (if c then p else q) Q E := by
  split
  · exact hp ‹c›
  · exact hq ‹¬ c›

/-- What a caught error leaves behind is part of the outcome. -/
theorem ends_attempt {p : Throwing ε σ ω ℓ π κ ans α} (h : D.Ends held P p Q E) :
    D.Ends held P (Throwing.attempt p) (Exits Q E) E' := ends_lift h

theorem ends_locked {l : ℓ} {p : Throwing ε σ ω ℓ π κ ans α} (hP : D.Steady held P)
    (h : held l = false → D.Ends (Function.update held l true) P p Q E) :
    D.Ends held P (Throwing.locked l p) Q E := triple_locked hP h

/-- The thread keeps the discipline and leaves `F` as it has found it, or it raises with `E`. -/
def Frames (D : Discipline σ ω ℓ π) (held : ℓ → Bool) (F : σ → Prop) (E : ε → σ → Prop)
    (p : Throwing ε σ ω ℓ π κ ans α) : Prop :=
  D.Ends held F p (fun _ ↦ F) E

variable {F : σ → Prop}

theorem frames_pure {a : α} : D.Frames held F E (pure a : Throwing ε σ ω ℓ π κ ans α) :=
  ends_pure fun _ hs ↦ hs

theorem frames_throw {e : ε} (h : ∀ s, F s → E e s) :
    D.Frames held F E (throw e : Throwing ε σ ω ℓ π κ ans α) := ends_throw h

theorem frames_bind {p : Throwing ε σ ω ℓ π κ ans β} {f : β → Throwing ε σ ω ℓ π κ ans α}
    (hp : D.Frames held F E p) (hf : ∀ b, D.Frames held F E (f b)) : D.Frames held F E (p >>= f) :=
  ends_bind hp hf

theorem frames_ite {c : Prop} [Decidable c] {p q : Throwing ε σ ω ℓ π κ ans α}
    (hp : c → D.Frames held F E p) (hq : ¬ c → D.Frames held F E q) :
    D.Frames held F E (if c then p else q) := ends_ite hp hq

theorem frames_attempt {p : Throwing ε σ ω ℓ π κ ans α} (h : D.Frames held F (fun _ ↦ F) p) :
    D.Frames held F E (Throwing.attempt p) := by
  have hexits : D.Ends held F (Throwing.attempt p) (Exits (fun _ ↦ F) fun _ ↦ F) E := ends_attempt h
  refine hexits.mono (fun _ hs ↦ hs) (fun r s hr ↦ ?_) fun _ _ hs ↦ hs
  cases r with
  | ok a => exact hr
  | error e => exact hr

theorem frames_locked {l : ℓ} {p : Throwing ε σ ω ℓ π κ ans α} (hF : D.Steady held F)
    (h : D.Frames (Function.update held l true) F E p) : D.Frames held F E (Throwing.locked l p) :=
  ends_locked hF fun _ ↦ h

theorem frames_query {q : κ} : D.Frames held F E
    (liftM (Proc.query q : Proc σ ω ℓ π κ ans _) : Throwing ε σ ω ℓ π κ ans _) :=
  ends_lift triple_query

theorem frames_read {f : σ → α} (hF : D.Steady held F) : D.Frames held F E
    (liftM (Proc.read f : Proc σ ω ℓ π κ ans α) : Throwing ε σ ω ℓ π κ ans α) :=
  ends_lift ((triple_read hF).mono (fun _ hs ↦ hs) fun _ _ hs ↦ hs.2.1)

theorem frames_write {w : ω} (hF : D.Steady held F)
    (h : ∀ s, D.inv s → F s → D.may held s w ∧ (D.cond s w → F (Statement.apply w s))) :
    D.Frames held F E
      (liftM (Proc.write w : Proc σ ω ℓ π κ ans Unit) : Throwing ε σ ω ℓ π κ ans Unit) :=
  ends_lift (triple_write hF h)

omit [DecidableEq ℓ] in
theorem permits_frame {ws : List ω} {s : σ}
    (hkeep : ∀ s w, D.inv s → D.may held s w → D.cond s w → D.inv (Statement.apply w s))
    (h : ∀ w ∈ ws, ∀ s, D.inv s → F s → D.may held s w ∧ (D.cond s w → F (Statement.apply w s)))
    (hinv : D.inv s) (hs : F s) : D.permits held ws F s := by
  induction ws generalizing s with
  | nil => exact hs
  | cons w ws ih =>
      obtain ⟨hmay, hnext⟩ := h w List.mem_cons_self s hinv hs
      exact ⟨hmay, fun hc ↦ ih (fun v hv ↦ h v (List.mem_cons_of_mem w hv))
        (hkeep s w hinv hmay hc) (hnext hc)⟩

theorem frames_transact {f : σ → List ω × α} (hF : D.Steady held F)
    (hkeep : ∀ s w, D.inv s → D.may held s w → D.cond s w → D.inv (Statement.apply w s))
    (h : ∀ s₀, ∀ w ∈ (f s₀).1, ∀ s, D.inv s → F s →
      D.may held s w ∧ (D.cond s w → F (Statement.apply w s))) :
    D.Frames held F E
      (liftM (Proc.transact f : Proc σ ω ℓ π κ ans α) : Throwing ε σ ω ℓ π κ ans α) :=
  ends_lift fun s hs s' hr hinv ↦
    permits_mono (permits_frame hkeep (h s') hinv (hF s s' hr hs)) fun _ hp ↦ ⟨rfl, hp⟩

theorem frames_spawn {call : π} (hF : D.Steady held F)
    (h : ∀ s, D.inv s → F s → D.pre call s) : D.Frames held F E
    (liftM (Proc.spawn call : Proc σ ω ℓ π κ ans Unit) : Throwing ε σ ω ℓ π κ ans Unit) :=
  ends_lift (triple_spawn hF h)

/-- A thread that starts where `F` holds keeps the discipline. -/
theorem Frames.wp {p : Throwing ε σ ω ℓ π κ ans α} {s : σ} (h : D.Frames held F E p) (hs : F s) :
    D.wp p.run (fun _ _ _ ↦ True) held s := wp_mono (h s hs) fun _ _ _ _ ↦ trivial

end Discipline

end SlurmScheduler.Concurrent
