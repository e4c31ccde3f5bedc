import SlurmScheduler.Concurrent.Process

namespace SlurmScheduler.Concurrent

open Relational Statement

variable {σ ω ℓ π κ : Type} {ans : κ → Type} {α β : Type}

structure Discipline (σ ω ℓ π : Type) where
  /-- holds whenever a thread makes a step -/
  inv : σ → Prop
  /-- the condition that a run is assumed to meet at every write -/
  cond : σ → ω → Prop
  /-- what a thread may write under the locks it holds -/
  may : (ℓ → Bool) → σ → ω → Prop
  /-- what the others may change while a thread holds these locks -/
  rely : (ℓ → Bool) → σ → σ → Prop
  /-- what a call expects of the state in which it is forked -/
  pre : π → σ → Prop

def noLocks : ℓ → Bool := fun _ ↦ false

namespace Discipline

variable [Statement σ ω] (D : Discipline σ ω ℓ π)

def permits (held : ℓ → Bool) : List ω → (σ → Prop) → σ → Prop
  | [], Q, s => Q s
  | w :: ws, Q, s => D.may held s w ∧ (D.cond s w → permits held ws Q (apply w s))

theorem permits_mono {D : Discipline σ ω ℓ π} {held : ℓ → Bool} {ws : List ω} {Q Q' : σ → Prop}
    {s : σ} (h : D.permits held ws Q s) (hQ : ∀ s, Q s → Q' s) : D.permits held ws Q' s := by
  induction ws generalizing s with
  | nil => exact hQ s h
  | cons w ws ih => exact ⟨h.1, fun hc ↦ ih (h.2 hc)⟩

variable [DecidableEq ℓ]

def wp : Proc σ ω ℓ π κ ans α → (α → (ℓ → Bool) → σ → Prop) → (ℓ → Bool) → σ → Prop
  | .ret a, Q, held, s => Q a held s
  | .step writes k, Q, held, s => ∀ s', D.rely held s s' → D.inv s' →
      D.permits held (writes s') (wp (k s') Q held) s'
  | .ask _ k, Q, held, s => ∀ a, wp (k a) Q held s
  | .fork call k, Q, held, s => ∀ s', D.rely held s s' → D.inv s' →
      D.pre call s' ∧ wp k Q held s'
  | .lock l k, Q, held, s => ∀ s', D.rely held s s' → D.inv s' → held l = false →
      wp k Q (Function.update held l true) s'
  | .unlock l k, Q, held, s => wp k Q (Function.update held l false) s

variable {D} {held : ℓ → Bool} {s : σ}

variable {Q Q' : α → (ℓ → Bool) → σ → Prop}

theorem wp_mono {p : Proc σ ω ℓ π κ ans α} (h : D.wp p Q held s)
    (hQ : ∀ a held s, Q a held s → Q' a held s) : D.wp p Q' held s := by
  induction p generalizing held s with
  | ret a => exact hQ a held s h
  | step writes k ih =>
      exact fun s' hrely hinv ↦ permits_mono (h s' hrely hinv) fun s'' hk ↦ ih s' hk
  | ask q k ih => exact fun a ↦ ih a (h a)
  | fork call k ih => exact fun s' hrely hinv ↦ ⟨(h s' hrely hinv).1, ih (h s' hrely hinv).2⟩
  | lock l k ih => exact fun s' hrely hinv hfree ↦ ih (h s' hrely hinv hfree)
  | unlock l k ih => exact ih h

@[simp] theorem wp_ret {a : α} : D.wp (.ret a : Proc σ ω ℓ π κ ans α) Q held s ↔ Q a held s :=
  Iff.rfl

@[simp] theorem wp_pure {a : α} :
    D.wp (pure a : Proc σ ω ℓ π κ ans α) Q held s ↔ Q a held s := Iff.rfl

theorem wp_andThen {p : Proc σ ω ℓ π κ ans β} {f : β → Proc σ ω ℓ π κ ans α} :
    D.wp (p.andThen f) Q held s ↔ D.wp p (fun b held s ↦ D.wp (f b) Q held s) held s := by
  induction p generalizing held s with
  | ret a => rfl
  | step writes k ih =>
      have hk : ∀ a, D.wp ((k a).andThen f) Q held =
          D.wp (k a) (fun b held s ↦ D.wp (f b) Q held s) held := fun a ↦ funext fun _ ↦ propext (ih a)
      simp only [Proc.andThen, wp, hk]
  | ask q k ih => simp only [Proc.andThen, wp, ih]
  | fork call k ih => simp only [Proc.andThen, wp, ih]
  | lock l k ih => simp only [Proc.andThen, wp, ih]
  | unlock l k ih => simp only [Proc.andThen, wp, ih]

@[simp] theorem wp_bind {p : Proc σ ω ℓ π κ ans β} {f : β → Proc σ ω ℓ π κ ans α} :
    D.wp (p >>= f) Q held s ↔ D.wp p (fun b held s ↦ D.wp (f b) Q held s) held s := wp_andThen

@[simp] theorem wp_read {f : σ → α} : D.wp (.read f : Proc σ ω ℓ π κ ans α) Q held s ↔
    ∀ s', D.rely held s s' → D.inv s' → Q (f s') held s' := Iff.rfl

@[simp] theorem wp_write {w : ω} {Q : Unit → (ℓ → Bool) → σ → Prop} :
    D.wp (.write w : Proc σ ω ℓ π κ ans Unit) Q held s ↔
      ∀ s', D.rely held s s' → D.inv s' →
        D.may held s' w ∧ (D.cond s' w → Q () held (apply w s')) := Iff.rfl

@[simp] theorem wp_writeAll {ws : List ω} {Q : Unit → (ℓ → Bool) → σ → Prop} :
    D.wp (.writeAll ws : Proc σ ω ℓ π κ ans Unit) Q held s ↔
      ∀ s', D.rely held s s' → D.inv s' → D.permits held ws (Q () held) s' := Iff.rfl

@[simp] theorem wp_transact {f : σ → List ω × α} :
    D.wp (.transact f : Proc σ ω ℓ π κ ans α) Q held s ↔
      ∀ s', D.rely held s s' → D.inv s' → D.permits held (f s').1 (Q (f s').2 held) s' := Iff.rfl

@[simp] theorem wp_query {q : κ} {Q : ans q → (ℓ → Bool) → σ → Prop} :
    D.wp (.query q : Proc σ ω ℓ π κ ans (ans q)) Q held s ↔ ∀ a, Q a held s := Iff.rfl

@[simp] theorem wp_spawn {call : π} {Q : Unit → (ℓ → Bool) → σ → Prop} :
    D.wp (.spawn call : Proc σ ω ℓ π κ ans Unit) Q held s ↔
      ∀ s', D.rely held s s' → D.inv s' → D.pre call s' ∧ Q () held s' := Iff.rfl

theorem wp_locked {l : ℓ} {p : Proc σ ω ℓ π κ ans α} :
    D.wp (.locked l p) Q held s ↔ ∀ s', D.rely held s s' → D.inv s' → held l = false →
      D.wp p (fun a held s ↦ Q a (Function.update held l false) s)
        (Function.update held l true) s' := by
  simp only [Proc.locked, wp, wp_andThen]

theorem wp_ite {c : Prop} [Decidable c] {p q : Proc σ ω ℓ π κ ans α} :
    D.wp (if c then p else q) Q held s ↔
      (c → D.wp p Q held s) ∧ (¬ c → D.wp q Q held s) := by
  by_cases hc : c <;> simp [hc]

/-- The invariant of a loop is one of the state between two of its rounds. -/
theorem wp_forEach {I : σ → Prop} {bs : List β} {f : β → Proc σ ω ℓ π κ ans Unit}
    (hf : ∀ b ∈ bs, ∀ s, I s → D.wp (f b) (fun _ held' s ↦ held' = held ∧ I s) held s)
    (hs : I s) : D.wp (.forEach bs f) (fun _ held' s ↦ held' = held ∧ I s) held s := by
  induction bs generalizing s with
  | nil => exact ⟨rfl, hs⟩
  | cons b bs ih =>
      refine wp_andThen.mpr (wp_mono (hf b List.mem_cons_self s hs) ?_)
      rintro _ _ s' ⟨rfl, hs'⟩
      exact ih (fun c hc ↦ hf c (List.mem_cons_of_mem b hc)) hs'

/-- A process proved under one discipline keeps every discipline that allows its writes and
promises no less. -/
theorem wp_of {E : Discipline σ ω ℓ π} (hinv : ∀ s, E.inv s → D.inv s)
    (hcond : ∀ s w, E.inv s → E.cond s w → D.cond s w)
    (hmay : ∀ held s w, E.inv s → D.may held s w → E.may held s w)
    (hkeep : ∀ held s w, E.inv s → E.may held s w → E.cond s w → E.inv (apply w s))
    (hrely : ∀ held s s', E.rely held s s' → D.rely held s s')
    (hpre : ∀ c s, E.inv s → D.pre c s → E.pre c s) {p : Proc σ ω ℓ π κ ans α}
    (h : D.wp p Q held s) : E.wp p Q held s := by
  have hpermits : ∀ {held : ℓ → Bool} {ws : List ω} {Q Q' : σ → Prop} {s : σ}, E.inv s →
      D.permits held ws Q s → (∀ s, E.inv s → Q s → Q' s) → E.permits held ws Q' s := by
    intro held ws
    induction ws with
    | nil => exact fun hs h hQ ↦ hQ _ hs h
    | cons w ws ih =>
        intro Q Q' s hs h hQ
        have hw := hmay held s w hs h.1
        exact ⟨hw, fun hc ↦ ih (hkeep held s w hs hw hc) (h.2 (hcond s w hs hc)) hQ⟩
  induction p generalizing held s with
  | ret a => exact h
  | step writes k ih =>
      intro s' hr hs
      exact hpermits hs (h s' (hrely held s s' hr) (hinv s' hs)) fun _ _ hk ↦ ih s' hk
  | ask q k ih => exact fun a ↦ ih a (h a)
  | fork call k ih =>
      intro s' hr hs
      obtain ⟨hcall, hk⟩ := h s' (hrely held s s' hr) (hinv s' hs)
      exact ⟨hpre call s' hs hcall, ih hk⟩
  | lock l k ih =>
      exact fun s' hr hs hfree ↦ ih (h s' (hrely held s s' hr) (hinv s' hs) hfree)
  | unlock l k ih => exact ih h

variable (D) in
structure Coherent : Prop where
  refl : ∀ held s, D.rely held s s
  trans : ∀ held s s' s'', D.rely held s s' → D.rely held s' s'' → D.rely held s s''
  /-- fewer locks promise less -/
  anti : ∀ held held' s s', (∀ l, held' l = true → held l = true) → D.rely held s s' →
    D.rely held' s s'
  /-- a lock that another thread holds is not held by this one -/
  compatible : ∀ held held' s w, (∀ l, held l = true → held' l = false) → D.inv s →
    D.may held' s w → D.cond s w → D.rely held s (apply w s)
  keep : ∀ held s w, D.inv s → D.may held s w → D.cond s w → D.inv (apply w s)

variable (D) in
structure Governs (S : System σ ω ℓ π κ ans) : Prop extends Coherent D where
  reboot : ∀ s, D.inv s → D.inv (S.reboot s)
  external : ∀ c s, S.external c = true → D.inv s → D.pre c s
  call : ∀ c s, D.inv s → D.pre c s →
    D.wp (S.program c) (fun _ _ _ ↦ True) noLocks s

variable {S : System σ ω ℓ π κ ans}

theorem Governs.wp_rely (hS : D.Governs S) {p : Proc σ ω ℓ π κ ans Unit} {s' : σ}
    (h : D.wp p (fun _ _ _ ↦ True) held s) (hr : D.rely held s s') :
    D.wp p (fun _ _ _ ↦ True) held s' := by
  induction p generalizing held s s' with
  | ret a => trivial
  | step writes k ih => exact fun s'' hr' ↦ h s'' (hS.trans held s s' s'' hr hr')
  | ask q k ih => exact fun a ↦ ih a (h a) hr
  | fork call k ih => exact fun s'' hr' ↦ h s'' (hS.trans held s s' s'' hr hr')
  | lock l k ih => exact fun s'' hr' ↦ h s'' (hS.trans held s s' s'' hr hr')
  | unlock l k ih =>
      refine ih h (hS.anti _ _ _ _ (fun l' hl' ↦ ?_) hr)
      by_cases hl : l' = l
      · rw [hl, Function.update_self] at hl'
        cases hl'
      · rwa [Function.update_of_ne hl] at hl'

structure Safe (D : Discipline σ ω ℓ π) (c : Config σ ω ℓ π κ ans) : Prop where
  inv : D.inv c.state
  owners : ∀ l i, c.holder l = some i → i < c.threads.length
  threads : ∀ i p, c.threads[i]? = some p → D.wp p (fun _ _ _ ↦ True) (c.heldBy i) c.state

/-- A step's writes: each of them is permitted, and the other threads stay safe. -/
theorem Governs.writes (hS : D.Governs S) {held : ℓ → Bool} {ws : List ω} {Q : σ → Prop} {s : σ}
    (h : D.permits held ws Q s) (hs : D.inv s)
    (hC : ∀ e ∈ executions s ws, D.cond e.before e.write) :
    (∀ e ∈ executions s ws, D.inv e.before ∧ D.may held e.before e.write) ∧
      D.inv (replay ws s) ∧ Q (replay ws s) ∧
      ∀ held', (∀ l, held' l = true → held l = false) → D.rely held' s (replay ws s) := by
  induction ws generalizing s with
  | nil => exact ⟨List.forall_mem_nil _, hs, h, fun held' _ ↦ hS.refl held' s⟩
  | cons w ws ih =>
      rw [executions, List.forall_mem_cons] at hC
      have hnext := hS.keep held s w hs h.1 hC.1
      obtain ⟨hall, hinv, hq, hrely⟩ := ih (h.2 hC.1) hnext hC.2
      refine ⟨List.forall_mem_cons.mpr ⟨⟨hs, h.1⟩, hall⟩, hinv, hq, fun held' hdis ↦ ?_⟩
      exact hS.trans held' _ _ _ (hS.compatible held' held s w hdis hs h.1 hC.1) (hrely held' hdis)

/-- The pool after a step of one thread, which may have taken or left a lock. -/
theorem Safe.advance (hS : D.Governs S) {c c' : Config σ ω ℓ π κ ans} {i : ℕ}
    {p q : Proc σ ω ℓ π κ ans Unit} (h : Safe D c) (hi : c.threads[i]? = some q)
    (hthreads : c'.threads = c.threads.set i p) (hinv : D.inv c'.state)
    (hp : D.wp p (fun _ _ _ ↦ True) (c'.heldBy i) c'.state)
    (hothers : ∀ j, j ≠ i → ∀ l, c'.holder l = some j ↔ c.holder l = some j)
    (hr : ∀ j, j ≠ i → D.rely (c.heldBy j) c.state c'.state) : Safe D c' where
  inv := hinv
  owners l j hj := by
    rw [hthreads, List.length_set]
    rcases eq_or_ne j i with rfl | hij
    · exact (List.getElem?_eq_some_iff.mp hi).1
    · exact h.owners l j ((hothers j hij l).mp hj)
  threads j r hj := by
    rw [hthreads] at hj
    rcases eq_or_ne j i with rfl | hij
    · rw [List.getElem?_set_self (List.getElem?_eq_some_iff.mp hi).1, Option.some.injEq] at hj
      exact hj ▸ hp
    · rw [List.getElem?_set_ne hij.symm] at hj
      have hheld : c'.heldBy j = c.heldBy j := by
        funext l
        rw [Bool.eq_iff_iff, Config.heldBy, Config.heldBy, beq_iff_eq, beq_iff_eq]
        exact hothers j hij l
      rw [hheld]
      exact hS.wp_rely (h.threads j r hj) (hr j hij)

theorem Safe.append {c : Config σ ω ℓ π κ ans} {p : Proc σ ω ℓ π κ ans Unit} (h : Safe D c)
    (hp : D.wp p (fun _ _ _ ↦ True) noLocks c.state) :
    Safe D { c with threads := c.threads ++ [p] } where
  inv := h.inv
  owners l i hi := by
    rw [List.length_append]
    exact Nat.lt_add_right _ (h.owners l i hi)
  threads i q hq := by
    rcases lt_trichotomy i c.threads.length with hi | rfl | hi
    · rw [List.getElem?_append_left hi] at hq
      exact h.threads i q hq
    · have hfree : Config.heldBy { c with threads := c.threads ++ [p] } c.threads.length =
          noLocks := by
        funext l
        simp only [Config.heldBy, noLocks, beq_eq_false_iff_ne, ne_eq]
        exact fun hl ↦ lt_irrefl _ (h.owners l _ hl)
      rw [List.getElem?_concat_length, Option.some.injEq] at hq
      rw [hfree, ← hq]
      exact hp
    · rw [List.getElem?_eq_none (by simpa using hi)] at hq
      cases hq

theorem Safe.run (hS : D.Governs S) {c : Config σ ω ℓ π κ ans} {i : ℕ} (h : Safe D c)
    (hC : ∀ e ∈ c.runEvents i, D.cond e.before e.write) :
    (∀ e ∈ c.runEvents i, D.inv e.before ∧ D.may e.held e.before e.write) ∧ Safe D (c.run S i) := by
  unfold Config.runEvents at hC ⊢
  unfold Config.run
  cases hp : c.threads[i]? with
  | none => exact ⟨List.forall_mem_nil _, h⟩
  | some p =>
      have hwp := h.threads i p hp
      cases p with
      | ret a => exact ⟨List.forall_mem_nil _, h⟩
      | ask q k => exact ⟨List.forall_mem_nil _, h⟩
      | step writes k =>
          simp only [hp, List.forall_mem_map] at hC ⊢
          obtain ⟨hall, hinv, hk, hrely⟩ :=
            hS.writes (hwp c.state (hS.refl _ _) h.inv) h.inv hC
          exact ⟨hall, h.advance hS hp rfl hinv hk (fun _ _ _ ↦ Iff.rfl) fun j hj ↦
            hrely _ fun l hl ↦ Config.heldBy_disjoint hj l hl⟩
      | fork call k =>
          obtain ⟨hpre, hk⟩ := hwp c.state (hS.refl _ _) h.inv
          refine ⟨List.forall_mem_nil _, ?_⟩
          have hadvance : Safe D (c.setThread i k) :=
            h.advance hS hp rfl h.inv hk (fun _ _ _ ↦ Iff.rfl) fun j _ ↦ hS.refl _ _
          exact hadvance.append (hS.call call c.state h.inv hpre)
      | lock l k =>
          refine ⟨List.forall_mem_nil _, ?_⟩
          dsimp only
          split
          · rename_i hfree
            have hnot : c.heldBy i l = false := by simp [Config.heldBy, hfree]
            have hk := hwp c.state (hS.refl _ _) h.inv hnot
            refine h.advance hS hp rfl h.inv ?_ (fun j hj l' ↦ ?_) fun j _ ↦ hS.refl _ _
            · rw [Config.heldBy_lock]
              exact hk
            · rcases eq_or_ne l' l with rfl | hl
              · simp [hfree, hj.symm]
              · simp [Function.update_of_ne hl]
          · exact h
      | unlock l k =>
          refine ⟨List.forall_mem_nil _, ?_⟩
          dsimp only
          split
          · rename_i howned
            refine h.advance hS hp rfl h.inv ?_ (fun j hj l' ↦ ?_) fun j _ ↦ hS.refl _ _
            · rw [Config.heldBy_unlock]
              exact hwp
            · rcases eq_or_ne l' l with rfl | hl
              · simp [howned, hj.symm]
              · simp [Function.update_of_ne hl]
          · exact h

theorem Safe.move [DecidableEq κ] (hS : D.Governs S) {c : Config σ ω ℓ π κ ans} (h : Safe D c)
    (m : Move π κ ans) (hC : ∀ e ∈ c.events m, D.cond e.before e.write) :
    (∀ e ∈ c.events m, D.inv e.before ∧ D.may e.held e.before e.write) ∧
      Safe D (c.move S m) := by
  cases m with
  | run i => exact h.run hS hC
  | call call =>
      refine ⟨List.forall_mem_nil _, ?_⟩
      change Safe D (if S.external call then { c with threads := c.threads ++ [S.program call] }
        else c)
      split
      · rename_i hext
        exact h.append (hS.call call c.state h.inv (hS.external call c.state hext h.inv))
      · exact h
  | answer i q a =>
      refine ⟨List.forall_mem_nil _, ?_⟩
      dsimp only [Config.move]
      split
      · rename_i q' k hp
        split
        · rename_i hq
          subst hq
          exact h.advance hS hp rfl h.inv (h.threads i _ hp a) (fun _ _ _ ↦ Iff.rfl)
            fun j _ ↦ hS.refl _ _
        · exact h
      · exact h
  | crash =>
      refine ⟨List.forall_mem_nil _, hS.reboot _ h.inv, ?_, ?_⟩
      · rintro l i ⟨⟩
      · rintro i p hp
        simp [Config.move] at hp

theorem Safe.idle {s : σ} (hs : D.inv s) : Safe D ({ state := s } : Config σ ω ℓ π κ ans) where
  inv := hs
  owners := by rintro l i ⟨⟩
  threads := by
    rintro i p hp
    simp at hp

variable [DecidableEq κ]

theorem Governs.run (hS : D.Governs S) {c : Config σ ω ℓ π κ ans} (h : Safe D c)
    (ms : List (Move π κ ans)) (hC : S.Meets D.cond c ms) :
    (∀ e ∈ S.trace c ms, D.inv e.before ∧ D.may e.held e.before e.write) ∧
      Safe D (S.after c ms) := by
  induction ms generalizing c with
  | nil => exact ⟨List.forall_mem_nil _, h⟩
  | cons m ms ih =>
      rw [System.meets_cons] at hC
      obtain ⟨hevents, hnext⟩ := h.move hS m hC.1
      obtain ⟨htrace, hafter⟩ := ih hnext hC.2
      exact ⟨List.forall_mem_append.mpr ⟨hevents, htrace⟩, hafter⟩

end Discipline

end SlurmScheduler.Concurrent
