import SlurmScheduler.Concurrent.Federation
import SlurmScheduler.Concurrent.Looks

namespace SlurmScheduler.Concurrent

open Relational Statement

variable {σ ω ℓ π κ : Type} {ans : κ → Type} {α : Type}

namespace Discipline

/-- What a write may be when the states that its thread has seen satisfy `R`. -/
def founded (may : (σ → Prop) → (ℓ → Bool) → σ → ω → Prop) [Statement σ ω] (R : σ → Prop) :
    Discipline σ ω ℓ π where
  inv := R
  cond s w := R (apply w s)
  may := may R
  rely _ _ _ := True
  pre _ _ := True

variable [Statement σ ω] [DecidableEq ℓ] {may : (σ → Prop) → (ℓ → Bool) → σ → ω → Prop}
  {R : σ → Prop}

/-- Others may change everything, so the state before a process does not matter. -/
theorem wp_founded_anywhere {p : Proc σ ω ℓ π κ ans α} {held : ℓ → Bool} {s s' : σ}
    {Q : α → (ℓ → Bool) → Prop}
    (h : (founded may R : Discipline σ ω ℓ π).wp p (fun a held _ ↦ Q a held) held s) :
    (founded may R : Discipline σ ω ℓ π).wp p (fun a held _ ↦ Q a held) held s' := by
  induction p generalizing held s s' with
  | ret a => exact h
  | step writes k ih => exact h
  | ask q k ih => exact fun a ↦ ih a (h a)
  | fork call k ih => exact h
  | lock l k ih => exact h
  | unlock l k ih => exact ih h

end Discipline

open Discipline

variable [Statement σ ω] [DecidableEq ℓ] {may : (σ → Prop) → (ℓ → Bool) → σ → ω → Prop}

def System.Founded (S : System σ ω ℓ π κ ans) (may : (σ → Prop) → (ℓ → Bool) → σ → ω → Prop) :
    Prop :=
  ∀ R call s, R s →
    (founded may R : Discipline σ ω ℓ π).wp (S.program call) (fun _ _ _ ↦ True) noLocks s

def FoundedRest (may : (σ → Prop) → (ℓ → Bool) → σ → ω → Prop) (looks : List (Look σ ω))
    (held : ℓ → Bool) (p : Proc σ ω ℓ π κ ans Unit) : Prop :=
  ∀ R : σ → Prop, (∃ s, R s) → (∀ x ∈ looks, R x.state) → ∀ s,
    (founded may R : Discipline σ ω ℓ π).wp p (fun _ _ _ ↦ True) held s

structure Watch.Founded (may : (σ → Prop) → (ℓ → Bool) → σ → ω → Prop)
    (c : Watch σ ω ℓ π κ ans) : Prop where
  owners : ∀ l i, c.config.holder l = some i → i < c.config.threads.length
  threads : ∀ i p, c.config.threads[i]? = some p →
    FoundedRest may (c.looks i) (c.config.heldBy i) p

theorem FoundedRest.later {looks : List (Look σ ω)} {held : ℓ → Bool}
    {p : Proc σ ω ℓ π κ ans Unit} (h : FoundedRest may looks held p) (ws : List ω) :
    FoundedRest may (looks.map (.later ws)) held p := by
  intro R hsome hlooks
  rw [List.forall_mem_map] at hlooks
  exact h R hsome hlooks

omit [DecidableEq ℓ] in
theorem founded_step {looks : List (Look σ ω)} {held : ℓ → Bool} {ws : List ω} {s : σ}
    {Q : (σ → Prop) → σ → Prop}
    (h : ∀ R : σ → Prop, R s → (∀ x ∈ looks, R x.state) →
      (founded may R : Discipline σ ω ℓ π).permits held ws (Q R) s) :
    (∀ d ∈ stepDecisions held looks s ws, may d.Seen d.held d.before d.write) ∧
      ∀ R : σ → Prop, (∀ x ∈ stepLooks looks s ws, R x.state) → Q R (replay ws s) := by
  induction ws generalizing looks s with
  | nil =>
      refine ⟨List.forall_mem_nil _, fun R hR ↦ ?_⟩
      rw [stepLooks, List.forall_mem_cons] at hR
      exact h R hR.1 hR.2
  | cons w ws ih =>
      have hnow := (h (Decision.mk ⟨⟨s, w⟩, held⟩ looks).Seen (.inl rfl)
        fun x hx ↦ .inr ⟨x, hx, rfl⟩).1
      obtain ⟨hall, hafter⟩ := @ih ((⟨s, []⟩ :: looks).map (.later [w]))
        (apply w s) fun R hR hlooks ↦ by
          rw [List.forall_mem_map, List.forall_mem_cons] at hlooks
          exact (h R hlooks.1 hlooks.2).2 hR
      exact ⟨List.forall_mem_cons.mpr ⟨hnow, hall⟩, hafter⟩

theorem Watch.Founded.idle (s : σ) :
    Watch.Founded may (.idle s : Watch σ ω ℓ π κ ans) where
  owners := by rintro l i ⟨⟩
  threads := by
    intro i p hi
    simp [Watch.idle] at hi

theorem Watch.Founded.of_eq {c c' : Watch σ ω ℓ π κ ans} (h : c.Founded may) (hc : c' = c) :
    c'.Founded may := by
  rw [hc]
  exact h

/-- The pool after a step of one thread, which may have taken or left a lock. -/
theorem Watch.Founded.advance {c c' : Watch σ ω ℓ π κ ans} {i : ℕ}
    {p q : Proc σ ω ℓ π κ ans Unit} (h : c.Founded may) (hi : c.config.threads[i]? = some q)
    (hthreads : c'.config.threads = c.config.threads.set i p)
    (hp : FoundedRest may (c'.looks i) (c'.config.heldBy i) p)
    (hothers : ∀ j, j ≠ i → ∀ l, c'.config.holder l = some j ↔ c.config.holder l = some j)
    (hlooks : ∀ j, j ≠ i → ∀ held (r : Proc σ ω ℓ π κ ans Unit),
      FoundedRest may (c.looks j) held r → FoundedRest may (c'.looks j) held r) :
    c'.Founded may where
  owners l j hj := by
    rw [hthreads, List.length_set]
    rcases eq_or_ne j i with rfl | hij
    · exact (List.getElem?_eq_some_iff.mp hi).1
    · exact h.owners l j ((hothers j hij l).mp hj)
  threads j r hj := by
    rw [hthreads] at hj
    rcases eq_or_ne j i with rfl | hij
    · rw [List.getElem?_set_self (List.getElem?_eq_some_iff.mp hi).1, Option.some.injEq] at hj
      exact hj ▸ hp
    · rw [List.getElem?_set_ne hij.symm] at hj
      have hheld : c'.config.heldBy j = c.config.heldBy j := by
        funext l
        rw [Bool.eq_iff_iff, Config.heldBy, Config.heldBy, beq_iff_eq, beq_iff_eq]
        exact hothers j hij l
      rw [hheld]
      exact hlooks j hij _ _ (h.threads j r hj)

theorem Watch.Founded.append {S : System σ ω ℓ π κ ans} (hS : S.Founded may)
    {c c' : Watch σ ω ℓ π κ ans} {call : π} (h : c.Founded may)
    (hthreads : c'.config.threads = c.config.threads ++ [S.program call])
    (hholder : c'.config.holder = c.config.holder) (hlooks : c'.looks = c.looks) :
    c'.Founded may where
  owners l i hi := by
    rw [hthreads, List.length_append]
    exact Nat.lt_add_right _ (h.owners l i (hholder ▸ hi))
  threads i q hq := by
    have hheld : c'.config.heldBy i = c.config.heldBy i := by
      funext l
      rw [Config.heldBy, Config.heldBy, hholder]
    rw [hthreads] at hq
    rw [hlooks, hheld]
    rcases lt_trichotomy i c.config.threads.length with hi | rfl | hi
    · rw [List.getElem?_append_left hi] at hq
      exact h.threads i q hq
    · have hfree : c.config.heldBy c.config.threads.length = noLocks := by
        funext l
        simp only [Config.heldBy, noLocks, beq_eq_false_iff_ne, ne_eq]
        exact fun hl ↦ lt_irrefl _ (h.owners l _ hl)
      rw [List.getElem?_concat_length, Option.some.injEq] at hq
      rw [hfree, ← hq]
      intro R hsome _ s
      obtain ⟨t, ht⟩ := hsome
      exact wp_founded_anywhere (hS R call t ht)
    · rw [List.getElem?_eq_none (by simpa using hi)] at hq
      cases hq

variable [DecidableEq κ] {S : System σ ω ℓ π κ ans}

section Run

variable {c : Watch σ ω ℓ π κ ans} {i : ℕ}

theorem Watch.Founded.run_step {writes : σ → List ω} {k : σ → Proc σ ω ℓ π κ ans Unit}
    (h : c.Founded may) (hp : c.config.threads[i]? = some (.step writes k)) :
    (∀ d ∈ stepDecisions (c.config.heldBy i) (c.looks i) c.config.state (writes c.config.state),
      may d.Seen d.held d.before d.write) ∧ (c.move S (.run i)).Founded may := by
  have hrest := h.threads i _ hp
  obtain ⟨hall, hafter⟩ := @founded_step _ _ _ _ _ _ (c.looks i)
    (c.config.heldBy i) (writes c.config.state) c.config.state
    (fun R ↦ (founded may R).wp (k c.config.state) (fun _ _ _ ↦ True)
      (c.config.heldBy i)) fun R hR hlooks ↦
        hrest R ⟨_, hR⟩ hlooks c.config.state c.config.state trivial hR
  refine ⟨hall, h.advance (p := k c.config.state) hp ?_ ?_ (fun j _ l ↦ ?_) ?_⟩
  · simp only [Watch.move, Config.move, Config.run, Config.setThread, hp]
  · have hlooks : (c.move S (.run i)).looks i =
        stepLooks (c.looks i) c.config.state (writes c.config.state) := by
      simp only [Watch.move, Watch.runLooks, hp, if_pos]
    have hheld : (c.move S (.run i)).config.heldBy i = c.config.heldBy i := by
      simp only [Watch.move, Config.move, Config.run, Config.setThread, hp]
      rfl
    rw [hlooks, hheld]
    exact fun R _ hR s ↦ wp_founded_anywhere (hafter R hR)
  · simp only [Watch.move, Config.move, Config.run, Config.setThread, hp]
  · intro j hj held r hr
    have hlooks : (c.move S (.run i)).looks j =
        (c.looks j).map (.later (writes c.config.state)) := by
      simp only [Watch.move, Watch.runLooks, hp, if_neg hj]
    rw [hlooks]
    exact hr.later _

theorem Watch.Founded.run_fork {call : π} {k : Proc σ ω ℓ π κ ans Unit} (hS : S.Founded may)
    (h : c.Founded may) (hp : c.config.threads[i]? = some (.fork call k)) :
    (c.move S (.run i)).Founded may := by
  have hrest := h.threads i _ hp
  have hlooks : (c.move S (.run i)).looks = c.looks := by
    simp only [Watch.move, Watch.runLooks, hp]
  have hk : FoundedRest may (c.looks i) (c.config.heldBy i) k := by
    intro R hsome hR s
    obtain ⟨t, ht⟩ := hsome
    exact wp_founded_anywhere (hrest R ⟨t, ht⟩ hR s t trivial ht).2
  have hadvance : Watch.Founded may { c with config := c.config.setThread i k } :=
    h.advance hp rfl hk (fun _ _ _ ↦ Iff.rfl) fun _ _ _ _ hr ↦ hr
  refine @Watch.Founded.append _ _ _ _ _ _ _ _ _ _ hS _ _ call hadvance ?_ ?_ hlooks
  · simp only [Watch.move, Config.move, Config.run, Config.setThread, hp]
  · simp only [Watch.move, Config.move, Config.run, Config.setThread, hp]

theorem Watch.Founded.run_lock {l : ℓ} {k : Proc σ ω ℓ π κ ans Unit} (h : c.Founded may)
    (hp : c.config.threads[i]? = some (.lock l k)) : (c.move S (.run i)).Founded may := by
  have hrest := h.threads i _ hp
  by_cases hfree : c.config.holder l = none
  · have hmove : c.move S (.run i) = { c with config :=
        ⟨c.config.state, c.config.threads.set i k,
          Function.update c.config.holder l (some i)⟩ } := by
      simp only [Watch.move, Watch.runLooks, Config.move, Config.run, Config.setThread, hp,
        if_pos hfree]
    have hnot : c.config.heldBy i l = false := by simp [Config.heldBy, hfree]
    rw [hmove]
    refine h.advance hp rfl ?_ (fun j hj l' ↦ ?_) fun _ _ _ _ hr ↦ hr
    · rw [Config.heldBy_lock]
      intro R hsome hR s
      obtain ⟨t, ht⟩ := hsome
      exact wp_founded_anywhere (hrest R ⟨t, ht⟩ hR s t trivial ht hnot)
    · rcases eq_or_ne l' l with rfl | hl
      · simp [hfree, hj.symm]
      · simp [Function.update_of_ne hl]
  · have hsame : c.move S (.run i) = c := by
      simp only [Watch.move, Watch.runLooks, Config.move, Config.run, hp, if_neg hfree]
    exact h.of_eq hsame

theorem Watch.Founded.run_unlock {l : ℓ} {k : Proc σ ω ℓ π κ ans Unit} (h : c.Founded may)
    (hp : c.config.threads[i]? = some (.unlock l k)) : (c.move S (.run i)).Founded may := by
  have hrest := h.threads i _ hp
  by_cases howned : c.config.holder l = some i
  · have hmove : c.move S (.run i) = { c with config :=
        ⟨c.config.state, c.config.threads.set i k,
          Function.update c.config.holder l none⟩ } := by
      simp only [Watch.move, Watch.runLooks, Config.move, Config.run, Config.setThread, hp,
        if_pos howned]
    rw [hmove]
    refine h.advance hp rfl ?_ (fun j hj l' ↦ ?_) fun _ _ _ _ hr ↦ hr
    · rw [Config.heldBy_unlock]
      exact fun R hsome hR s ↦ hrest R hsome hR s
    · rcases eq_or_ne l' l with rfl | hl
      · simp [howned, hj.symm]
      · simp [Function.update_of_ne hl]
  · have hsame : c.move S (.run i) = c := by
      simp only [Watch.move, Watch.runLooks, Config.move, Config.run, hp, if_neg howned]
    exact h.of_eq hsame

theorem Watch.Founded.run (hS : S.Founded may) (h : c.Founded may) (i : ℕ) :
    (∀ d ∈ c.decisions (.run i), may d.Seen d.held d.before d.write) ∧
      (c.move S (.run i)).Founded may := by
  unfold Watch.decisions
  dsimp only
  cases hp : c.config.threads[i]? with
  | none =>
      have hsame : c.move S (.run i) = c := by
        simp only [Watch.move, Watch.runLooks, Config.move, Config.run, hp]
      exact ⟨List.forall_mem_nil _, h.of_eq hsame⟩
  | some p =>
      cases p with
      | step writes k => exact h.run_step hp
      | fork call k => exact ⟨List.forall_mem_nil _, h.run_fork hS hp⟩
      | lock l k => exact ⟨List.forall_mem_nil _, h.run_lock hp⟩
      | unlock l k => exact ⟨List.forall_mem_nil _, h.run_unlock hp⟩
      | _ =>
          have hsame : c.move S (.run i) = c := by
            simp only [Watch.move, Watch.runLooks, Config.move, Config.run, hp]
          exact ⟨List.forall_mem_nil _, h.of_eq hsame⟩

end Run

theorem Watch.Founded.move (hS : S.Founded may) {c : Watch σ ω ℓ π κ ans} (h : c.Founded may)
    (m : Move π κ ans) : (∀ d ∈ c.decisions m, may d.Seen d.held d.before d.write) ∧
      (c.move S m).Founded may := by
  cases m with
  | run i => exact h.run hS i
  | call call =>
      refine ⟨List.forall_mem_nil _, ?_⟩
      by_cases hext : S.external call = true
      · refine @Watch.Founded.append _ _ _ _ _ _ _ _ _ _ hS _ _ call h ?_ ?_ rfl
        · simp only [Watch.move, Config.move, if_pos hext]
        · simp only [Watch.move, Config.move, if_pos hext]
      · have hsame : c.move S (.call call) = c := by
          simp only [Watch.move, Config.move, if_neg hext]
        exact h.of_eq hsame
  | answer i q a =>
      refine ⟨List.forall_mem_nil _, ?_⟩
      cases hp : c.config.threads[i]? with
      | none =>
          have hsame : c.move S (.answer i q a) = c := by
            simp only [Watch.move, Config.move, hp]
          exact h.of_eq hsame
      | some p =>
          have hrest := h.threads i p hp
          cases p with
          | ask q' k =>
              by_cases hq : q = q'
              · subst hq
                have hmove : c.move S (.answer i q a) =
                    { c with config := c.config.setThread i (k a) } := by
                  simp only [Watch.move, Config.move, hp, dif_pos]
                rw [hmove]
                exact h.advance hp rfl (fun R hsome hR s ↦ hrest R hsome hR s a)
                  (fun _ _ _ ↦ Iff.rfl) fun _ _ _ _ hr ↦ hr
              · have hsame : c.move S (.answer i q a) = c := by
                  simp only [Watch.move, Config.move, hp, dif_neg hq]
                exact h.of_eq hsame
          | _ =>
              have hsame : c.move S (.answer i q a) = c := by
                simp only [Watch.move, Config.move, hp]
              exact h.of_eq hsame
  | crash =>
      refine ⟨List.forall_mem_nil _, ?_, ?_⟩
      · rintro l i ⟨⟩
      · intro i p hi
        simp [Watch.move, Config.move] at hi

theorem Watch.Founded.all (hS : S.Founded may) {c : Watch σ ω ℓ π κ ans} (h : c.Founded may)
    (ms : List (Move π κ ans)) :
    ∀ d ∈ S.decisions c ms, may d.Seen d.held d.before d.write := by
  induction ms generalizing c with
  | nil => exact List.forall_mem_nil _
  | cons m ms ih =>
      obtain ⟨hall, hnext⟩ := h.move hS m
      exact List.forall_mem_append.mpr ⟨hall, ih hnext⟩

section Federation

open Federation

variable {μ ι : Type} [PrivateMemory σ μ]

def inFederation (may : (σ → Prop) → (ℓ → Bool) → σ → ω → Prop) (R : Federation σ μ ι → Prop)
    (held : ι × ℓ → Bool) (t : Federation σ μ ι) (w : ι × ω) : Prop :=
  may (fun s ↦ ∃ t', R t' ∧ ∃ i, view i t' = s) (fun l ↦ held (w.1, l)) (view w.1 t) w.2

variable [DecidableEq ι]

omit [DecidableEq κ] in
theorem System.Founded.federation (h : S.Founded may) :
    (S.federation (ι := ι)).Founded (inFederation may) := by
  intro R call t ht
  let R' : σ → Prop := fun s ↦ ∃ t', R t' ∧ ∃ i, view i t' = s
  have hprocess := h R' call.2 (view call.1 t) ⟨t, ht, call.1, rfl⟩
  have hfederation : (founded may R').federation.wp ((S.program call.2).ofProcess call.1)
      (fun _ _ _ ↦ True) noLocks t := wp_ofProcess (Q := fun _ _ _ ↦ True) hprocess
  refine wp_of (D := (founded may R').federation) (E := founded (inFederation may) R)
    (fun t' ht' i ↦ ⟨t', ht', i, rfl⟩) (fun t' w _ hw ↦ ⟨_, hw, w.1, ?_⟩)
    (fun _ _ _ _ hw ↦ hw) (fun _ _ _ _ _ hw ↦ hw) (fun _ _ _ _ ↦ ?_) (fun _ _ _ _ ↦ trivial)
    hfederation
  · rw [apply_eq, view_store]
  · exact fun _ ↦ trivial

end Federation

end SlurmScheduler.Concurrent
