import SlurmScheduler.Concurrent.Process

namespace SlurmScheduler.Concurrent

variable {σ ω ℓ π κ : Type} {ans : κ → Type} {α β : Type}

inductive Deed (σ ω π : Type)
  | step (state : σ) (writes : List ω)
  | start (call : π)

namespace Proc

def Ends : Proc σ ω ℓ π κ ans α → List (Deed σ ω π) → α → Prop
  | ret b, deeds, a => deeds = [] ∧ a = b
  | step writes k, deeds, a => ∃ s rest, deeds = .step s (writes s) :: rest ∧ (k s).Ends rest a
  | ask _ k, deeds, a => ∃ x, (k x).Ends deeds a
  | fork call k, deeds, a => ∃ rest, deeds = .start call :: rest ∧ k.Ends rest a
  | lock _ k, deeds, a => k.Ends deeds a
  | unlock _ k, deeds, a => k.Ends deeds a

variable {deeds : List (Deed σ ω π)} {a : α}

@[simp] theorem ends_pure {b : α} :
    (pure b : Proc σ ω ℓ π κ ans α).Ends deeds a ↔ deeds = [] ∧ a = b := Iff.rfl

@[simp] theorem ends_transact {f : σ → List ω × α} :
    (transact f : Proc σ ω ℓ π κ ans α).Ends deeds a ↔
      ∃ s, deeds = [.step s (f s).1] ∧ a = (f s).2 := by
  constructor
  · rintro ⟨s, rest, rfl, rfl, rfl⟩
    exact ⟨s, rfl, rfl⟩
  · rintro ⟨s, rfl, rfl⟩
    exact ⟨s, [], rfl, rfl, rfl⟩

@[simp] theorem ends_read {f : σ → α} : (read f : Proc σ ω ℓ π κ ans α).Ends deeds a ↔
    ∃ s, deeds = [.step s []] ∧ a = f s := @ends_transact _ _ _ _ _ _ _ _ _ fun s ↦ ([], f s)

@[simp] theorem ends_query {q : κ} {a : ans q} :
    (query q : Proc σ ω ℓ π κ ans (ans q)).Ends deeds a ↔ deeds = [] := by
  constructor
  · rintro ⟨x, rfl, -⟩
    rfl
  · rintro rfl
    exact ⟨a, rfl, rfl⟩

@[simp] theorem ends_spawn {call : π} {a : Unit} :
    (spawn call : Proc σ ω ℓ π κ ans Unit).Ends deeds a ↔ deeds = [.start call] := by
  constructor
  · rintro ⟨rest, rfl, rfl, -⟩
    rfl
  · rintro rfl
    exact ⟨[], rfl, rfl, rfl⟩

/-- A process in two parts ends as its second part does, after the steps of both. -/
theorem ends_andThen {p : Proc σ ω ℓ π κ ans β} {f : β → Proc σ ω ℓ π κ ans α} :
    (p.andThen f).Ends deeds a ↔
      ∃ b first last, deeds = first ++ last ∧ p.Ends first b ∧ (f b).Ends last a := by
  induction p generalizing deeds with
  | ret b =>
      constructor
      · exact fun h ↦ ⟨b, [], deeds, rfl, ⟨rfl, rfl⟩, h⟩
      · rintro ⟨b, first, last, rfl, ⟨rfl, rfl⟩, hlast⟩
        exact hlast
  | step writes k ih =>
      constructor
      · rintro ⟨s, rest, rfl, hrest⟩
        obtain ⟨b, first, last, rfl, hfirst, hlast⟩ := (ih s).mp hrest
        exact ⟨b, _, last, rfl, ⟨s, first, rfl, hfirst⟩, hlast⟩
      · rintro ⟨b, first, last, rfl, ⟨s, rest, rfl, hfirst⟩, hlast⟩
        exact ⟨s, rest ++ last, rfl, (ih s).mpr ⟨b, rest, last, rfl, hfirst, hlast⟩⟩
  | ask q k ih =>
      constructor
      · rintro ⟨x, hrest⟩
        obtain ⟨b, first, last, rfl, hfirst, hlast⟩ := (ih x).mp hrest
        exact ⟨b, first, last, rfl, ⟨x, hfirst⟩, hlast⟩
      · rintro ⟨b, first, last, rfl, ⟨x, hfirst⟩, hlast⟩
        exact ⟨x, (ih x).mpr ⟨b, first, last, rfl, hfirst, hlast⟩⟩
  | fork call k ih =>
      constructor
      · rintro ⟨rest, rfl, hrest⟩
        obtain ⟨b, first, last, rfl, hfirst, hlast⟩ := ih.mp hrest
        exact ⟨b, _, last, rfl, ⟨first, rfl, hfirst⟩, hlast⟩
      · rintro ⟨b, first, last, rfl, ⟨rest, rfl, hfirst⟩, hlast⟩
        exact ⟨rest ++ last, rfl, ih.mpr ⟨b, rest, last, rfl, hfirst, hlast⟩⟩
  | lock l k ih => exact ih
  | unlock l k ih => exact ih

@[simp] theorem ends_bind {p : Proc σ ω ℓ π κ ans β} {f : β → Proc σ ω ℓ π κ ans α} :
    (p >>= f).Ends deeds a ↔
      ∃ b first last, deeds = first ++ last ∧ p.Ends first b ∧ (f b).Ends last a := ends_andThen

@[simp] theorem ends_locked {l : ℓ} {p : Proc σ ω ℓ π κ ans α} :
    (locked l p).Ends deeds a ↔ p.Ends deeds a := by
  refine ends_andThen.trans ⟨?_, fun h ↦ ⟨a, deeds, [], (List.append_nil _).symm, h, rfl, rfl⟩⟩
  rintro ⟨b, first, last, rfl, hfirst, rfl, rfl⟩
  rwa [List.append_nil]

/-- The rounds of a loop extend what the earlier rounds have done. -/
theorem ends_fold {I : List (Deed σ ω π) → α → Prop} {bs : List β}
    {f : α → β → Proc σ ω ℓ π κ ans α} {before : List (Deed σ ω π)} {a₀ : α} (h₀ : I before a₀)
    (hround : ∀ b ∈ bs, ∀ before a, I before a → ∀ deeds a', (f a b).Ends deeds a' →
      I (before ++ deeds) a') (h : (fold bs a₀ f).Ends deeds a) : I (before ++ deeds) a := by
  induction bs generalizing before a₀ deeds with
  | nil =>
      obtain ⟨rfl, rfl⟩ := h
      rwa [List.append_nil]
  | cons b bs ih =>
      obtain ⟨a', first, last, rfl, hfirst, hlast⟩ := ends_andThen.mp h
      rw [← List.append_assoc]
      exact ih (hround b List.mem_cons_self before a₀ h₀ first a' hfirst)
        (fun c hc ↦ hround c (List.mem_cons_of_mem b hc)) hlast

def Only (P : Deed σ ω π → Prop) (p : Proc σ ω ℓ π κ ans α) : Prop :=
  ∀ deeds a, p.Ends deeds a → ∀ d ∈ deeds, P d

variable {P : Deed σ ω π → Prop}

theorem only_pure {b : α} : (pure b : Proc σ ω ℓ π κ ans α).Only P := by
  rintro deeds a ⟨rfl, -⟩
  exact List.forall_mem_nil _

theorem only_transact {f : σ → List ω × α} (h : ∀ s, P (.step s (f s).1)) :
    (transact f : Proc σ ω ℓ π κ ans α).Only P := by
  intro deeds a hends
  obtain ⟨s, rfl, -⟩ := ends_transact.mp hends
  exact List.forall_mem_singleton.mpr (h s)

theorem only_read {f : σ → α} (h : ∀ s, P (.step s [])) :
    (read f : Proc σ ω ℓ π κ ans α).Only P := only_transact (f := fun s ↦ ([], f s)) h

theorem only_writeAll {ws : List ω} (h : ∀ s, P (.step s ws)) :
    (writeAll ws : Proc σ ω ℓ π κ ans Unit).Only P := only_transact (f := fun _ ↦ (ws, ())) h

theorem only_bind {p : Proc σ ω ℓ π κ ans β} {f : β → Proc σ ω ℓ π κ ans α} (hp : p.Only P)
    (hf : ∀ b, (f b).Only P) : (p >>= f).Only P := by
  intro deeds a hends
  obtain ⟨b, first, last, rfl, hfirst, hlast⟩ := ends_bind.mp hends
  exact List.forall_mem_append.mpr ⟨hp first b hfirst, hf b last a hlast⟩

theorem only_locked {l : ℓ} {p : Proc σ ω ℓ π κ ans α} (hp : p.Only P) : (locked l p).Only P :=
  fun deeds a hends ↦ hp deeds a (ends_locked.mp hends)

theorem only_when {c : Bool} {p : Proc σ ω ℓ π κ ans Unit} (hp : p.Only P) :
    (when c p).Only P := by
  cases c with
  | false => exact only_pure
  | true => exact hp

def alongside (states : ℕ → σ) (answers : (q : κ) → ans q) :
    Proc σ ω ℓ π κ ans α → ℕ → List (Deed σ ω π) × α
  | ret a, _ => ([], a)
  | step writes k, n =>
      let rest := (k (states n)).alongside states answers (n + 1)
      (.step (states n) (writes (states n)) :: rest.1, rest.2)
  | ask q k, n => (k (answers q)).alongside states answers n
  | fork call k, n =>
      let rest := k.alongside states answers n
      (.start call :: rest.1, rest.2)
  | lock _ k, n => k.alongside states answers n
  | unlock _ k, n => k.alongside states answers n

theorem ends_alongside (states : ℕ → σ) (answers : (q : κ) → ans q) (p : Proc σ ω ℓ π κ ans α)
    (n : ℕ) : p.Ends (p.alongside states answers n).1 (p.alongside states answers n).2 := by
  induction p generalizing n with
  | ret a => exact ⟨rfl, rfl⟩
  | step writes k ih => exact ⟨states n, _, rfl, ih (states n) (n + 1)⟩
  | ask q k ih => exact ⟨answers q, ih (answers q) n⟩
  | fork call k ih => exact ⟨_, rfl, ih n⟩
  | lock l k ih => exact ih n
  | unlock l k ih => exact ih n

end Proc

end SlurmScheduler.Concurrent
