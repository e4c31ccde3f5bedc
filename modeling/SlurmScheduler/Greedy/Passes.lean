import Mathlib.Data.List.Basic
import Mathlib.Tactic.Common

namespace SlurmScheduler.Greedy

structure Pass (σ ρ δ : Type) where
  choose : σ → ρ → Option δ
  apply : σ → δ → σ

namespace Pass

variable {σ ρ δ : Type} (p : Pass σ ρ δ)

def settle (s : σ) (d : Option δ) : σ := d.elim s (p.apply s)

def run : σ → List ρ → σ
  | s, [] => s
  | s, r :: rs => run (p.settle s (p.choose s r)) rs

def log : σ → List ρ → List (ρ × Option δ)
  | _, [] => []
  | s, r :: rs => (r, p.choose s r) :: log (p.settle s (p.choose s r)) rs

/-- The requests of a kind that are granted, up to the first that is not and the first of another
kind that is -/
def served (kind : ρ → Bool) : σ → List ρ → List ρ
  | _, [] => []
  | s, r :: rs =>
      match kind r, p.choose s r with
      | true, some d => r :: served kind (p.apply s d) rs
      | false, none => served kind s rs
      | _, _ => []

variable {p} {s s' : σ} {r : ρ} {rs : List ρ} {d : δ} {kind : ρ → Bool}

@[simp] theorem settle_none : p.settle s none = s := rfl

@[simp] theorem settle_some : p.settle s (some d) = p.apply s d := rfl

@[simp] theorem run_nil : p.run s [] = s := rfl

@[simp] theorem run_cons : p.run s (r :: rs) = p.run (p.settle s (p.choose s r)) rs := rfl

@[simp] theorem log_nil : p.log s [] = [] := rfl

@[simp] theorem log_cons :
    p.log s (r :: rs) = (r, p.choose s r) :: p.log (p.settle s (p.choose s r)) rs := rfl

theorem served_granted (hkind : kind r = true) (h : p.choose s r = some d) :
    p.served kind s (r :: rs) = r :: p.served kind (p.apply s d) rs := by
  rw [served, hkind, h]

theorem served_skipped (hkind : kind r = false) (h : p.choose s r = none) :
    p.served kind s (r :: rs) = p.served kind s rs := by
  rw [served, hkind, h]

theorem served_refused (hkind : kind r = true) (h : p.choose s r = none) :
    p.served kind s (r :: rs) = [] := by
  rw [served, hkind, h]

theorem served_taken (hkind : kind r = false) (h : p.choose s r = some d) :
    p.served kind s (r :: rs) = [] := by
  rw [served, hkind, h]

/-- The requests that are served are the first ones of their kind. -/
theorem served_prefix (kind : ρ → Bool) (s : σ) (rs : List ρ) : p.served kind s rs <+: rs.filter kind := by
  induction rs generalizing s with
  | nil => exact List.prefix_refl []
  | cons r rs ih =>
    cases hkind : kind r with
    | true =>
      rw [List.filter_cons_of_pos hkind]
      cases h : p.choose s r with
      | some d =>
        rw [served_granted hkind h]
        exact List.cons_prefix_cons.mpr ⟨rfl, ih _⟩
      | none =>
        rw [served_refused hkind h]
        exact List.nil_prefix
    | false =>
      rw [List.filter_cons_of_neg (by rw [hkind]; exact Bool.false_ne_true)]
      cases h : p.choose s r with
      | some d =>
        rw [served_taken hkind h]
        exact List.nil_prefix
      | none =>
        rw [served_skipped hkind h]
        exact ih s

/-- Whatever applies what the pass grants ends where the pass does. -/
theorem foldl_served {γ : Type} {f : γ → ρ → γ} (view : σ → γ)
    (h : ∀ s r d, p.choose s r = some d → f (view s) r = view (p.apply s d)) (s : σ) (rs : List ρ) :
    (p.served kind s rs).foldl f (view s) = view (p.run s (p.served kind s rs)) := by
  induction rs generalizing s with
  | nil => rfl
  | cons r rs ih =>
    cases hkind : kind r with
    | true =>
      cases hchoose : p.choose s r with
      | some d =>
        rw [served_granted hkind hchoose, List.foldl_cons, h s r d hchoose, ih, run_cons, hchoose,
          settle_some]
      | none =>
        rw [served_refused hkind hchoose]
        rfl
    | false =>
      cases hchoose : p.choose s r with
      | some d =>
        rw [served_taken hkind hchoose]
        rfl
      | none =>
        rw [served_skipped hkind hchoose]
        exact ih s

structure Blind (p : Pass σ ρ δ) (R : σ → σ → Prop) : Prop where
  choose : ∀ s s' r, R s s' → p.choose s r = p.choose s' r
  apply : ∀ s s' d, R s s' → R (p.apply s d) (p.apply s' d)

section Blind

variable {R : σ → σ → Prop}

theorem Blind.settle (h : p.Blind R) (hs : R s s') (d : Option δ) :
    R (p.settle s d) (p.settle s' d) := by
  cases d with
  | none => exact hs
  | some d => exact h.apply s s' d hs

theorem Blind.log_eq (h : p.Blind R) (hs : R s s') (rs : List ρ) : p.log s rs = p.log s' rs := by
  induction rs generalizing s s' with
  | nil => rfl
  | cons r rs ih =>
    rw [log_cons, log_cons, h.choose s s' r hs, ih (h.settle hs (p.choose s' r))]

end Blind

end Pass

end SlurmScheduler.Greedy
