import Mathlib.Algebra.Order.Group.Multiset
import Mathlib.Logic.Relation
import Mathlib.Tactic.Common

namespace SlurmScheduler

structure Batch (α : Type) where
  waiting : List α
  busy : Multiset α
  done : Multiset α

namespace Batch

variable {α : Type} {s t : Batch α}

inductive Step : Batch α → Batch α → Prop
  | start (a : α) (waiting : List α) (busy done : Multiset α) :
      Step ⟨a :: waiting, busy, done⟩ ⟨waiting, a ::ₘ busy, done⟩
  | finish (a : α) (waiting : List α) (busy done : Multiset α) :
      Step ⟨waiting, a ::ₘ busy, done⟩ ⟨waiting, busy, a ::ₘ done⟩

abbrev Steps : Batch α → Batch α → Prop := Relation.ReflTransGen Step

def total (s : Batch α) : Multiset α := s.waiting + s.busy + s.done

def started (s : Batch α) : Multiset α := s.busy + s.done

def Complete (s : Batch α) : Prop := s.waiting = [] ∧ s.busy = 0

def weight (s : Batch α) : ℕ := 2 * s.waiting.length + s.busy.card

theorem total_eq_waiting (s : Batch α) : s.total = s.waiting + s.started := by
  rw [total, started, add_assoc]

theorem Step.total_eq (h : Step s t) : t.total = s.total := by
  cases h with
  | start a waiting busy done =>
    simp only [total, ← Multiset.cons_coe, Multiset.cons_add, Multiset.add_cons]
  | finish a waiting busy done =>
    simp only [total, Multiset.cons_add, Multiset.add_cons]

theorem Step.weight_lt (h : Step s t) : t.weight < s.weight := by
  cases h with
  | start a waiting busy done =>
    simp only [weight, List.length_cons, Multiset.card_cons]
    omega
  | finish a waiting busy done =>
    simp only [weight, Multiset.card_cons]
    omega

namespace Steps

theorem total_eq (h : Steps s t) : t.total = s.total := by
  induction h with
  | refl => rfl
  | tail _ hstep ih => exact hstep.total_eq.trans ih

theorem weight_le (h : Steps s t) : t.weight ≤ s.weight := by
  induction h with
  | refl => exact le_rfl
  | tail _ hstep ih => exact hstep.weight_lt.le.trans ih

theorem weight_lt (h : Steps s t) (hne : t ≠ s) : t.weight < s.weight := by
  rcases Relation.ReflTransGen.cases_head h with heq | ⟨u, hstep, hrest⟩
  · exact absurd heq.symm hne
  · exact (weight_le hrest).trans_lt hstep.weight_lt

theorem eq_of_back (h : Steps s t) (hback : Steps t s) : t = s := by
  by_contra hne
  exact absurd (h.weight_lt hne) (not_lt.mpr (weight_le hback))

theorem done_complete (h : Steps s t) (hidle : s.started = 0) (hcomplete : t.Complete) :
    t.done = s.waiting := by
  have htotal : t.total = s.total := total_eq h
  rw [s.total_eq_waiting, hidle, add_zero, total, hcomplete.1, hcomplete.2, Multiset.coe_nil,
    zero_add, zero_add] at htotal
  exact htotal

end Steps

/-- A batch that moves on as long as it is not complete is complete in the end. -/
theorem eventually_complete (f : ℕ → Batch α) (hsteps : ∀ n, Steps (f n) (f (n + 1)))
    (hmoves : ∀ n, ¬ (f n).Complete → ∃ m, n ≤ m ∧ f m ≠ f n) : ∃ n, (f n).Complete := by
  have hrun : ∀ n m, n ≤ m → Steps (f n) (f m) := fun n m hle ↦
    Nat.le_induction .refl (fun m _ ih ↦ ih.trans (hsteps m)) m hle
  by_contra hnever
  have hless : ∀ n, ∃ m, (f m).weight < (f n).weight := by
    intro n
    obtain ⟨m, hle, hne⟩ := hmoves n fun h ↦ hnever ⟨n, h⟩
    exact ⟨m, (hrun n m hle).weight_lt hne⟩
  -- the weights would fall for ever
  have hfall : ∀ w n, (f n).weight ≠ w := by
    intro w
    induction w using Nat.strong_induction_on with
    | _ w ih =>
      rintro n rfl
      obtain ⟨m, hm⟩ := hless n
      exact ih _ hm m rfl
  exact hfall _ 0 rfl

end Batch

end SlurmScheduler
