import Mathlib.Data.List.Basic
import Mathlib.Tactic.Common

namespace SlurmScheduler.Concurrent

variable {σ μ : Type*}

/-- What is reached by moves that are enabled and allowed where they are made. -/
inductive Reached (step : σ → μ → Option σ) (allowed : σ → μ → Prop) (start : σ) : σ → Prop
  | start : Reached step allowed start start
  | step {s s' : σ} {m : μ} (h : Reached step allowed start s) (hallowed : allowed s m)
      (hstep : step s m = some s') : Reached step allowed start s'

variable {step : σ → μ → Option σ} {allowed allowed' : σ → μ → Prop} {start s s' : σ}

theorem Reached.keeps {P : σ → Prop} (h : Reached step allowed start s) (hstart : P start)
    (hstep : ∀ s m s', P s → allowed s m → step s m = some s' → P s') : P s := by
  induction h with
  | start => exact hstart
  | step h hallowed hmove ih => exact hstep _ _ _ ih hallowed hmove

theorem Reached.mono (h : Reached step allowed start s)
    (hallowed : ∀ s m, allowed s m → allowed' s m) : Reached step allowed' start s := by
  induction h with
  | start => exact .start
  | step h hm hmove ih => exact .step ih (hallowed _ _ hm) hmove

theorem Reached.trans (h : Reached step allowed start s) (h' : Reached step allowed s s') :
    Reached step allowed start s' := by
  induction h' with
  | start => exact h
  | step h' hm hmove ih => exact .step ih hm hmove

def afterMoves (step : σ → μ → Option σ) (start : σ) (moves : List μ) : Option σ :=
  moves.foldlM step start

theorem reached_of_afterMoves {moves : List μ} (h : afterMoves step start moves = some s)
    (hallowed : ∀ m ∈ moves, ∀ s, allowed s m) : Reached step allowed start s := by
  induction moves generalizing start with
  | nil =>
    cases h
    exact .start
  | cons m moves ih =>
    obtain ⟨s', hstep, hrest⟩ := Option.bind_eq_some_iff.mp h
    have hfirst : Reached step allowed start s' :=
      .step .start (hallowed m List.mem_cons_self start) hstep
    exact hfirst.trans (ih hrest fun m' hm' ↦ hallowed m' (List.mem_cons_of_mem m hm'))

theorem reached_of_guarded {ok : σ → μ → Bool} {moves : List μ}
    (h : afterMoves (fun s m ↦ if ok s m then step s m else none) start moves = some s) :
    Reached step (fun s m ↦ ok s m = true) start s := by
  induction moves generalizing start with
  | nil =>
    cases h
    exact .start
  | cons m moves ih =>
    obtain ⟨s', hstep, hrest⟩ := Option.bind_eq_some_iff.mp h
    obtain ⟨hok, hmove⟩ := Option.ite_none_right_eq_some.mp hstep
    have hfirst : Reached step (fun s m ↦ ok s m = true) start s' := .step .start hok hmove
    exact hfirst.trans (ih hrest)

/-- A run that can be evaluated reaches a state of which `p` holds. -/
theorem exists_reached {p : σ → Bool} {ok : σ → μ → Bool} {moves : List μ}
    (h : (afterMoves (fun s m ↦ if ok s m then step s m else none) start moves).any p = true) :
    ∃ s, Reached step (fun s m ↦ ok s m = true) start s ∧ p s = true := by
  obtain ⟨s, hs, hp⟩ := (Option.any_eq_true _ _).mp h
  exact ⟨s, reached_of_guarded hs, hp⟩

section Positions

variable {α : Type*} {l : List α} {i j : ℕ} {a b c : α}

theorem getElem?_set_cases (h : (l.set i a)[j]? = some b) :
    (j = i ∧ b = a) ∨ (j ≠ i ∧ l[j]? = some b) := by
  by_cases hji : j = i
  · subst hji
    obtain ⟨hlt, hb⟩ := List.getElem?_eq_some_iff.mp h
    rw [List.getElem_set_self] at hb
    exact .inl ⟨rfl, hb.symm⟩
  · rw [List.getElem?_set_ne (Ne.symm hji)] at h
    exact .inr ⟨hji, h⟩

theorem getElem?_set_self_of (h : l[i]? = some b) : (l.set i a)[i]? = some a := by
  obtain ⟨hlt, -⟩ := List.getElem?_eq_some_iff.mp h
  rw [List.getElem?_set_self hlt]

theorem set_of_getElem? (h : l[i]? = some a) : l.set i a = l := by
  obtain ⟨hlt, rfl⟩ := List.getElem?_eq_some_iff.mp h
  exact List.set_getElem_self hlt

theorem modify_of_getElem? {f : α → α} (h : l[i]? = some a) : l.modify i f = l.set i (f a) := by
  apply List.ext_getElem?
  intro j
  rw [List.getElem?_modify, List.getElem?_set]
  obtain ⟨hlt, rfl⟩ := List.getElem?_eq_some_iff.mp h
  by_cases hij : i = j
  · subst hij
    simp [hlt]
  · simp [hij]

theorem modify_of_none {f : α → α} (h : l[i]? = none) : l.modify i f = l :=
  List.modify_eq_self (List.getElem?_eq_none_iff.mp h)

theorem getElem?_concat_cases (h : (l ++ [a])[j]? = some b) :
    (j = l.length ∧ b = a) ∨ l[j]? = some b := by
  rw [List.getElem?_append] at h
  split at h
  · exact .inr h
  · obtain ⟨hlt, hb⟩ := List.getElem?_eq_some_iff.mp h
    rw [List.length_singleton] at hlt
    rw [List.getElem_singleton] at hb
    exact .inl ⟨by omega, hb.symm⟩

theorem getElem?_concat_of (h : l[j]? = some b) : (l ++ [a])[j]? = some b := by
  obtain ⟨hlt, -⟩ := List.getElem?_eq_some_iff.mp h
  rw [List.getElem?_append_left hlt, h]

theorem getElem?_concat_length : (l ++ [a])[l.length]? = some a := by simp

end Positions

end SlurmScheduler.Concurrent
