import Mathlib.Tactic

namespace SlurmScheduler.Relational

universe u

variable {κ : Type u} [DecidableEq κ]

def fill (free total : κ → ℕ) (taken : κ → ℕ) (visit : κ × ℕ) : κ → ℕ :=
  Function.update taken visit.1
    (taken visit.1 + min (min (free visit.1) (total visit.1 - taken visit.1)) visit.2)

def needsAt (k : κ) (visits : List (κ × ℕ)) : List ℕ := (visits.filter (·.1 = k)).map (·.2)

/-- What a place has taken in the end: the bound, or every need cut off at what is free. -/
theorem foldl_fill {free total taken : κ → ℕ} {k : κ} (visits : List (κ × ℕ)) (h : taken k ≤ total k) :
    visits.foldl (fill free total) taken k =
      min (total k) (taken k + ((needsAt k visits).map (min (free k))).sum) := by
  induction visits generalizing taken with
  | nil => exact (min_eq_right h).symm
  | cons visit visits ih =>
      obtain ⟨j, need⟩ := visit
      by_cases hj : j = k
      · subst hj
        have hhere : fill free total taken (j, need) j =
            taken j + min (min (free j) (total j - taken j)) need := Function.update_self ..
        have hbound : fill free total taken (j, need) j ≤ total j := by omega
        have hneeds : needsAt j ((j, need) :: visits) = need :: needsAt j visits := by
          simp [needsAt]
        rw [List.foldl_cons, ih hbound, hhere, hneeds, List.map_cons, List.sum_cons]
        omega
      · have hhere : fill free total taken (j, need) k = taken k :=
          Function.update_of_ne (Ne.symm hj) ..
        have hneeds : needsAt k ((j, need) :: visits) = needsAt k visits := by
          simp [needsAt, hj]
        rw [List.foldl_cons, ih (hhere.trans_le h), hhere, hneeds]

theorem filled_le_total (free total : κ → ℕ) (visits : List (κ × ℕ)) (k : κ) :
    visits.foldl (fill free total) (fun _ ↦ 0) k ≤ total k := by
  rw [foldl_fill visits (Nat.zero_le _)]
  exact min_le_left _ _

/-- A place has taken no more than it has free, exactly if its bound is no higher or the needs that
came to it do not add up to more. -/
theorem filled_le_free_iff (free total : κ → ℕ) (visits : List (κ × ℕ)) (k : κ) :
    visits.foldl (fill free total) (fun _ ↦ 0) k ≤ free k ↔
      total k ≤ free k ∨ ((needsAt k visits).map (min (free k))).sum ≤ free k := by
  rw [foldl_fill visits (Nat.zero_le _), min_le_iff, Nat.zero_add]

end SlurmScheduler.Relational
