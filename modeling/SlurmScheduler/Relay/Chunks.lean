import SlurmScheduler.Relay.Checks

namespace SlurmScheduler.Relay

open Http

structure Delivers (waiting : List ℕ) (stream : Octets) : Prop where
  positive : ∀ n ∈ waiting, 0 < n
  enough : stream.length ≤ waiting.length

theorem delivers_ones (stream : Octets) : Delivers (List.replicate stream.length 1) stream :=
  ⟨fun n hn ↦ by rw [List.eq_of_mem_replicate hn]; exact Nat.one_pos, by simp⟩

section Fill

variable {mark whole before after : Octets} {limit : ℕ}

/-- The loop goes on as long as the mark has not been received. -/
theorem not_filled (hcut : cutAt mark whole = some (before, after)) (hm : mark ≠ [])
    (hlimit : before.length + mark.length ≤ limit) {k : ℕ}
    (hk : k < before.length + mark.length) :
    ((cutAt mark (whole.take k)).isSome || decide (limit < (whole.take k).length)) = false := by
  have hl : (whole.take k).length ≤ k := List.length_take_le k whole
  have hnot : ¬ (cutAt mark (whole.take k)).isSome := by
    rw [cutAt_isSome_iff hcut (List.take_prefix k whole) hm]
    omega
  simp only [Bool.or_eq_false_iff, decide_eq_false_iff_not]
  exact ⟨by simpa using hnot, by omega⟩

theorem filled (hcut : cutAt mark whole = some (before, after)) (hm : mark ≠ []) {k : ℕ}
    (hk : before.length + mark.length ≤ k) :
    ((cutAt mark (whole.take k)).isSome || decide (limit < (whole.take k).length)) = true := by
  have hw := length_of_cutAt hcut
  rw [Bool.or_eq_true]
  left
  rw [cutAt_isSome_iff hcut (List.take_prefix k whole) hm, List.length_take]
  omega

theorem fill_chunk (hcut : cutAt mark whole = some (before, after)) (hm : mark ≠ [])
    (hlimit : before.length + mark.length ≤ limit) {k n : ℕ} (waiting : List ℕ)
    (hk : k < before.length + mark.length) (hn : 0 < n) :
    fill mark limit (whole.take k) (whole.drop k) (n :: waiting) =
      fill mark limit (whole.take (k + min 4096 n)) (whole.drop (k + min 4096 n)) waiting := by
  have hw := length_of_cutAt hcut
  have hchunk : ((whole.drop k).take (min 4096 n)).isEmpty = false := by
    rw [List.isEmpty_eq_false_iff]
    intro h
    have := congrArg List.length h
    simp only [List.length_take, List.length_drop, List.length_nil] at this
    omega
  rw [fill, not_filled hcut hm hlimit hk]
  simp only [Bool.false_eq_true, if_false, hchunk]
  rw [← List.take_add]
  congr 1
  rw [List.length_take, List.drop_drop]
  by_cases hlong : min 4096 n ≤ (whole.drop k).length
  · rw [Nat.min_eq_left hlong]
  · rw [List.length_drop] at hlong ⊢
    rw [List.drop_eq_nil_of_le (by omega), List.drop_eq_nil_of_le (by omega)]

theorem fill_filled (hcut : cutAt mark whole = some (before, after)) (hm : mark ≠ []) {k : ℕ}
    (waiting : List ℕ) (hk : before.length + mark.length ≤ k) :
    fill mark limit (whole.take k) (whole.drop k) waiting =
      some (whole.take k, ⟨whole.drop k, waiting⟩) := by
  cases waiting with
  | nil => rw [fill, if_pos (filled hcut hm hk)]
  | cons n waiting => rw [fill, if_pos (filled hcut hm hk)]

theorem fill_ones (hcut : cutAt mark whole = some (before, after)) (hm : mark ≠ [])
    (hlimit : before.length + mark.length ≤ limit) (waiting : List ℕ) (d : ℕ) {k : ℕ}
    (hk : k + d ≤ before.length + mark.length) :
    fill mark limit (whole.take k) (whole.drop k) (List.replicate d 1 ++ waiting) =
      fill mark limit (whole.take (k + d)) (whole.drop (k + d)) waiting := by
  induction d generalizing k with
  | zero => rfl
  | succ d ih =>
    rw [List.replicate_succ, List.cons_append,
      fill_chunk hcut hm hlimit _ (by omega) Nat.one_pos, ih (by omega)]
    congr 2 <;> omega

/-- Whatever the chunks, the loop ends with the mark and at most one chunk too much. -/
theorem fill_delivered (hcut : cutAt mark whole = some (before, after)) (hm : mark ≠ [])
    (hlimit : before.length + mark.length ≤ limit) {bound : ℕ}
    (hbound : min whole.length (before.length + mark.length + 4095) ≤ bound)
    {waiting : List ℕ} {k : ℕ} (hk : (whole.take k).length ≤ bound)
    (hd : Delivers waiting (whole.drop k)) :
    ∃ k' waiting', fill mark limit (whole.take k) (whole.drop k) waiting =
        some (whole.take k', ⟨whole.drop k', waiting'⟩) ∧
      before.length + mark.length ≤ (whole.take k').length ∧ (whole.take k').length ≤ bound ∧
      Delivers waiting' (whole.drop k') := by
  have hw := length_of_cutAt hcut
  induction waiting generalizing k with
  | nil =>
    have hle := hd.enough
    rw [List.length_drop, List.length_nil] at hle
    refine ⟨k, [], fill_filled hcut hm [] (by omega), ?_, hk, hd⟩
    rw [List.length_take]
    omega
  | cons n waiting ih =>
    by_cases hdone : before.length + mark.length ≤ k
    · refine ⟨k, n :: waiting, fill_filled hcut hm _ hdone, ?_, hk, hd⟩
      rw [List.length_take]
      omega
    · have hn : 0 < n := hd.positive n (by simp)
      rw [fill_chunk hcut hm hlimit waiting (by omega) hn]
      apply ih
      · rw [List.length_take]
        omega
      · refine ⟨fun m hm' ↦ hd.positive m (by simp [hm']), ?_⟩
        have hle := hd.enough
        rw [List.length_drop, List.length_cons] at hle
        rw [List.length_drop]
        omega

end Fill

theorem sendBody_delivered {remaining : ℕ} {sent pending : Octets} {waiting : List ℕ}
    (hd : Delivers waiting pending) :
    sendBody remaining sent pending waiting = sent ++ pending.take remaining := by
  induction waiting generalizing remaining sent pending with
  | nil =>
    have hle := hd.enough
    rw [List.length_nil, Nat.le_zero, List.length_eq_zero_iff] at hle
    simp [sendBody, hle]
  | cons n waiting ih =>
    rw [sendBody]
    split
    · next hz => simp [hz]
    · next hz =>
      have hn : 0 < n := hd.positive n (by simp)
      dsimp only
      split
      · next hempty =>
        rw [List.isEmpty_iff, List.take_eq_nil_iff] at hempty
        have hp : pending = [] := by
          rcases hempty with h | h
          · omega
          · exact h
        simp [hp]
      · set chunk := pending.take (min (min 65536 remaining) n) with hchunk
        have hpre : pending.take chunk.length = chunk :=
          (List.prefix_iff_eq_take.mp (hchunk ▸ List.take_prefix _ _)).symm
        have hl : chunk.length = min (min (min 65536 remaining) n) pending.length := by
          rw [hchunk, List.length_take]
        have hd' : Delivers waiting (pending.drop chunk.length) := by
          refine ⟨fun m hm ↦ hd.positive m (by simp [hm]), ?_⟩
          have hle := hd.enough
          rw [List.length_cons] at hle
          rw [List.length_drop]
          omega
        rw [ih hd', List.append_assoc]
        have hsplit : pending.take remaining =
            pending.take (chunk.length + (remaining - chunk.length)) := by
          congr 1
          omega
        rw [hsplit, List.take_add, hpre]

end SlurmScheduler.Relay
