import Mathlib.Data.List.DropRight

namespace SlurmScheduler.Slurm.Text

def isSpace (c : Char) : Bool :=
  let n := c.toNat
  (9 ≤ n && n ≤ 13) || (28 ≤ n && n ≤ 32) || n == 0x85 || n == 0xa0 || n == 0x1680 ||
    (0x2000 ≤ n && n ≤ 0x200a) || n == 0x2028 || n == 0x2029 || n == 0x202f || n == 0x205f ||
    n == 0x3000

/-- The characters at which `str.splitlines` ends a line. -/
def isLineEnd (c : Char) : Bool :=
  let n := c.toNat
  (10 ≤ n && n ≤ 13) || (28 ≤ n && n ≤ 30) || n == 0x85 || n == 0x2028 || n == 0x2029

def linesAfter : List Char → List Char → List (List Char)
  | [], [] => []
  | begun, [] => [begun.reverse]
  | begun, '\r' :: '\n' :: rest => begun.reverse :: linesAfter [] rest
  | begun, c :: rest =>
      if isLineEnd c then begun.reverse :: linesAfter [] rest else linesAfter (c :: begun) rest

def splitLines (text : String) : List (List Char) := linesAfter [] text.toList

/-- `str.strip` -/
def stripChars (text : List Char) : List Char := (text.dropWhile isSpace).rdropWhile isSpace

def strip (text : String) : String := String.ofList (stripChars text.toList)

theorem dropWhile_of_prefix {p : Char → Bool} {text part : List Char}
    (htext : text.dropWhile p = text) (h : part <+: text) : part.dropWhile p = part := by
  cases part with
  | nil => rfl
  | cons c part =>
      obtain ⟨rest, rfl⟩ := h
      cases hc : p c with
      | false => exact List.dropWhile_cons_of_neg (by simp [hc])
      | true =>
          have hlength := congrArg List.length htext
          rw [List.cons_append, List.dropWhile_cons_of_pos hc, List.length_cons] at hlength
          have hle := (List.dropWhile_suffix p (l := part ++ rest)).length_le
          omega

theorem stripChars_idem (text : List Char) : stripChars (stripChars text) = stripChars text := by
  have hdrop := dropWhile_of_prefix (List.dropWhile_idempotent isSpace text)
    (List.rdropWhile_prefix isSpace (text.dropWhile isSpace))
  unfold stripChars
  rw [hdrop, List.rdropWhile_idempotent]

theorem strip_idem (text : String) : strip (strip text) = strip text := by
  unfold strip
  rw [String.toList_ofList, stripChars_idem]

def words (text : List Char) : List (List Char) := (text.splitOnP isSpace).filter (!·.isEmpty)

/-- `re.search` of a word boundary, the key and then `(\S+)`; what precedes the text may be the
end of a word. -/
def searchAfter (isWord : Char → Bool) (key : List Char) (inWord : Bool) :
    List Char → Option (List Char)
  | [] => none
  | c :: rest =>
      let value := ((c :: rest).drop key.length).takeWhile (!isSpace ·)
      if !inWord && key.isPrefixOf (c :: rest) && !value.isEmpty then some value
      else searchAfter isWord key (isWord c) rest

def slicesOf {α : Type} (size : ℕ) : ℕ → List α → List (List α)
  | 0, _ => []
  | _ + 1, [] => []
  | n + 1, a :: as => (a :: as).take size :: slicesOf size n ((a :: as).drop size)

/-- `[xs[i : i + size] for i in range(0, len(xs), size)]` -/
def slices {α : Type} (size : ℕ) (xs : List α) : List (List α) := slicesOf size xs.length xs

theorem flatten_slicesOf {α : Type} {size : ℕ} (hsize : 0 < size) :
    ∀ (n : ℕ) (xs : List α), xs.length ≤ n → (slicesOf size n xs).flatten = xs
  | 0, [], _ => rfl
  | n + 1, [], _ => rfl
  | n + 1, x :: xs, hle => by
    have hrest : ((x :: xs).drop size).length ≤ n := by
      rw [List.length_drop]
      rw [List.length_cons] at hle ⊢
      omega
    rw [slicesOf, List.flatten_cons, flatten_slicesOf hsize n _ hrest, List.take_append_drop]

theorem flatten_slices {α : Type} {size : ℕ} (hsize : 0 < size) (xs : List α) :
    (slices size xs).flatten = xs := flatten_slicesOf hsize xs.length xs le_rfl

theorem slicesOf_bounds {α : Type} {size n : ℕ} (hsize : 0 < size) {xs chunk : List α}
    (h : chunk ∈ slicesOf size n xs) : chunk ≠ [] ∧ chunk.length ≤ size := by
  induction n generalizing xs with
  | zero => cases h
  | succ n ih =>
    cases xs with
    | nil => cases h
    | cons x xs =>
      rw [slicesOf] at h
      obtain rfl | hrest := List.mem_cons.mp h
      · obtain ⟨k, rfl⟩ := Nat.exists_eq_succ_of_ne_zero hsize.ne'
        exact ⟨nofun, List.length_take_le _ _⟩
      · exact ih hrest

example : splitLines "a\r\nb\n\nc" = ["a".toList, "b".toList, [], "c".toList] := by decide

end SlurmScheduler.Slurm.Text
