import Mathlib.Tactic

namespace SlurmScheduler.Relational

inductive Wildcard
  | many
  | one
  | letter (c : Char)
  deriving DecidableEq, Repr

def wildcards (escape : Char) : List Char → Option (List Wildcard)
  | [] => some []
  | [c] =>
      if c = escape then none
      else some [if c = '%' then .many else if c = '_' then .one else .letter c]
  | c :: d :: cs =>
      if c = escape then (wildcards escape cs).map (.letter d :: ·)
      else (wildcards escape (d :: cs)).map
        ((if c = '%' then .many else if c = '_' then .one else .letter c) :: ·)

def fits : List Wildcard → List Char → Bool
  | [], text => text.isEmpty
  | .many :: ps, text => text.tails.any (fits ps)
  | .one :: ps, text => match text with
    | [] => false
    | _ :: cs => fits ps cs
  | .letter p :: ps, text => match text with
    | [] => false
    | c :: cs => c.toLower == p.toLower && fits ps cs

/-- `text LIKE pattern ESCAPE escape` -/
def like (escape : Char) (pattern text : List Char) : Bool :=
  (wildcards escape pattern).any (fits · text)

def foldCase (text : List Char) : List Char := text.map Char.toLower

theorem foldCase_append (a b : List Char) : foldCase (a ++ b) = foldCase a ++ foldCase b :=
  List.map_append

def replaceChar (c : Char) (by' text : List Char) : List Char :=
  text.flatMap fun x ↦ if x = c then by' else [x]

def escapeLike (needle : List Char) : List Char :=
  replaceChar '_' ['\\', '_'] (replaceChar '%' ['\\', '%'] (replaceChar '\\' ['\\', '\\'] needle))

theorem escapeLike_cons (c : Char) (cs : List Char) :
    escapeLike (c :: cs) =
      (if c = '\\' ∨ c = '%' ∨ c = '_' then ['\\', c] else [c]) ++ escapeLike cs := by
  unfold escapeLike replaceChar
  simp only [List.flatMap_cons, List.flatMap_append]
  by_cases hb : c = '\\'
  · subst hb
    rfl
  · by_cases hm : c = '%'
    · subst hm
      rfl
    · by_cases ho : c = '_'
      · subst ho
        rfl
      · simp [hb, hm, ho]

theorem wildcards_escapeLike (needle rest : List Char) :
    wildcards '\\' (escapeLike needle ++ rest) =
      (wildcards '\\' rest).map (needle.map .letter ++ ·) := by
  induction needle with
  | nil => simp [escapeLike, replaceChar]
  | cons c cs ih =>
    rw [escapeLike_cons, List.append_assoc]
    by_cases hc : c = '\\' ∨ c = '%' ∨ c = '_'
    · rw [if_pos hc]
      change wildcards '\\' ('\\' :: c :: (escapeLike cs ++ rest)) = _
      rw [wildcards, if_pos rfl, ih, Option.map_map]
      rfl
    · rw [if_neg hc]
      push Not at hc
      obtain ⟨hb, hm, ho⟩ := hc
      have hstep : wildcards '\\' (c :: (escapeLike cs ++ rest)) =
          (wildcards '\\' (escapeLike cs ++ rest)).map (.letter c :: ·) := by
        cases escapeLike cs ++ rest with
        | nil => simp [wildcards, hb, hm, ho]
        | cons d ds => rw [wildcards, if_neg hb, if_neg hm, if_neg ho]
      change wildcards '\\' (c :: (escapeLike cs ++ rest)) = _
      rw [hstep, ih, Option.map_map]
      rfl

theorem fits_letters {needle : List Char} {ps : List Wildcard} {text : List Char} :
    fits (needle.map .letter ++ ps) text = true ↔
      ∃ first rest, text = first ++ rest ∧ foldCase first = foldCase needle ∧ fits ps rest = true := by
  induction needle generalizing text with
  | nil =>
    constructor
    · intro h
      exact ⟨[], text, rfl, rfl, h⟩
    · intro h
      obtain ⟨first, rest, rfl, hfirst, h⟩ := h
      have hnil : first = [] := by simpa [foldCase] using hfirst
      subst hnil
      exact h
  | cons p needle ih =>
    cases text with
    | nil =>
      constructor
      · intro h
        cases h
      · intro h
        obtain ⟨first, rest, htext, hfirst, -⟩ := h
        have hnil : first = [] := (List.append_eq_nil_iff.mp htext.symm).1
        subst hnil
        cases hfirst
    | cons c cs =>
      simp only [List.map_cons, List.cons_append, fits, Bool.and_eq_true, beq_iff_eq, ih]
      constructor
      · intro h
        obtain ⟨hc, first, rest, rfl, hfirst, h⟩ := h
        exact ⟨c :: first, rest, rfl, List.cons_eq_cons.mpr ⟨hc, hfirst⟩, h⟩
      · intro h
        obtain ⟨first, rest, htext, hfirst, h⟩ := h
        cases first with
        | nil => cases hfirst
        | cons d first =>
          rw [List.cons_append, List.cons.injEq] at htext
          obtain ⟨rfl, rfl⟩ := htext
          simp only [foldCase, List.map_cons, List.cons.injEq] at hfirst
          exact ⟨hfirst.1, first, rest, rfl, hfirst.2, h⟩

theorem fits_many (text : List Char) : fits [.many] text = true :=
  List.any_eq_true.mpr ⟨[], (List.mem_tails _ _).mpr (List.nil_suffix), rfl⟩

theorem fits_letters_many {needle text : List Char} :
    fits (needle.map .letter ++ [.many]) text = true ↔ foldCase needle <+: foldCase text := by
  rw [fits_letters]
  constructor
  · intro h
    obtain ⟨first, rest, rfl, hfirst, -⟩ := h
    exact ⟨foldCase rest, by rw [foldCase_append, hfirst]⟩
  · intro h
    obtain ⟨rest, hrest⟩ := h
    obtain ⟨first, rest', rfl, hfirst, -⟩ := List.map_eq_append_iff.mp hrest.symm
    exact ⟨first, rest', rfl, hfirst, fits_many rest'⟩

theorem like_startsWith {needle text : List Char} :
    like '\\' (escapeLike needle ++ ['%']) text = true ↔ foldCase needle <+: foldCase text := by
  rw [like, wildcards_escapeLike]
  exact fits_letters_many

theorem like_contains {needle text : List Char} :
    like '\\' ('%' :: (escapeLike needle ++ ['%'])) text = true ↔
      foldCase needle <:+: foldCase text := by
  have hparts : wildcards '\\' ('%' :: (escapeLike needle ++ ['%'])) =
      some (.many :: (needle.map .letter ++ [.many])) := by
    have hcons : ∃ d ds, escapeLike needle ++ ['%'] = d :: ds :=
      List.exists_cons_of_ne_nil (by simp)
    obtain ⟨d, ds, hd⟩ := hcons
    have htail := wildcards_escapeLike needle ['%']
    rw [hd] at htail ⊢
    rw [wildcards, if_neg (by decide), if_pos rfl, htail]
    rfl
  rw [like, hparts, Option.any_some, fits, List.any_eq_true]
  constructor
  · intro h
    obtain ⟨rest, hrest, h⟩ := h
    obtain ⟨first, rfl⟩ := (List.mem_tails _ _).mp hrest
    rw [foldCase_append]
    exact (fits_letters_many.mp h).isInfix.trans (List.suffix_append _ _).isInfix
  · intro h
    obtain ⟨first, last, hfold⟩ := h
    obtain ⟨first', rest, rfl, -, hrest⟩ := List.map_eq_append_iff.mp
      (hfold.symm.trans (List.append_assoc _ _ _))
    exact ⟨rest, (List.mem_tails _ _).mpr (List.suffix_append _ _),
      fits_letters_many.mpr ⟨last, hrest.symm⟩⟩

example : like '\\' (escapeLike "a_b".toList ++ ['%']) "A_Bc".toList = true ∧
    like '\\' (escapeLike "a_b".toList ++ ['%']) "aXbc".toList = false := by decide

end SlurmScheduler.Relational
