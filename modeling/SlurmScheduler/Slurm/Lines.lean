import Mathlib.Data.List.Basic
import Mathlib.Data.List.Forall2
import Mathlib.Tactic.Common
import SlurmScheduler.Slurm.Text

namespace SlurmScheduler.Slurm.Text

theorem isLineEnd_newline : isLineEnd '\n' = true := by decide

theorem isLineEnd_return : isLineEnd '\r' = true := by decide

theorem linesAfter_nil (begun : List Char) :
    linesAfter begun [] = if begun = [] then [] else [begun.reverse] := by
  cases begun with
  | nil => rfl
  | cons c begun => rfl

theorem linesAfter_crlf (begun rest : List Char) :
    linesAfter begun ('\r' :: '\n' :: rest) = begun.reverse :: linesAfter [] rest := by
  rw [linesAfter]

theorem linesAfter_cons {begun rest : List Char} {c : Char}
    (h : c = '\r' → rest.head? ≠ some '\n') : linesAfter begun (c :: rest) =
      if isLineEnd c then begun.reverse :: linesAfter [] rest else linesAfter (c :: begun) rest := by
  rw [linesAfter]
  intro rest' hc hrest
  rw [hrest] at h
  exact h hc rfl

theorem linesAfter_newline (begun rest : List Char) :
    linesAfter begun ('\n' :: rest) = begun.reverse :: linesAfter [] rest := by
  rw [linesAfter_cons (by intro h; cases h), if_pos isLineEnd_newline]

/-- A carriage return and a newline, or a character that is no carriage return before one -/
theorem crlf_cases (c : Char) (text : List Char) :
    (c = '\r' ∧ ∃ rest, text = '\n' :: rest) ∨ (c = '\r' → text.head? ≠ some '\n') := by
  by_cases hc : c = '\r'
  · cases text with
    | nil => exact .inr fun _ h ↦ by cases h
    | cons d rest =>
      by_cases hd : d = '\n'
      · exact .inl ⟨hc, rest, by rw [hd]⟩
      · exact .inr fun _ h ↦ hd (Option.some.inj h)
  · exact .inr fun h ↦ absurd h hc

theorem linesAfter_append_newline (begun text rest : List Char) :
    linesAfter begun (text ++ '\n' :: rest) =
      linesAfter begun (text ++ ['\n']) ++ linesAfter [] rest := by
  induction hn : text.length using Nat.strong_induction_on generalizing begun text with
  | _ n ih =>
    subst hn
    cases text with
    | nil =>
      rw [List.nil_append, List.nil_append, linesAfter_newline, linesAfter_newline]
      rfl
    | cons c text =>
      rw [List.cons_append, List.cons_append]
      rcases crlf_cases c text with ⟨hc, text', htext⟩ | hplain
      · subst hc htext
        have hlt : text'.length < ('\r' :: '\n' :: text').length := by
          simp only [List.length_cons]
          omega
        have htail := ih text'.length hlt [] text' rfl
        rw [List.cons_append, List.cons_append, linesAfter_crlf, linesAfter_crlf, htail]
        rfl
      · cases text with
        | nil =>
          rw [List.nil_append, List.nil_append]
          by_cases hc : c = '\r'
          · subst hc
            rw [linesAfter_crlf, linesAfter_crlf]
            rfl
          · rw [linesAfter_cons fun h ↦ absurd h hc, linesAfter_cons fun h ↦ absurd h hc,
              linesAfter_newline, linesAfter_newline, linesAfter_newline]
            split
            all_goals rfl
        | cons d text =>
          have htail := fun begun ↦ ih (d :: text).length (by simp) begun (d :: text) rfl
          have hhead : ∀ tail, c = '\r' → (d :: text ++ tail).head? ≠ some '\n' := fun _ ↦ hplain
          rw [linesAfter_cons (hhead _), linesAfter_cons (hhead _), htail, htail]
          split
          all_goals rfl

theorem linesAfter_plain {text : List Char} (h : ∀ c ∈ text, isLineEnd c = false)
    (begun rest : List Char) :
    linesAfter begun (text ++ rest) = linesAfter (text.reverse ++ begun) rest := by
  induction text generalizing begun with
  | nil => rfl
  | cons c text ih =>
    have hc := h c List.mem_cons_self
    have hreturn : c ≠ '\r' := by
      intro heq
      rw [heq, isLineEnd_return] at hc
      cases hc
    rw [List.cons_append, linesAfter_cons fun h ↦ absurd h hreturn, hc, if_neg Bool.false_ne_true,
      ih fun d hd ↦ h d (List.mem_cons_of_mem c hd), List.reverse_cons, List.append_assoc]
    rfl

/-- A line end within a line makes another line of what follows it. -/
theorem two_le_length_linesAfter {text : List Char} (hend : ∃ c ∈ text, isLineEnd c = true)
    (hreturn : '\r' ∉ text) (begun : List Char) :
    2 ≤ (linesAfter begun (text ++ ['\n'])).length := by
  induction text generalizing begun with
  | nil =>
    obtain ⟨c, hc, -⟩ := hend
    cases hc
  | cons c text ih =>
    have hc : c ≠ '\r' := by
      intro heq
      exact hreturn (heq ▸ List.mem_cons_self)
    have hreturn' : '\r' ∉ text := fun hmem ↦ hreturn (List.mem_cons_of_mem c hmem)
    rw [List.cons_append, linesAfter_cons fun h ↦ absurd h hc]
    split
    · have hone : 1 ≤ (linesAfter [] (text ++ ['\n'])).length := by
        cases hlines : linesAfter [] (text ++ ['\n']) with
        | nil =>
          by_cases hend' : ∃ c ∈ text, isLineEnd c = true
          · have htwo := ih hend' hreturn' []
            rw [hlines] at htwo
            exact absurd htwo (by decide)
          · have hplain : ∀ c ∈ text, isLineEnd c = false := by
              intro d hd
              exact Bool.eq_false_iff.mpr fun htrue ↦ hend' ⟨d, hd, htrue⟩
            rw [linesAfter_plain hplain, linesAfter_newline] at hlines
            cases hlines
        | cons line lines => exact Nat.succ_le_succ (Nat.zero_le _)
      rw [List.length_cons]
      omega
    · rename_i hplain
      apply ih _ hreturn'
      obtain ⟨d, hd, hdend⟩ := hend
      rcases List.mem_cons.mp hd with heq | hmem
      · rw [heq] at hdend
        exact absurd hdend hplain
      · exact ⟨d, hmem, hdend⟩

def newlines (text : List Char) : List (List Char) := text.splitOn '\n'

def joinLines (lines : List (List Char)) : List Char := ['\n'].intercalate lines

def unlines (lines : List (List Char)) : List Char := lines.flatMap (· ++ ['\n'])

theorem joinLines_newlines (text : List Char) : joinLines (newlines text) = text :=
  List.intercalate_splitOn '\n'

theorem newlines_joinLines {lines : List (List Char)} (hne : lines ≠ [])
    (h : ∀ line ∈ lines, '\n' ∉ line) : newlines (joinLines lines) = lines :=
  List.splitOn_intercalate '\n' h hne

theorem newlines_ne_nil (text : List Char) : newlines text ≠ [] := List.splitOn_ne_nil '\n' text

theorem newlines_cons (c : Char) (text : List Char) : newlines (c :: text) =
    if c = '\n' then [] :: newlines text else (newlines text).modifyHead (c :: ·) := by
  unfold newlines
  rw [List.splitOn_cons_eq_if_modifyHead]
  by_cases hc : c = '\n'
  · rw [if_pos hc, if_pos (by simpa using hc)]
  · rw [if_neg hc, if_neg (by simpa using hc)]

theorem newline_notMem_of_mem_newlines {text line : List Char} (h : line ∈ newlines text) :
    '\n' ∉ line := by
  induction text generalizing line with
  | nil =>
    rw [newlines, List.splitOn_nil, List.mem_singleton] at h
    rw [h]
    exact List.not_mem_nil
  | cons c text ih =>
    rw [newlines_cons] at h
    split at h
    · rcases List.mem_cons.mp h with heq | hmem
      · rw [heq]
        exact List.not_mem_nil
      · exact ih hmem
    · rename_i hc
      cases hlines : newlines text with
      | nil => exact absurd hlines (newlines_ne_nil text)
      | cons first lines =>
        rw [hlines, List.modifyHead_cons] at h
        rcases List.mem_cons.mp h with heq | hmem
        · rw [heq]
          intro hnew
          rcases List.mem_cons.mp hnew with hc' | hfirst
          · exact hc hc'.symm
          · exact ih (hlines ▸ List.mem_cons_self) hfirst
        · exact ih (hlines ▸ List.mem_cons_of_mem first hmem)

theorem joinLines_cons_cons (line next : List Char) (lines : List (List Char)) :
    joinLines (line :: next :: lines) = line ++ '\n' :: joinLines (next :: lines) := by
  rw [joinLines, List.intercalate_cons_cons, List.append_assoc]
  rfl

theorem joinLines_append_newline {lines : List (List Char)} (hne : lines ≠ []) :
    joinLines lines ++ ['\n'] = unlines lines := by
  induction lines with
  | nil => exact absurd rfl hne
  | cons line lines ih =>
    cases lines with
    | nil => simp [joinLines, unlines, List.intercalate]
    | cons next lines =>
      rw [joinLines_cons_cons, List.append_assoc, List.cons_append, ih (List.cons_ne_nil _ _)]
      simp [unlines]

theorem newlines_unlines {lines : List (List Char)} (h : ∀ line ∈ lines, '\n' ∉ line) :
    newlines (unlines lines) = lines ++ [[]] := by
  have hjoin : unlines lines = joinLines (lines ++ [[]]) := by
    induction lines with
    | nil => rfl
    | cons line lines ih =>
      have hcons : unlines (line :: lines) = line ++ '\n' :: unlines lines := by simp [unlines]
      rw [hcons, ih fun l hl ↦ h l (List.mem_cons_of_mem line hl)]
      cases lines with
      | nil => rw [List.nil_append, List.cons_append, List.nil_append, joinLines_cons_cons]
      | cons next lines => simp only [List.cons_append, joinLines_cons_cons]
  rw [hjoin, newlines_joinLines (by simp)]
  intro line hline
  rcases List.mem_append.mp hline with hmem | hlast
  · exact h line hmem
  · rw [List.mem_singleton.mp hlast]
    exact List.not_mem_nil

/-- The newlines at the end of a text are those of its blank lines. -/
theorem rstrip_joinLines {lines : List (List Char)} (h : ∀ line ∈ lines, '\n' ∉ line)
    (hne : ∃ line ∈ lines, line ≠ []) :
    (joinLines lines).rdropWhile (· == '\n') ++ ['\n'] = unlines (lines.rdropWhile List.isEmpty) := by
  induction lines using List.reverseRecOn with
  | nil =>
    obtain ⟨line, hline, -⟩ := hne
    cases hline
  | append_singleton lines last ih =>
    have hjoin : joinLines (lines ++ [last]) =
        if lines = [] then last else joinLines lines ++ '\n' :: last := by
      clear ih h hne
      induction lines with
      | nil => simp [joinLines, List.intercalate]
      | cons line lines ih =>
        cases lines with
        | nil => simp [joinLines, List.intercalate]
        | cons next lines =>
          rw [if_neg (List.cons_ne_nil _ _)] at ih ⊢
          have hrest : joinLines (next :: (lines ++ [last])) =
              joinLines (next :: lines) ++ '\n' :: last := ih
          refine (joinLines_cons_cons line next (lines ++ [last])).trans ?_
          rw [hrest, joinLines_cons_cons, List.append_assoc]
          rfl
    cases last with
    | nil =>
      have hne' : ∃ line ∈ lines, line ≠ [] := by
        obtain ⟨line, hline, hnil⟩ := hne
        rcases List.mem_append.mp hline with hmem | hlast
        · exact ⟨line, hmem, hnil⟩
        · exact absurd (List.mem_singleton.mp hlast) hnil
      have hlines : lines ≠ [] := by
        obtain ⟨line, hline, -⟩ := hne'
        exact List.ne_nil_of_mem hline
      rw [hjoin, if_neg hlines, List.rdropWhile_concat_pos _ _ _ rfl,
        List.rdropWhile_concat_pos _ _ _ rfl]
      exact ih (fun line hline ↦ h line (List.mem_append_left _ hline)) hne'
    | cons c last =>
      have hlast : (c :: last).getLast (List.cons_ne_nil c last) ≠ '\n' := by
        intro heq
        exact h _ (List.mem_append_right _ (List.mem_singleton_self _))
          (heq ▸ List.getLast_mem (List.cons_ne_nil c last))
      have hkept : ∀ text : List Char,
          (text ++ c :: last).rdropWhile (· == '\n') = text ++ c :: last := by
        intro text
        rw [List.rdropWhile_eq_self_iff]
        intro hnil
        rw [List.getLast_append_of_ne_nil _ (List.cons_ne_nil c last)]
        simpa using hlast
      rw [List.rdropWhile_concat_neg _ _ _ (by simp), ← joinLines_append_newline (by simp), hjoin]
      split
      · rw [← List.nil_append (c :: last), hkept]
      · rw [← List.singleton_append, ← List.append_assoc, hkept]

theorem exists_blanks (lines : List (List Char)) :
    ∃ n, lines = lines.rdropWhile List.isEmpty ++ List.replicate n [] := by
  refine ⟨(lines.rtakeWhile List.isEmpty).length, ?_⟩
  have hblanks : ∀ line ∈ lines.rtakeWhile List.isEmpty, line = [] := by
    intro line hline
    exact List.isEmpty_iff.mp (List.mem_rtakeWhile_imp hline)
  rw [← List.eq_replicate_of_mem hblanks, List.rdropWhile_append_rtakeWhile]

theorem mem_or_eq_nil {lines : List (List Char)} {line : List Char} (h : line ∈ lines) :
    line ∈ lines.rdropWhile List.isEmpty ∨ line = [] := by
  obtain ⟨n, hn⟩ := exists_blanks lines
  rw [hn] at h
  rcases List.mem_append.mp h with hmem | hblank
  · exact .inl hmem
  · exact .inr (List.eq_of_mem_replicate hblank)

theorem rdropWhile_isEmpty_map {f : List Char → List Char} {lines : List (List Char)}
    (h : ∀ line ∈ lines, f line = [] ↔ line = []) :
    (lines.map f).rdropWhile List.isEmpty = (lines.rdropWhile List.isEmpty).map f := by
  induction lines using List.reverseRecOn with
  | nil => rfl
  | append_singleton lines last ih =>
    have hlast := h last (List.mem_append_right _ (List.mem_singleton_self last))
    rw [List.map_append, List.map_singleton]
    by_cases hnil : last = []
    · rw [List.rdropWhile_concat_pos _ _ _ (List.isEmpty_iff.mpr (hlast.mpr hnil)),
        List.rdropWhile_concat_pos _ _ _ (List.isEmpty_iff.mpr hnil)]
      exact ih fun line hline ↦ h line (List.mem_append_left _ hline)
    · rw [List.rdropWhile_concat_neg _ _ _ fun hempty ↦ hnil (hlast.mp (List.isEmpty_iff.mp hempty)),
        List.rdropWhile_concat_neg _ _ _ fun hempty ↦ hnil (List.isEmpty_iff.mp hempty),
        List.map_append, List.map_singleton]

theorem flatMap_rdropWhile_isEmpty {α : Type*} {f : List Char → List α} (h : f [] = [])
    (lines : List (List Char)) : (lines.rdropWhile List.isEmpty).flatMap f = lines.flatMap f := by
  obtain ⟨n, hn⟩ := exists_blanks lines
  conv => rhs; rw [hn]
  have hblanks : (List.replicate n []).flatMap f = [] := by
    rw [List.flatMap_eq_nil_iff]
    intro line hline
    rw [List.eq_of_mem_replicate hline, h]
  rw [List.flatMap_append, hblanks, List.append_nil]

theorem countP_rdropWhile_isEmpty {p : List Char → Bool} (h : p [] = false)
    (lines : List (List Char)) : (lines.rdropWhile List.isEmpty).countP p = lines.countP p := by
  obtain ⟨n, hn⟩ := exists_blanks lines
  conv => rhs; rw [hn]
  rw [List.countP_append, List.countP_replicate, if_neg (by simp [h]), Nat.add_zero]

theorem unlines_inj {lines lines' : List (List Char)} (h : ∀ line ∈ lines, '\n' ∉ line)
    (h' : ∀ line ∈ lines', '\n' ∉ line) (heq : unlines lines = unlines lines') :
    lines = lines' := by
  have hsplit := congrArg newlines heq
  rw [newlines_unlines h, newlines_unlines h'] at hsplit
  exact List.append_cancel_right hsplit

theorem linesAfter_unlines (lines : List (List Char)) :
    linesAfter [] (unlines lines) = lines.flatMap fun line ↦ linesAfter [] (line ++ ['\n']) := by
  induction lines with
  | nil => rfl
  | cons line lines ih =>
    have hcons : unlines (line :: lines) = line ++ '\n' :: unlines lines := by simp [unlines]
    rw [hcons, linesAfter_append_newline, ih, List.flatMap_cons]

theorem linesAfter_line {line : List Char} (h : ∀ c ∈ line, isLineEnd c = false) :
    linesAfter [] (line ++ ['\n']) = [line] := by
  rw [linesAfter_plain h, linesAfter_newline, List.append_nil, List.reverse_reverse]
  rfl

def filled (text : List Char) : List (List Char) := (linesAfter [] text).filter (!·.isEmpty)

theorem filled_append_newline (text : List Char) : filled (text ++ ['\n']) = filled text := by
  suffices h : ∀ begun, (linesAfter begun (text ++ ['\n'])).filter (!·.isEmpty) =
      (linesAfter begun text).filter (!·.isEmpty) from h []
  induction hn : text.length using Nat.strong_induction_on generalizing text with
  | _ n ih =>
    subst hn
    intro begun
    cases text with
    | nil =>
      rw [List.nil_append, linesAfter_newline, linesAfter_nil, linesAfter_nil, if_pos rfl]
      cases begun with
      | nil => rfl
      | cons c begun => rfl
    | cons c text =>
      rw [List.cons_append]
      rcases crlf_cases c text with ⟨hc, text', htext⟩ | hplain
      · subst hc htext
        have hlt : text'.length < ('\r' :: '\n' :: text').length := by
          simp only [List.length_cons]
          omega
        rw [List.cons_append, linesAfter_crlf, linesAfter_crlf, List.filter_cons, List.filter_cons,
          ih text'.length hlt text' rfl]
      · have htail := ih text.length (by simp) text rfl
        by_cases hlast : c = '\r' ∧ text = []
        · obtain ⟨hc, htext⟩ := hlast
          subst hc htext
          rw [List.nil_append, linesAfter_crlf, linesAfter_cons hplain, if_pos isLineEnd_return]
        · have hhead : c = '\r' → (text ++ ['\n']).head? ≠ some '\n' := by
            intro hc
            cases text with
            | nil => exact absurd ⟨hc, rfl⟩ hlast
            | cons d text => exact hplain hc
          rw [linesAfter_cons hplain, linesAfter_cons hhead]
          split
          · rw [List.filter_cons, List.filter_cons, htail]
          · exact htail _

theorem filled_joinLines {lines : List (List Char)} (hne : lines ≠ []) :
    filled (joinLines lines) = lines.flatMap filled := by
  rw [← filled_append_newline, joinLines_append_newline hne, filled, linesAfter_unlines,
    List.filter_flatMap]
  exact List.flatMap_congr fun line _ ↦ filled_append_newline line

theorem filled_unlines (lines : List (List Char)) : filled (unlines lines) = lines.flatMap filled := by
  rw [filled, linesAfter_unlines, List.filter_flatMap]
  exact List.flatMap_congr fun line _ ↦ filled_append_newline line

theorem filled_line {line : List Char} (h : ∀ c ∈ line, isLineEnd c = false) (hne : line ≠ []) :
    filled line = [line] := by
  rw [← filled_append_newline, filled, linesAfter_line h]
  exact List.filter_cons_of_pos (by simpa using hne)

/-- `text.replace("\r\n", "\n")` -/
def crlfToLf : List Char → List Char
  | [] => []
  | '\r' :: '\n' :: text => '\n' :: crlfToLf text
  | c :: text => c :: crlfToLf text

def chomp (line : List Char) : List Char :=
  if line.getLast? = some '\r' then line.dropLast else line

def chompInit : List (List Char) → List (List Char)
  | [] => []
  | [last] => [last]
  | line :: next :: lines => chomp line :: chompInit (next :: lines)

theorem crlfToLf_cons {c : Char} {text : List Char} (h : c = '\r' → text.head? ≠ some '\n') :
    crlfToLf (c :: text) = c :: crlfToLf text := by
  rw [crlfToLf]
  intro rest hc hrest
  rw [hrest] at h
  exact h hc rfl

theorem chompInit_cons {line : List Char} {lines : List (List Char)} (h : lines ≠ []) :
    chompInit (line :: lines) = chomp line :: chompInit lines := by
  cases lines with
  | nil => exact absurd rfl h
  | cons next lines => rfl

theorem chompInit_concat (lines : List (List Char)) (last : List Char) :
    chompInit (lines ++ [last]) = lines.map chomp ++ [last] := by
  induction lines with
  | nil => rfl
  | cons line lines ih =>
    rw [List.cons_append, chompInit_cons (by simp), ih]
    rfl

theorem chomp_eq_self_iff {line : List Char} : chomp line = line ↔ line.getLast? ≠ some '\r' := by
  unfold chomp
  split
  · rename_i hlast
    constructor
    · intro h
      have hne : line ≠ [] := by
        intro hnil
        rw [hnil] at hlast
        cases hlast
      have hlength := congrArg List.length h
      rw [List.length_dropLast] at hlength
      have hpos := List.length_pos_iff.mpr hne
      omega
    · intro h
      exact absurd hlast h
  · rename_i hlast
    simp [hlast]

/-- Every line that ends in a newline loses a carriage return before it. -/
theorem newlines_crlfToLf (text : List Char) :
    newlines (crlfToLf text) = chompInit (newlines text) := by
  induction hn : text.length using Nat.strong_induction_on generalizing text with
  | _ n ih =>
    subst hn
    cases text with
    | nil => rfl
    | cons c text =>
      rcases crlf_cases c text with ⟨hc, text', htext⟩ | hplain
      · subst hc htext
        have hlt : text'.length < ('\r' :: '\n' :: text').length := by
          simp only [List.length_cons]
          omega
        rw [crlfToLf, newlines_cons, if_pos rfl, ih text'.length hlt text' rfl, newlines_cons,
          if_neg (by decide), newlines_cons, if_pos rfl, List.modifyHead_cons,
          chompInit_cons (newlines_ne_nil text')]
        rfl
      · rw [crlfToLf_cons hplain, newlines_cons, newlines_cons, ih text.length (by simp) text rfl]
        split
        · rw [chompInit_cons (newlines_ne_nil text)]
          rfl
        · cases hlines : newlines text with
          | nil => exact absurd hlines (newlines_ne_nil text)
          | cons first lines =>
            rw [List.modifyHead_cons]
            cases lines with
            | nil => rfl
            | cons next lines =>
              rw [chompInit_cons (List.cons_ne_nil _ _), chompInit_cons (List.cons_ne_nil _ _),
                List.modifyHead_cons]
              congr 1
              cases first with
              | nil =>
                have hc : c ≠ '\r' := by
                  intro hc
                  refine hplain hc ?_
                  cases text with
                  | nil => cases hlines
                  | cons d text =>
                    rw [newlines_cons] at hlines
                    split at hlines
                    · rename_i hd
                      rw [hd]
                      rfl
                    · cases htext : newlines text with
                      | nil => exact absurd htext (newlines_ne_nil text)
                      | cons first lines =>
                        rw [htext, List.modifyHead_cons] at hlines
                        cases hlines
                simp [chomp, hc]
              | cons d first =>
                unfold chomp
                rw [List.getLast?_cons_cons]
                split
                all_goals rfl

theorem filled_crlfToLf (text : List Char) : filled (crlfToLf text) = filled text := by
  suffices h : ∀ begun, (linesAfter begun (crlfToLf text)).filter (!·.isEmpty) =
      (linesAfter begun text).filter (!·.isEmpty) from h []
  induction hn : text.length using Nat.strong_induction_on generalizing text with
  | _ n ih =>
    subst hn
    intro begun
    cases text with
    | nil => rfl
    | cons c text =>
      rcases crlf_cases c text with ⟨hc, text', htext⟩ | hplain
      · subst hc htext
        have hlt : text'.length < ('\r' :: '\n' :: text').length := by
          simp only [List.length_cons]
          omega
        rw [crlfToLf, linesAfter_newline, linesAfter_crlf, List.filter_cons, List.filter_cons,
          ih text'.length hlt text' rfl]
      · have htail := ih text.length (by simp) text rfl
        rw [crlfToLf_cons hplain]
        by_cases hmerge : c = '\r' ∧ (crlfToLf text).head? = some '\n'
        · -- the carriage return stands before another one, whose line is blank
          obtain ⟨hc, hhead⟩ := hmerge
          subst hc
          cases text with
          | nil => cases hhead
          | cons d text =>
            rcases crlf_cases d text with ⟨hd, text', htext⟩ | hd
            · subst hd htext
              have hlt : text'.length < ('\r' :: '\r' :: '\n' :: text').length := by
                simp only [List.length_cons]
                omega
              rw [crlfToLf, linesAfter_crlf, linesAfter_cons hplain, if_pos isLineEnd_return,
                linesAfter_crlf, List.filter_cons, List.filter_cons,
                ih text'.length hlt text' rfl]
              rfl
            · rw [crlfToLf_cons hd] at hhead
              exact absurd hhead (hplain rfl)
        · rw [linesAfter_cons hplain, linesAfter_cons fun hc hhead ↦ hmerge ⟨hc, hhead⟩]
          split
          · rw [List.filter_cons, List.filter_cons, htail]
          · exact htail _

end SlurmScheduler.Slurm.Text
