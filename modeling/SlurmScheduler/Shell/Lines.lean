import SlurmScheduler.Shell.Words

namespace SlurmScheduler.Shell

inductive Token
  | word (parts : List Part)
  /-- With the number of a descriptor that stands directly before it -/
  | operator (text : Text)
  deriving DecidableEq, Repr

inductive Place
  | between
  | word (m : Mode) (read : List Part)
  | operator (text : Text)
  | comment
  deriving DecidableEq, Repr

def blank (c : Char) : Bool := c == ' ' || c == '\t'

def operatorChar (c : Char) : Bool := [';', '&', '|', '<', '>', '(', ')', '\n'].contains c

def joins (last c : Char) : Bool :=
  [('&', '&'), ('|', '|'), (';', ';'), ('>', '>'), ('<', '<'), ('>', '&'), ('<', '&'),
    ('>', '|')].contains (last, c)

def descriptor (ps : List Part) : Option Text :=
  ps.mapM fun
    | .char c => if c.isDigit then some c else none
    | .var _ _ => none

def atBoundary : Mode → Bool
  | .plain => true
  | .name false (_ :: _) => true
  | _ => false

def stepBetween (c : Char) : Option (Place × List Token) :=
  if blank c then some (.between, [])
  else if operatorChar c then some (.operator [c], [])
  else if c = '#' then some (.comment, [])
  else (scanChar .plain c).map fun r ↦ (.word r.1 r.2, [])

def stepLine : Place → Char → Option (Place × List Token)
  | .between, c => stepBetween c
  | .comment, c => some (if c = '\n' then .operator [c] else .comment, [])
  | .operator text, c =>
      if text.getLast?.any (joins · c) && !text.isEmpty && text.dropLast.all Char.isDigit then
        some (.between, [.operator (text ++ [c])])
      else (stepBetween c).map fun r ↦ (r.1, .operator text :: r.2)
  | .word m ps, c =>
      if atBoundary m && (blank c || operatorChar c) then do
        let last ← finish m
        match descriptor (ps ++ last) with
        | some number =>
            if c = '>' ∨ c = '<' then return (.operator (number ++ [c]), [])
            else (stepBetween c).map fun r ↦ (r.1, .word (ps ++ last) :: r.2)
        | none => (stepBetween c).map fun r ↦ (r.1, .word (ps ++ last) :: r.2)
      else (scanChar m c).map fun r ↦ (.word r.1 (ps ++ r.2), [])

def scanLine : Place → Text → Option (Place × List Token)
  | place, [] => some (place, [])
  | place, c :: cs => do
      let first ← stepLine place c
      let rest ← scanLine first.1 cs
      return (rest.1, first.2 ++ rest.2)

def finishLine : Place → Option (List Token)
  | .between | .comment => some []
  | .operator text => some [.operator text]
  | .word m ps => (finish m).map fun last ↦ [.word (ps ++ last)]

def tokens (line : Text) : Option (List Token) := do
  let scanned ← scanLine .between line
  let last ← finishLine scanned.1
  return scanned.2 ++ last

section Reading

variable {place : Place} {text rest : Text} {c : Char} {m m' : Mode} {ps qs : List Part}

@[simp] theorem scanLine_nil : scanLine place [] = some (place, []) := rfl

theorem scanLine_cons : scanLine place (c :: rest) = (stepLine place c).bind fun first ↦
    (scanLine first.1 rest).map fun r ↦ (r.1, first.2 ++ r.2) := by
  simp only [scanLine, Option.bind_eq_bind, Option.pure_def]
  congr 1
  funext first
  cases scanLine first.1 rest with
  | none => rfl
  | some r => rfl

theorem scanLine_append : scanLine place (text ++ rest) = (scanLine place text).bind fun first ↦
    (scanLine first.1 rest).map fun r ↦ (r.1, first.2 ++ r.2) := by
  induction text generalizing place with
  | nil =>
    rw [List.nil_append, scanLine_nil, Option.bind_some]
    cases scanLine place rest with
    | none => rfl
    | some r => rfl
  | cons c text ih =>
    rw [List.cons_append, scanLine_cons, scanLine_cons]
    cases stepLine place c with
    | none => rfl
    | some first =>
      simp only [Option.bind_some, ih]
      cases scanLine first.1 text with
      | none => rfl
      | some middle =>
        simp only [Option.bind_some, Option.map_some]
        cases scanLine middle.1 rest with
        | none => rfl
        | some last => simp only [Option.map_some, List.append_assoc]

theorem scanChar_boundary (hm : atBoundary m = true) (hc : (blank c || operatorChar c) = true) :
    scanChar m c = none := by
  have hmem : c ∈ [' ', '\t', ';', '&', '|', '<', '>', '(', ')', '\n'] := by
    simp only [blank, operatorChar, Bool.or_eq_true, beq_iff_eq, List.contains_eq_mem,
      decide_eq_true_eq] at hc
    obtain (hc | hc) | hc := hc
    · simp [hc]
    · simp [hc]
    · exact List.mem_cons_of_mem _ (List.mem_cons_of_mem _ hc)
  have hbase : ∀ c ∈ [' ', '\t', ';', '&', '|', '<', '>', '(', ')', '\n'],
      scanBase false c = none ∧ nameChar c = false := by
    simp only [List.forall_mem_cons, List.not_mem_nil, false_implies, implies_true, and_true]
    decide
  obtain ⟨hbase, hname⟩ := hbase c hmem
  cases m with
  | plain => exact hbase
  | single => cases hm
  | double => cases hm
  | braced double read => cases hm
  | name double read =>
    cases double with
    | true => cases read <;> cases hm
    | false =>
      cases read with
      | nil => cases hm
      | cons d read =>
        simp only [scanChar, hname, hbase]
        rfl

theorem scanLine_word (h : scan m text = some (m', qs)) :
    scanLine (.word m ps) text = some (.word m' (ps ++ qs), []) := by
  induction text generalizing m ps qs with
  | nil =>
    rw [scan_nil] at h
    cases h
    rw [scanLine_nil, List.append_nil]
  | cons c text ih =>
    rw [scan_cons] at h
    cases hfirst : scanChar m c with
    | none =>
      rw [hfirst] at h
      cases h
    | some first =>
      rw [hfirst, Option.bind_some] at h
      cases hrest : scan first.1 text with
      | none =>
        rw [hrest] at h
        cases h
      | some last =>
        rw [hrest] at h
        cases h
        have hinside : ¬ (atBoundary m && (blank c || operatorChar c)) = true := by
          intro hboth
          obtain ⟨hm, hc⟩ := Bool.and_eq_true_iff.mp hboth
          rw [scanChar_boundary hm hc] at hfirst
          cases hfirst
        rw [scanLine_cons, stepLine, if_neg hinside, hfirst, Option.map_some, Option.bind_some,
          ih hrest, List.append_assoc]
        rfl

theorem scanLine_between (hne : text ≠ []) (h : scan .plain text = some (m, qs)) :
    scanLine .between text = some (.word m qs, []) := by
  obtain ⟨c, text, rfl⟩ := List.exists_cons_of_ne_nil hne
  rw [scan_cons] at h
  cases hfirst : scanChar .plain c with
  | none =>
    rw [hfirst] at h
    cases h
  | some first =>
    rw [hfirst, Option.bind_some] at h
    cases hrest : scan first.1 text with
    | none =>
      rw [hrest] at h
      cases h
    | some last =>
      rw [hrest] at h
      cases h
      have hplain : (blank c || operatorChar c) = false := by
        by_contra hc
        rw [scanChar_boundary (m := .plain) rfl (eq_true_of_ne_false hc)] at hfirst
        cases hfirst
      obtain ⟨hblank, hoperator⟩ := Bool.or_eq_false_iff.mp hplain
      have hhash : c ≠ '#' := by
        intro heq
        subst heq
        cases hfirst
      rw [scanLine_cons, stepLine, stepBetween, hblank, hoperator, if_neg Bool.false_ne_true,
        if_neg Bool.false_ne_true, if_neg hhash, hfirst, Option.map_some, Option.bind_some,
        scanLine_word hrest]
      rfl

theorem scanLine_word_blank : scanLine (.word .plain ps) (' ' :: rest) =
    (scanLine .between rest).map fun r ↦ (r.1, .word ps :: r.2) := by
  have hstep : stepLine (.word .plain ps) ' ' = some (.between, [.word ps]) := by
    have hboundary : (atBoundary .plain && (blank ' ' || operatorChar ' ')) = true := rfl
    rw [stepLine, if_pos hboundary]
    simp only [finish, Option.bind_eq_bind, Option.bind_some, List.append_nil]
    cases descriptor ps with
    | none => rfl
    | some number => rfl
  rw [scanLine_cons, hstep, Option.bind_some]
  rfl

/-- A word ends before an operator that takes no descriptor. -/
theorem scanLine_word_operator (hc : operatorChar c = true) (hredirect : c ≠ '>' ∧ c ≠ '<') :
    scanLine (.word .plain ps) (c :: rest) =
      (scanLine (.operator [c]) rest).map fun r ↦ (r.1, .word ps :: r.2) := by
  have hblank : blank c = false := by
    by_contra hblank
    have hcases : c = ' ' ∨ c = '\t' := by
      simpa [blank, or_iff_not_imp_left] using hblank
    obtain rfl | rfl := hcases
    · cases hc
    · cases hc
  have hstep : stepLine (.word .plain ps) c = some (.operator [c], [.word ps]) := by
    have hboundary : (atBoundary .plain && (blank c || operatorChar c)) = true := by
      rw [hc, Bool.or_true]
      rfl
    have hbetween : stepBetween c = some (.operator [c], []) := by
      rw [stepBetween, hblank, hc, if_neg Bool.false_ne_true, if_pos rfl]
    rw [stepLine, if_pos hboundary]
    simp only [finish, Option.bind_eq_bind, Option.bind_some, List.append_nil, hbetween,
      Option.map_some]
    cases descriptor ps with
    | none => rfl
    | some number =>
      dsimp only
      rw [if_neg (not_or.mpr hredirect)]
  rw [scanLine_cons, hstep, Option.bind_some]
  rfl

end Reading

def literal (text : Text) : Token := .word (text.map .char)

section Writing

variable {text rest : Text} {ts : List Token}

/-- From between two words a text is read as these tokens. -/
def Reads (text : Text) (ts : List Token) : Prop :=
  (scanLine .between text).bind (fun r ↦ (finishLine r.1).map (r.2 ++ ·)) = some ts

theorem reads_iff : Reads text ts ↔ tokens text = some ts := by
  have heq : tokens text =
      (scanLine .between text).bind fun r ↦ (finishLine r.1).map (r.2 ++ ·) := by
    simp only [tokens, Option.bind_eq_bind, Option.pure_def]
    congr 1
    funext r
    cases finishLine r.1 with
    | none => rfl
    | some last => rfl
  rw [Reads, heq]

theorem quote_ne_nil (text : Text) : quote text ≠ [] := by
  rw [quote]
  split
  · exact List.cons_ne_nil _ _
  · split
    · assumption
    · exact List.cons_ne_nil _ _

theorem reads_word {w : Text} {ps : List Part} (hne : w ≠ [])
    (h : scan .plain w = some (.plain, ps)) : Reads w [.word ps] := by
  rw [Reads, scanLine_between hne h, Option.bind_some]
  simp [finishLine, finish]

theorem reads_word_blank {w : Text} {ps : List Part} (hne : w ≠ [])
    (h : scan .plain w = some (.plain, ps)) (hrest : Reads rest ts) :
    Reads (w ++ ' ' :: rest) (.word ps :: ts) := by
  rw [Reads] at hrest ⊢
  rw [scanLine_append, scanLine_between hne h, Option.bind_some, scanLine_word_blank]
  cases hscan : scanLine .between rest with
  | none =>
    rw [hscan] at hrest
    cases hrest
  | some r =>
    rw [hscan, Option.bind_some] at hrest
    simp only [Option.map_some, Option.bind_some, List.nil_append]
    cases hfinish : finishLine r.1 with
    | none =>
      rw [hfinish] at hrest
      cases hrest
    | some last =>
      rw [hfinish, Option.map_some] at hrest
      cases hrest
      rfl

/-- Words with blanks between them before the rest of a line -/
theorem reads_words {ws : List Text} {pss : List (List Part)} (hne : ws ≠ [])
    (h : List.Forall₂ (fun w ps ↦ w ≠ [] ∧ scan .plain w = some (.plain, ps)) ws pss)
    (hrest : Reads rest ts) :
    Reads ([' '].intercalate ws ++ ' ' :: rest) (pss.map .word ++ ts) := by
  induction h with
  | nil => exact absurd rfl hne
  | @cons w ps ws pss hw hws ih =>
    cases ws with
    | nil =>
      cases hws
      rw [List.intercalate_singleton]
      exact reads_word_blank hw.1 hw.2 hrest
    | cons w' ws =>
      rw [List.intercalate_cons_cons, List.append_assoc, List.append_assoc, List.singleton_append]
      exact reads_word_blank hw.1 hw.2 (ih (List.cons_ne_nil w' ws))

/-- A word that an operator ends, and the rest of the line after the operator and a blank -/
theorem reads_word_semicolon {w : Text} {ps : List Part} (hne : w ≠ [])
    (h : scan .plain w = some (.plain, ps)) (hrest : Reads rest ts) :
    Reads (w ++ ';' :: ' ' :: rest) (.word ps :: .operator [';'] :: ts) := by
  rw [Reads] at hrest ⊢
  have hsemicolon : scanLine (.operator [';']) (' ' :: rest) =
      (scanLine .between rest).map fun r ↦ (r.1, .operator [';'] :: r.2) := by
    have hstep : stepLine (.operator [';']) ' ' = some (.between, [.operator [';']]) := by decide
    rw [scanLine_cons, hstep, Option.bind_some]
    rfl
  rw [scanLine_append, scanLine_between hne h, Option.bind_some,
    scanLine_word_operator (by decide) (by decide), hsemicolon]
  cases hscan : scanLine .between rest with
  | none =>
    rw [hscan] at hrest
    cases hrest
  | some r =>
    rw [hscan, Option.bind_some] at hrest
    simp only [Option.map_some, Option.bind_some, List.nil_append]
    cases hfinish : finishLine r.1 with
    | none =>
      rw [hfinish] at hrest
      cases hrest
    | some last =>
      rw [hfinish, Option.map_some] at hrest
      cases hrest
      rfl

/-- A text of the program itself that ends where a word may begin -/
theorem reads_append {between : List Token} (h : scanLine .between text = some (.between, between))
    (hrest : Reads rest ts) : Reads (text ++ rest) (between ++ ts) := by
  rw [Reads] at hrest ⊢
  rw [scanLine_append, h, Option.bind_some]
  cases hscan : scanLine .between rest with
  | none =>
    rw [hscan] at hrest
    cases hrest
  | some r =>
    rw [hscan, Option.bind_some] at hrest
    simp only [Option.map_some, Option.bind_some]
    cases hfinish : finishLine r.1 with
    | none =>
      rw [hfinish] at hrest
      cases hrest
    | some last =>
      rw [hfinish, Option.map_some] at hrest
      cases hrest
      simp [List.append_assoc]

end Writing

end SlurmScheduler.Shell
