import Mathlib.Data.List.Basic
import Mathlib.Tactic.Common

namespace SlurmScheduler.Shell

abbrev Text := List Char

/-- A character of a word, or a variable that stands in it -/
inductive Part
  | char (c : Char)
  | var (name : Text) (quoted : Bool)
  deriving DecidableEq, Repr

inductive Mode
  | plain
  | single
  | double
  /-- After a dollar, with the name so far, reversed -/
  | name (double : Bool) (read : Text)
  /-- After a dollar and a brace -/
  | braced (double : Bool) (read : Text)
  deriving DecidableEq, Repr

def bare (c : Char) : Bool := c.isAlphanum || ['_', '@', '%', '+', '=', ':', ',', '.', '/', '-'].contains c

def nameStart (c : Char) : Bool := c.isAlpha || c == '_'

def nameChar (c : Char) : Bool := c.isAlphanum || c == '_'

def scanBase (double : Bool) (c : Char) : Option (Mode × List Part) :=
  if double then
    if c = '"' then some (.plain, [])
    else if c = '$' then some (.name true [], [])
    else if c = '\\' ∨ c = '`' then none
    else some (.double, [.char c])
  else
    if c = '\'' then some (.single, [])
    else if c = '"' then some (.double, [])
    else if c = '$' then some (.name false [], [])
    else if bare c then some (.plain, [.char c])
    else none

def scanChar : Mode → Char → Option (Mode × List Part)
  | .plain, c => scanBase false c
  | .double, c => scanBase true c
  | .single, c => if c = '\'' then some (.plain, []) else some (.single, [.char c])
  | .name double [], c =>
      if nameStart c then some (.name double [c], [])
      else if c = '{' then some (.braced double [], [])
      else if c = '?' ∨ c = '!' then
        some (if double then .double else .plain, [.var [c] double])
      else none
  | .name double read, c =>
      if nameChar c then some (.name double (c :: read), [])
      else (scanBase double c).map fun r ↦ (r.1, .var read.reverse double :: r.2)
  | .braced double [], c => if nameStart c then some (.braced double [c], []) else none
  | .braced double read, c =>
      if nameChar c then some (.braced double (c :: read), [])
      else if c = '}' then
        some (if double then .double else .plain, [.var read.reverse double])
      else none

def scan : Mode → Text → Option (Mode × List Part)
  | m, [] => some (m, [])
  | m, c :: cs => do
      let first ← scanChar m c
      let rest ← scan first.1 cs
      return (rest.1, first.2 ++ rest.2)

def finish : Mode → Option (List Part)
  | .plain => some []
  | .name false (c :: read) => some [.var (c :: read).reverse false]
  | _ => none

def parts (text : Text) : Option (List Part) := do
  let scanned ← scan .plain text
  let last ← finish scanned.1
  return scanned.2 ++ last

section Scanning

variable {m : Mode} {text rest : Text} {c : Char}

@[simp] theorem scan_nil : scan m [] = some (m, []) := rfl

theorem scan_cons : scan m (c :: rest) =
    (scanChar m c).bind fun first ↦ (scan first.1 rest).map fun r ↦ (r.1, first.2 ++ r.2) := by
  simp only [scan, Option.bind_eq_bind, Option.pure_def]
  congr 1
  funext first
  cases scan first.1 rest with
  | none => rfl
  | some r => rfl

theorem scan_append : scan m (text ++ rest) =
    (scan m text).bind fun first ↦ (scan first.1 rest).map fun r ↦ (r.1, first.2 ++ r.2) := by
  induction text generalizing m with
  | nil =>
    rw [List.nil_append, scan_nil, Option.bind_some]
    cases scan m rest with
    | none => rfl
    | some r => rfl
  | cons c text ih =>
    rw [List.cons_append, scan_cons, scan_cons]
    cases hc : scanChar m c with
    | none => rfl
    | some first =>
      simp only [Option.bind_some, ih]
      cases hfirst : scan first.1 text with
      | none => rfl
      | some middle =>
        simp only [Option.bind_some, Option.map_some]
        cases hrest : scan middle.1 rest with
        | none => rfl
        | some last => simp only [Option.map_some, List.append_assoc]

/-- A text that is read from outside of quotes and leads back there comes first in every word. -/
theorem parts_append {first : List Part} (h : scan .plain text = some (.plain, first)) :
    parts (text ++ rest) = (parts rest).map (first ++ ·) := by
  simp only [parts, scan_append, h, Option.bind_some, Option.bind_eq_bind, Option.pure_def]
  cases hrest : scan .plain rest with
  | none => rfl
  | some scanned =>
    simp only [Option.map_some, Option.bind_some]
    cases finish scanned.1 with
    | none => rfl
    | some last => simp only [Option.bind_some, Option.map_some, List.append_assoc]

theorem parts_of_scan {first : List Part} (h : scan .plain text = some (.plain, first)) :
    parts text = some first := by
  calc
    parts text = parts (text ++ []) := by rw [List.append_nil]
    _ = (parts []).map (first ++ ·) := parts_append h
    _ = some first := by simp [parts, finish]

end Scanning

def escape (c : Char) : Text := if c = '\'' then ['\'', '"', '\'', '"', '\''] else [c]

def quote (text : Text) : Text :=
  if text = [] then ['\'', '\'']
  else if text.all bare then text
  else '\'' :: text.flatMap escape ++ ['\'']

section Quoting

variable {text rest : Text}

theorem scan_bare (h : text.all bare = true) :
    scan .plain text = some (.plain, text.map .char) := by
  induction text with
  | nil => rfl
  | cons c text ih =>
    rw [List.all_cons, Bool.and_eq_true] at h
    obtain ⟨hc, htext⟩ := h
    have hsingle : c ≠ '\'' := by
      intro heq
      subst heq
      exact absurd hc (by decide)
    have hdouble : c ≠ '"' := by
      intro heq
      subst heq
      exact absurd hc (by decide)
    have hdollar : c ≠ '$' := by
      intro heq
      subst heq
      exact absurd hc (by decide)
    have hfirst : scanChar .plain c = some (.plain, [.char c]) := by
      simp only [scanChar, scanBase, Bool.false_eq_true, if_false, if_neg hsingle, if_neg hdouble,
        if_neg hdollar, hc, if_true]
    rw [scan_cons, hfirst, Option.bind_some, ih htext]
    rfl

theorem scan_escape (c : Char) : scan .single (escape c) = some (.single, [.char c]) := by
  rw [escape]
  split
  · rename_i hc
    rw [hc]
    decide
  · rename_i hc
    rw [scan_cons, scanChar, if_neg hc]
    rfl

theorem scan_escapes (text : Text) :
    scan .single (text.flatMap escape) = some (.single, text.map .char) := by
  induction text with
  | nil => rfl
  | cons c text ih =>
    rw [List.flatMap_cons, scan_append, scan_escape, Option.bind_some, ih]
    rfl

theorem scan_quote (text : Text) :
    scan .plain (quote text) = some (.plain, text.map .char) := by
  rw [quote]
  split
  · rename_i hnil
    rw [hnil]
    decide
  · split
    · rename_i hbare
      exact scan_bare hbare
    · have hopen : scan .plain ['\''] = some (.single, []) := by decide
      have hclose : scan .single ['\''] = some (.plain, []) := by decide
      rw [List.cons_append, ← List.singleton_append, scan_append, hopen, Option.bind_some,
        scan_append, scan_escapes, Option.bind_some, hclose]
      simp

theorem parts_quote (text : Text) : parts (quote text) = some (text.map .char) :=
  parts_of_scan (scan_quote text)

end Quoting

def splitting (c : Char) : Bool := [' ', '\t', '\n', '*', '?', '[', '\\'].contains c

def Part.value (vars : Text → Text) : Part → Option Text
  | .char c => some [c]
  | .var name quoted =>
      let value := vars name
      if quoted then some value
      else if value = [] ∨ value.any splitting then none
      else some value

def expandParts (vars : Text → Text) : List Part → Option Text
  | [] => some []
  | p :: ps => do
      let first ← p.value vars
      let rest ← expandParts vars ps
      return first ++ rest

section Expanding

variable {vars : Text → Text}

@[simp] theorem expandParts_chars (text : Text) :
    expandParts vars (text.map .char) = some text := by
  induction text with
  | nil => rfl
  | cons c text ih =>
    rw [List.map_cons, expandParts, ih]
    rfl

end Expanding

end SlurmScheduler.Shell
