import SlurmScheduler.Posix.Paths
import SlurmScheduler.Shell.Commands

namespace SlurmScheduler.Shell

open Posix

inductive Entry
  | file
  | directory
  /-- What the link leads to, if anything: a directory or something else -/
  | link (target : Option Bool)
  deriving DecidableEq, Repr

/-- `-e` -/
def Entry.present : Entry → Bool
  | .link none => false
  | _ => true

/-- `-L` -/
def Entry.isLink : Entry → Bool
  | .link _ => true
  | _ => false

/-- `-d` -/
def Entry.isDirectory : Entry → Bool
  | .directory | .link (some true) => true
  | _ => false

abbrev Files := List (List Char) → Option Entry

def unary (files : Files) (cwd : List (List Char)) (operator operand : Text) : Option Bool :=
  let entry := files (resolve cwd operand)
  if operator = "-n".toList then some (operand != [])
  else if operator = "-e".toList then some (entry.any Entry.present)
  else if operator = "-L".toList then some (entry.any Entry.isLink)
  else if operator = "-d".toList then some (entry.any Entry.isDirectory)
  else none

/-- The value of `[ args ]`, for the tests that the scripts use -/
def test (files : Files) (cwd : List (List Char)) : List Text → Option Bool
  | [operator, operand] => unary files cwd operator operand
  | [first, operator, operand] =>
      if first = "!".toList then (unary files cwd operator operand).map (!·)
      else if operator = "=".toList then some (first == operand)
      else if operator = "-ne".toList then some (first != operand)
      else none
  | _ => none

def bracketed : List Text → Option (List Text)
  | first :: rest =>
      if first = "[".toList ∧ rest.getLast? = some "]".toList then some rest.dropLast else none
  | [] => none

/-- A machine of these files, on which the other commands reply as they like -/
def machine (cwd : List (List Char)) (files : ℕ → Files) (others : World) : World :=
  fun time argv ↦
    match (bracketed argv).bind (test (files time) cwd) with
    | some value => { status := if value then 0 else 1 }
    | none => others time argv

/-- `[ args ]` -/
def Command.test (args : List Word) : Command :=
  .run (Word.lit "[".toList :: args ++ [Word.lit "]".toList])

theorem bracketed_test (args : List Text) :
    bracketed ("[".toList :: args ++ ["]".toList]) = some args := by
  rw [List.cons_append, bracketed, if_pos ⟨rfl, List.getLast?_concat⟩, List.dropLast_concat]

section Machine

variable {cwd : List (List Char)} {files : ℕ → Files} {others : World} {value : Bool} {s : State}
  {args : List Word} {values : List Text}

theorem exec_test (hargs : args.map (·.value s.vars) = values)
    (htest : test (files s.time) cwd values = some value) :
    exec (machine cwd files others) false (.test args) s =
      { s with
        time := s.time + 1, status := if value then 0 else 1
        events := s.events ++ [⟨s.time, "[".toList :: values ++ ["]".toList]⟩] } := by
  have hargv : (Word.lit "[".toList :: args ++ [Word.lit "]".toList]).map (·.value s.vars) =
      "[".toList :: values ++ ["]".toList] := by
    rw [List.map_append, List.map_cons, hargs, Word.value_lit, List.map_cons, Word.value_lit,
      List.map_nil]
  have hreply : machine cwd files others s.time ("[".toList :: values ++ ["]".toList]) =
      { status := if value then 0 else 1 } := by
    simp only [machine, bracketed_test, Option.bind_some, htest]
  rw [Command.test, exec, hargv, hreply, State.call, hreply]
  simp

theorem triple_test {P Q B : State → Prop} (value : State → Bool)
    (htest : ∀ s, P s → test (files s.time) cwd (args.map (·.value s.vars)) = some (value s))
    (h : ∀ s, P s → Q { s with
      time := s.time + 1, status := if value s then 0 else 1
      events := s.events ++
        [⟨s.time, "[".toList :: args.map (·.value s.vars) ++ ["]".toList]⟩] }) :
    Triple (machine cwd files others) false P (.test args) Q B := by
  apply triple_run
  intro s _ hp
  have hexec := @exec_test cwd files others (value s) s args _ rfl (htest s hp)
  rw [Command.test] at hexec
  rw [hexec]
  exact h s hp

theorem machine_other {time : ℕ} {argv : List Text} (h : argv.head? ≠ some "[".toList) :
    machine cwd files others time argv = others time argv := by
  have hbracketed : bracketed argv = none := by
    cases argv with
    | nil => rfl
    | cons first rest =>
      rw [bracketed, if_neg]
      intro hboth
      exact h (congrArg some hboth.1)
  rw [machine, hbracketed]
  rfl

end Machine

end SlurmScheduler.Shell
