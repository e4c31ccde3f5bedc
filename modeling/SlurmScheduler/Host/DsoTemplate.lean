import Mathlib.Data.String.Basic
import SlurmScheduler.Relational.Rotation
import SlurmScheduler.Slurm.Lines

namespace SlurmScheduler.Host

open Relational
open Slurm.Text

inductive BlockLine
  | opens (name : List Char)
  | closes (name : List Char)
  | malformed
  deriving DecidableEq, Repr

/-- `'([^']+)'` -/
def quoted : List Char → Option (List Char)
  | '\'' :: rest =>
      let name := rest.dropLast
      if rest.getLast? = some '\'' ∧ name ≠ [] ∧ '\'' ∉ name then some name else none
  | _ => none

/-- `re.fullmatch` of the word, white space and a quoted name -/
def blockName (word line : List Char) : Option (List Char) :=
  let rest := line.drop word.length
  if word.isPrefixOf line ∧ rest.head?.any isSpace then quoted (rest.dropWhile isSpace) else none

def blockLine (line : List Char) : Option BlockLine :=
  let stripped := stripChars line
  match blockName "$begin".toList stripped with
  | some name => some (.opens name)
  | none =>
      match blockName "$end".toList stripped with
      | some name => some (.closes name)
      | none =>
          if "$begin".toList.isPrefixOf stripped || "$end".toList.isPrefixOf stripped then
            some .malformed
          else none

def blockLines (template : List Char) : List BlockLine :=
  (linesAfter [] template).filterMap blockLine

abbrev BlockPath := List (List Char)

def blockPaths : BlockPath → List BlockLine → Except String (List BlockPath)
  | [], [] => .ok []
  | _ :: _, [] => .error "PyAEDT DSO template has unbalanced ACF blocks"
  | stack, .opens name :: lines => do
      let paths ← blockPaths (stack ++ [name]) lines
      return (stack ++ [name]) :: paths
  | stack, .closes name :: lines =>
      if stack.getLast? = some name then blockPaths stack.dropLast lines
      else .error "PyAEDT DSO template has unbalanced ACF blocks"
  | _, .malformed :: _ => .error "PyAEDT DSO template has malformed ACF blocks"

def dsoRoot : BlockPath := ["Configs".toList, "Configs".toList, "DSOConfig".toList]

def requiredPaths : List BlockPath :=
  [["Configs".toList],
   ["Configs".toList, "Configs".toList],
   dsoRoot,
   dsoRoot ++ ["DSOMachineList".toList],
   dsoRoot ++ ["DSOMachineList".toList, "DSOMachineInfo".toList],
   dsoRoot ++ ["DSOJobDistributionInfo".toList],
   dsoRoot ++ ["DSOMachineOptionsInfo".toList]]

def dsoKeys : List String :=
  ["ConfigName", "DesignType", "NumEngines", "NumCores", "NumGPUs", "UseAutoSettings"]

/-- `[ \t]` -/
def isBlank (c : Char) : Bool := c == ' ' || c == '\t'

/-- The line up to the equals sign, as `^[ \t]*key[ \t]*=` matches it, and what comes after. -/
def splitSetting (key : String) (line : List Char) : Option (List Char × List Char) :=
  let named := line.dropWhile isBlank
  if key.toList.isPrefixOf named then
    match (named.drop key.toList.length).dropWhile isBlank with
    | '=' :: value => some (line.take (line.length - value.length), value)
    | _ => none
  else none

def countSettings (key : String) (template : List Char) : ℕ :=
  (newlines template).countP fun line ↦ (splitSetting key line).isSome

def checkSettings (template : List Char) : List String → Except String Unit
  | [] => .ok ()
  | key :: keys =>
      if countSettings key template ≠ 1 then
        .error ("PyAEDT DSO template must contain exactly one " ++ key ++ " setting")
      else checkSettings template keys

/-- `_validate_pyaedt_dso_template` -/
def validateDsoTemplate (template : List Char) : Except String Unit := do
  let paths ← blockPaths [] (blockLines template)
  let missing := sortedBy id ((requiredPaths.filter fun path ↦ !paths.contains path).map
    fun path ↦ "/".intercalate (path.map String.ofList))
  if !missing.isEmpty then
    throw ("PyAEDT DSO template is incomplete; missing ACF blocks: " ++ ", ".intercalate missing)
  checkSettings template dsoKeys

/-- The setting of a line whose value `[^\r\n]*$` reaches the end of the line -/
def setLine (key : String) (value line : List Char) : List Char :=
  match splitSetting key line with
  | some (before, old) => if '\r' ∈ old then line else before ++ value
  | none => line

def replaceable (key : String) (line : List Char) : Bool :=
  (splitSetting key line).any fun setting ↦ !setting.2.contains '\r'

/-- `pattern.subn` -/
def substitute (key : String) (value text : List Char) : List Char × ℕ :=
  (joinLines ((newlines text).map (setLine key value)), (newlines text).countP (replaceable key))

def dsoConfigName : String := "pyaedt_config"

def dsoValues (designType : String) (useAutoSettings : Bool) : List (String × List Char) :=
  [("ConfigName", '\'' :: (dsoConfigName.toList ++ ['\''])),
   ("DesignType", '\'' :: (designType.toList ++ ['\''])),
   ("NumEngines", ['1']),
   ("NumCores", ['4']),
   ("NumGPUs", ['0']),
   ("UseAutoSettings", (if useAutoSettings then "true" else "false").toList)]

def renderSettings : List (String × List Char) → List Char → Except String (List Char)
  | [], rendered => .ok rendered
  | (key, value) :: values, rendered =>
      let (rendered, count) := substitute key value rendered
      if count ≠ 1 then .error ("failed to render PyAEDT DSO setting " ++ key)
      else renderSettings values rendered

def renderDsoConfiguration (template : List Char) (designType : String) (useAutoSettings : Bool) :
    Except String (List Char) := do
  validateDsoTemplate template
  let rendered ← renderSettings (dsoValues designType useAutoSettings) (crlfToLf template)
  validateDsoTemplate rendered
  return rendered.rdropWhile (· == '\n') ++ ['\n']

end SlurmScheduler.Host
