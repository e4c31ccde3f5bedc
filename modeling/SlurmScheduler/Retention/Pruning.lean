import SlurmScheduler.Retention.MarkerPaths
import SlurmScheduler.Shell.Tests

namespace SlurmScheduler.Retention

open Posix Shell Slurm.Text
open Cleanup (normpath basename)

namespace Script

def target : Text := "target".toList

def protectedMarker : Text := "protected_marker".toList

def markerPath : Text := "marker_path".toList

def recent : Text := "recent".toList

def findStatus : Text := "find_status".toList

def targetWord : Word where
  text := "\"$target\"".toList
  parts := [.var target true]
  reads := by decide
  whole := by decide

def protectedMarkerWord : Word where
  text := "\"$protected_marker\"".toList
  parts := [.var protectedMarker true]
  reads := by decide
  whole := by decide

def markerPathWord : Word where
  text := "\"$marker_path\"".toList
  parts := [.var markerPath true]
  reads := by decide
  whole := by decide

def recentWord : Word where
  text := "\"$recent\"".toList
  parts := [.var recent true]
  reads := by decide
  whole := by decide

def findStatusWord : Word where
  text := "\"$find_status\"".toList
  parts := [.var findStatus true]
  reads := by decide
  whole := by decide

def word (text : String) : Word := .lit text.toList

section Values

variable (vars : Vars)

@[simp] theorem value_target : targetWord.value vars = vars target := List.append_nil _

@[simp] theorem value_protectedMarker : protectedMarkerWord.value vars = vars protectedMarker :=
  List.append_nil _

@[simp] theorem value_markerPath : markerPathWord.value vars = vars markerPath :=
  List.append_nil _

@[simp] theorem value_recent : recentWord.value vars = vars recent := List.append_nil _

@[simp] theorem value_findStatus : findStatusWord.value vars = vars findStatus := List.append_nil _

@[simp] theorem value_word (text : String) : (word text).value vars = text.toList :=
  Word.value_lit vars _

end Values

def markerCheck (markers : List Text) : Command :=
  .seq (.assign protectedMarker .empty)
    (.forIn markerPath (markers.map .lit)
      (.ite (.either (.test [word "-e", markerPathWord]) (.test [word "-L", markerPathWord]))
        (.seq (.assign protectedMarker markerPathWord) .leave)
        .skip))

/-- `printf "<status>\t%s\n" "$target"` -/
def report (status : String) : Command :=
  .run [word "printf", word (status ++ "\\t%s\\n"), targetWord]

def reportProtected : Command :=
  .run [word "printf", word "P\\t%s\\t%s\\n", targetWord, protectedMarkerWord]

def scanWords (minutes : ℕ) : List Word :=
  [word "find", targetWord, word "-mmin", word ("-" ++ toString minutes), word "-print",
    word "-quit"]

def removeWords : List Word := [word "rm", word "-rf", word "--", targetWord]

def pruneCandidate (minutes : ℕ) (markers : List Text) (candidate : Text) : Command :=
  .sequence
    [.assign target (.lit candidate), markerCheck markers,
      .ite (.test [word "-n", protectedMarkerWord]) reportProtected <|
      .ite (.both (.test [word "!", word "-e", targetWord])
          (.test [word "!", word "-L", targetWord])) (report "M") <|
      .sequence
        [.capture recent (scanWords minutes), .keepStatus findStatus,
          .ite (.test [findStatusWord, word "-ne", word "0"]) (report "E") <|
          .ite (.test [word "-n", recentWord]) (report "R") <|
          .sequence
            [markerCheck markers,
              .ite (.test [word "-n", protectedMarkerWord]) reportProtected <|
              .ite (.run removeWords) (report "D") (report "E")]]]

end Script

def workspacePruneDeleteCommand (workspace : Text) (candidates : List Text) (minutes : ℕ) :
    Except PathError Command := do
  let commands ← candidates.mapM fun candidate ↦ do
    let markers ← workspacePruneProtectionMarkerPaths workspace candidate
    return Script.pruneCandidate minutes markers candidate
  return .sequence commands

def normalizeRemotePath (value : Text) : Text :=
  let path := stripChars value
  let path := if "$HOME/".toList.isPrefixOf path then path.drop 6 else path
  let path := if "~/".toList.isPrefixOf path then path.drop 2 else path
  normpath path

def pruneCandidates (fnmatch : Text → Text → Bool) (globs : List Text) (workspace : Text)
    (stdout : String) : List Text :=
  let workspacePrefix := (normalizeRemotePath workspace).rdropWhile (· == '/') ++ ['/']
  (splitLines stdout).foldl (fun candidates line ↦
    let path := stripChars line
    let normalized := normalizeRemotePath path
    if path = [] ∨ ¬ workspacePrefix <+: normalized ∨
        ¬ globs.any (fnmatch (basename (normalized.rdropWhile (· == '/')))) = true ∨
        normalized ∈ candidates then candidates
    else candidates ++ [normalized]) []

/-- What the connection to an account gives: the listing and, for each script, at how many commands
it is cut off. -/
structure Connection where
  listing : Option (ℕ × String)
  cut : ℕ → Option ℕ

def pruneSlices (world : World) (cut : ℕ → Option ℕ) (workspace : Text) (minutes : ℕ) :
    ℕ → ℕ → List (List Text) → List Event
  | _, _, [] => []
  | i, time, chunk :: chunks =>
      match workspacePruneDeleteCommand workspace chunk minutes with
      | .error _ => []
      | .ok command =>
          let s := exec world false command { time }
          match cut i with
          | some n => s.events.take n
          | none => s.events ++ pruneSlices world cut workspace minutes (i + 1) s.time chunks

/-- The commands that `_prune_workspace_artifacts` runs for an account after its listing -/
def pruneWorkspaceArtifacts (world : World) (connection : Connection)
    (fnmatch : Text → Text → Bool) (globs : List Text) (remoteWorkspace : Text) (minutes : ℕ) :
    List Event :=
  let workspace := stripChars remoteWorkspace
  if workspace = [] then []
  else match connection.listing with
    | some (0, stdout) =>
        pruneSlices world connection.cut workspace minutes 0 0
          (slices 20 (pruneCandidates fnmatch globs workspace stdout))
    | _ => []

end SlurmScheduler.Retention
