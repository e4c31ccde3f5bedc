import Mathlib.Data.List.DropRight
import SlurmScheduler.Cleanup.RemotePaths
import SlurmScheduler.Shell.Tests
import SlurmScheduler.Slurm.Text

namespace SlurmScheduler.ProjectEnv

open Shell Slurm.Text
open Cleanup (joinPath basename)

structure Repo where
  url : Text
  ref : Text := []
  subdir : Text := []

structure Project where
  name : Text
  repos : List Repo

/-- `str.strip("/")` -/
def stripSlashes (text : Text) : Text := (text.dropWhile (· == '/')).rdropWhile (· == '/')

def repoDirName (repo : Repo) (index : ℕ) : Text :=
  let subdir := stripSlashes (stripChars repo.subdir)
  if subdir ≠ [] then subdir
  else
    let base := basename (repo.url.rdropWhile (· == '/'))
    let base := if ".git".toList.isSuffixOf base then base.take (base.length - 4) else base
    if base = [] then ("repo" ++ toString index).toList else base

/-- `PROJECTS_ROOT` -/
def defaultRoot : Text := "slurm_scheduler/projects".toList

/-- The `projects_root` of a `ProjectEnvManager` -/
def storedRoot (projectsRoot : Text) : Text :=
  let root := stripSlashes (if projectsRoot = [] then defaultRoot else projectsRoot)
  if root = [] then defaultRoot else root

def projectRelDir (projectsRoot projectName : Text) : Text := joinPath projectsRoot projectName

def homePath (rel : Text) : Word where
  text := "\"$HOME/\"".toList ++ quote (stripSlashes rel)
  parts := .var "HOME".toList true :: .char '/' :: (stripSlashes rel).map .char
  reads := by
    have hhome : scan .plain "\"$HOME/\"".toList =
        some (.plain, [.var "HOME".toList true, .char '/']) := by decide
    rw [parts_append hhome, parts_quote]
    rfl
  whole := by
    intro p hp
    obtain rfl | hp := List.mem_cons.mp hp
    · rfl
    · obtain rfl | hp := List.mem_cons.mp hp
      · trivial
      · obtain ⟨c, -, rfl⟩ := List.mem_map.mp hp
        trivial

/-- The directory of the project, relative to the home directory, and the one of a repository -/
def homeDir (home rel : Text) : Text := home ++ '/' :: stripSlashes rel

theorem value_homePath (vars : Vars) (rel : Text) :
    (homePath rel).value vars = homeDir (vars "HOME".toList) rel := by
  have hparts : (homePath rel).parts =
      .var "HOME".toList true :: .char '/' :: (stripSlashes rel).map .char := rfl
  rw [Word.value, hparts, List.flatMap_cons, List.flatMap_cons, content_chars]
  simp only [Part.content, homeDir, List.singleton_append]

namespace Script

def dest : Text := "dest".toList

def targetName : Text := "target".toList

/-- The output of `$(dirname "$dest")` in the script -/
def parent : Text := "parent".toList

def shallow : Text := "shallow".toList

def resolved : Text := "resolved".toList

def actual : Text := "actual".toList

def destWord : Word where
  text := "\"$dest\"".toList
  parts := [.var dest true]
  reads := by decide
  whole := by decide

def gitDirWord : Word where
  text := "\"$dest/.git\"".toList
  parts := .var dest true :: "/.git".toList.map .char
  reads := by decide
  whole := by decide

def parentWord : Word where
  text := "\"$parent\"".toList
  parts := [.var parent true]
  reads := by decide
  whole := by decide

def shallowWord : Word where
  text := "\"$shallow\"".toList
  parts := [.var shallow true]
  reads := by decide
  whole := by decide

def targetWord : Word where
  text := "\"$target\"".toList
  parts := [.var targetName true]
  reads := by decide
  whole := by decide

def targetCommitWord : Word where
  text := "\"${target}^\x7bcommit\x7d\"".toList
  parts := .var targetName true :: "^\x7bcommit\x7d".toList.map .char
  reads := by decide
  whole := by decide

def resolvedWord : Word where
  text := "\"$resolved\"".toList
  parts := [.var resolved true]
  reads := by decide
  whole := by decide

def actualWord : Word where
  text := "\"$actual\"".toList
  parts := [.var actual true]
  reads := by decide
  whole := by decide

def word (text : String) : Word := .lit text.toList

/-- `git -C "$dest" …` -/
def git (args : List Word) : List Word := word "git" :: word "-C" :: destWord :: args

/-- `rm -rf -- "$dest"`, `mkdir -p -- "$(dirname "$dest")"` and the clone -/
def cloneAnew (clone : List Word) : Command :=
  .sequence
    [.run [word "rm", word "-rf", word "--", destWord],
      .either (.capture parent [word "dirname", destWord]) .skip,
      .run [word "mkdir", word "-p", word "--", parentWord],
      .run (word "git" :: word "clone" :: word "-q" :: clone ++ [destWord])]

end Script

open Script in
def buildExactCommitSyncScript (relDest url ref : Text) : Command :=
  let target := ref.map Char.toLower
  let allBranches := word "+refs/heads/*:refs/remotes/origin/*"
  .sequence
    [.assign dest (homePath relDest), .assign targetName (.lit target),
      .ite (.test [word "-d", gitDirWord])
        (.ite
          (.seq (.capture shallow (git [word "rev-parse", word "--is-shallow-repository"]))
            (.test [shallowWord, word "=", word "true"]))
          (.run (git [word "fetch", word "-q", word "--unshallow", word "--tags", word "--prune",
            word "origin", allBranches]))
          (.run (git [word "fetch", word "-q", word "--tags", word "--prune", word "origin",
            allBranches])))
        (cloneAnew [word "--no-checkout", .lit url]),
      .capture resolved (git [word "rev-parse", word "--verify", targetCommitWord]),
      .test [resolvedWord, word "=", targetWord],
      .run (git [word "checkout", word "-q", word "--detach", targetWord]),
      .run (git [word "reset", word "-q", word "--hard", targetWord]),
      .capture actual (git [word "rev-parse", word "--verify", word "HEAD^\x7bcommit\x7d"]),
      .test [actualWord, word "=", targetWord],
      .ite (.run (git [word "symbolic-ref", word "-q", word "HEAD"])) (.exit 1) .skip]

def isHex (c : Char) : Bool :=
  c.isDigit || ('a' ≤ c && c ≤ 'f') || ('A' ≤ c && c ≤ 'F')

/-- `FULL_COMMIT_SHA_PATTERN` -/
def isFullCommit (ref : Text) : Bool := ref.length == 40 && ref.all isHex

open Script in
def buildRepoSyncScript (relDest url ref : Text) : Command :=
  if isFullCommit ref then buildExactCommitSyncScript relDest url ref
  else
    let branch := if ref = [] then [] else [word "--branch", .lit ref]
    let checkout :=
      if ref = [] then [] else [.run (git [word "checkout", word "-q", .lit ref])]
    .sequence
      [.assign dest (homePath relDest),
        .ite (.test [word "-d", gitDirWord])
          (.sequence
            (.run (git [word "fetch", word "-q", word "--all", word "--prune"]) :: checkout ++
              [.either (.run (git [word "pull", word "-q", word "--ff-only"]))
                (.run (git [word "reset", word "-q", word "--hard", word "@\x7bu\x7d"]))]))
          (cloneAnew ([word "--depth", word "1"] ++ branch ++ [.lit url]))]

open Script in
def deployRuns (projectsRoot : Text) (project : Project) : List RemoteRun :=
  let relDir := projectRelDir projectsRoot project.name
  { command := .run [word "mkdir", word "-p", homePath relDir], required := true } ::
    project.repos.zipIdx.flatMap fun r ↦
      let url := stripChars r.1.url
      if url = [] then []
      else
        let relDest := joinPath relDir (repoDirName r.1 r.2)
        [{ strict := true, required := true
           command := buildRepoSyncScript relDest url (stripChars r.1.ref) },
          { command := .run [word "git", word "-C", homePath relDest, word "rev-parse",
              word "HEAD"] }]

/-- The commands that a deployment to an account runs there -/
def deployEvents (world : World) (home : Text) (cut : ℕ → Option ℕ) (projectsRoot : Text)
    (project : Project) (time : ℕ) : List Event :=
  sessionEvents world (fun name ↦ if name = "HOME".toList then home else []) cut 0 time
    (deployRuns projectsRoot project)

end SlurmScheduler.ProjectEnv
