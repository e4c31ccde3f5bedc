import Mathlib.Data.List.Basic
import Mathlib.Logic.Function.Basic
import Mathlib.Tactic.Common

namespace SlurmScheduler.EnvSync

inductive Tree
  | absent | previous | broken | installed
  deriving DecidableEq, Repr

structure Home where
  /-- `conda info --base` -/
  base : String
  /-- The prefix of the environment of that name in `conda env list` -/
  registered : Option String
  tree : String → Tree
  /-- The directories `.bak.*` with the prefixes that they stand beside -/
  backups : List (String × Tree) := []

/-- The environment of that name is complete at the prefix. -/
def Home.completeAt (h : Home) (path : String) : Bool :=
  h.registered == some path && h.tree path == .previous

def Home.put (h : Home) (path : String) (tree : Tree) : Home :=
  { h with tree := Function.update h.tree path tree }

inductive Line
  /-- `conda_bootstrap()` -/
  | bootstrap
  /-- `command -v conda` -/
  | findConda
  /-- `mkdir -p $(dirname archive)` -/
  | makeArchiveDir
  /-- `existing=$(lookup || true)` -/
  | lookUp
  /-- `base=$(conda info --base)` -/
  | findBase
  /-- `target=${existing:-$base/envs/name}` -/
  | setTarget
  /-- `if [ -n "$existing" ] && [ -d "$existing" ]; then mv "$existing" "$backup"` -/
  | moveAside
  /-- `echo "$backup" > backup_path.txt; fi` -/
  | noteBackup
  /-- `mkdir -p "$target"` -/
  | makeTarget
  /-- `tar -xzf archive -C "$target"` -/
  | unpack
  /-- `if [ -x "$target/bin/conda-unpack" ]; then "$target/bin/conda-unpack"; fi` -/
  | relocate
  /-- `echo "$target" > installed_prefix.txt` -/
  | notePrefix
  /-- `ls -dt "${target}".bak.* | tail -n +2 | xargs -r rm -rf || true` -/
  | pruneBackups
  deriving DecidableEq, Repr

def installCommand : List Line :=
  [.bootstrap, .findConda, .makeArchiveDir, .lookUp, .findBase, .setTarget, .moveAside, .noteBackup,
    .makeTarget, .unpack, .relocate, .notePrefix, .pruneBackups]

/-- Whether the commands of a line succeed, and which backup `ls -dt` lists first. -/
structure Outcome where
  ok : Bool := true
  newest : ℕ := 0

/-- A script that runs under `set -euo pipefail`: the lines that it has not come to, and its
variables -/
structure Script where
  lines : List Line := installCommand
  failed : Bool := false
  existing : String := ""
  base : String := ""
  target : String := ""
  moved : Bool := false

namespace Script

def exited (s : Script) : Bool := s.failed || s.lines.isEmpty

def run (env : String) (o : Outcome) (h : Home) (s : Script) : Line → Script × Home
  | .bootstrap | .findConda | .makeArchiveDir | .notePrefix => ({ s with failed := !o.ok }, h)
  | .lookUp => ({ s with existing := if o.ok then h.registered.getD "" else "" }, h)
  | .findBase => ({ s with base := h.base, failed := !o.ok }, h)
  | .setTarget =>
      ({ s with target := if s.existing = "" then s.base ++ "/envs/" ++ env else s.existing }, h)
  | .moveAside =>
      if s.existing = "" ∨ h.tree s.existing = .absent then (s, h)
      else if o.ok then
        ({ s with moved := true },
          { h.put s.existing .absent with
            backups := (s.target, h.tree s.existing) :: h.backups })
      else ({ s with failed := true }, h)
  | .noteBackup => ({ s with failed := s.moved && !o.ok }, h)
  | .makeTarget =>
      ({ s with failed := !o.ok },
        if o.ok ∧ h.tree s.target = .absent then h.put s.target .broken else h)
  | .unpack => ({ s with failed := !o.ok }, h.put s.target .broken)
  | .relocate => ({ s with failed := !o.ok }, if o.ok then h.put s.target .installed else h)
  | .pruneBackups =>
      let (own, others) := h.backups.partition (·.1 = s.target)
      (s, if o.ok then { h with backups := (own.drop o.newest).take 1 ++ others } else h)

def next (env : String) (o : Outcome) (h : Home) (s : Script) : Option (Script × Home) :=
  if s.failed then none
  else match s.lines with
    | [] => none
    | line :: rest => some (run env o h { s with lines := rest } line)

/-- The script has moved the prefix that it installs to away, or has come to unpack over it. -/
def begun (s : Script) : Bool := s.moved || !s.lines.contains .unpack

def begins (o : Outcome) (h : Home) (s : Script) : Bool :=
  s.begun || match s.lines with
    | .moveAside :: _ => o.ok && s.existing != "" && h.tree s.existing != .absent
    | .unpack :: _ => true
    | _ => false

def fails (o : Outcome) (h : Home) (s : Script) : Bool :=
  match s.lines with
  | [] | .lookUp :: _ | .setTarget :: _ | .pruneBackups :: _ => false
  | .moveAside :: _ => !o.ok && s.existing != "" && h.tree s.existing != .absent
  | .noteBackup :: _ => s.moved && !o.ok
  | _ => !o.ok

section Lines

variable {env : String} {o : Outcome} {h h' : Home} {s s' : Script} {line : Line}

@[simp] theorem run_lines : (run env o h s line).1.lines = s.lines := by
  cases line
  case moveAside =>
    simp only [run]
    split
    · rfl
    · split
      all_goals rfl
  all_goals rfl

@[simp] theorem run_registered : (run env o h s line).2.registered = h.registered := by
  cases line
  case moveAside =>
    simp only [run]
    split
    · rfl
    · split
      all_goals rfl
  case makeTarget =>
    simp only [run]
    split
    all_goals rfl
  case relocate =>
    simp only [run]
    split
    all_goals rfl
  case pruneBackups =>
    simp only [run]
    split
    all_goals rfl
  all_goals rfl

theorem run_target (hline : line ≠ .setTarget) : (run env o h s line).1.target = s.target := by
  cases line
  case setTarget => exact absurd rfl hline
  case moveAside =>
    simp only [run]
    split
    · rfl
    · split
      all_goals rfl
  all_goals rfl

theorem run_existing (hline : line ≠ .lookUp) : (run env o h s line).1.existing = s.existing := by
  cases line
  case lookUp => exact absurd rfl hline
  case moveAside =>
    simp only [run]
    split
    · rfl
    · split
      all_goals rfl
  all_goals rfl

theorem run_moved (hline : line ≠ .moveAside) : (run env o h s line).1.moved = s.moved := by
  cases line
  case moveAside => exact absurd rfl hline
  all_goals rfl

theorem run_tree (hline : line ∉ [.moveAside, .makeTarget, .unpack, .relocate]) :
    (run env o h s line).2.tree = h.tree := by
  cases line
  case moveAside => exact absurd (by decide) hline
  case makeTarget => exact absurd (by decide) hline
  case unpack => exact absurd (by decide) hline
  case relocate => exact absurd (by decide) hline
  case pruneBackups =>
    simp only [run]
    split
    all_goals rfl
  all_goals rfl

theorem run_backups (hline : line ∉ [.moveAside, .pruneBackups]) :
    (run env o h s line).2.backups = h.backups := by
  cases line
  case moveAside => exact absurd (by decide) hline
  case pruneBackups => exact absurd (by decide) hline
  case makeTarget =>
    simp only [run]
    split
    all_goals rfl
  case relocate =>
    simp only [run]
    split
    all_goals rfl
  all_goals rfl

end Lines

end Script

def Line.after (line : Line) : List Line := (installCommand.dropWhile (· != line)).tail

theorem after_of_suffix {line : Line} {rest : List Line} (h : line :: rest <:+ installCommand) :
    rest = line.after := by
  simp only [installCommand, List.suffix_cons_iff, List.suffix_nil, List.cons.injEq, reduceCtorEq,
    or_false] at h
  rcases h with ⟨rfl, rfl⟩ | ⟨rfl, rfl⟩ | ⟨rfl, rfl⟩ | ⟨rfl, rfl⟩ | ⟨rfl, rfl⟩ | ⟨rfl, rfl⟩ |
    ⟨rfl, rfl⟩ | ⟨rfl, rfl⟩ | ⟨rfl, rfl⟩ | ⟨rfl, rfl⟩ | ⟨rfl, rfl⟩ | ⟨rfl, rfl⟩ | ⟨rfl, rfl⟩
  all_goals rfl

namespace Script

structure Sound (s : Script) (h : Home) : Prop where
  suffix : s.lines <:+ installCommand
  target : .setTarget ∉ s.lines → s.existing ≠ "" → s.target = s.existing
  moved : s.moved = true → .moveAside ∉ s.lines
  installed : s.failed = false → .relocate ∉ s.lines → h.tree s.target = .installed

theorem sound_start (h : Home) : Sound {} h where
  suffix := List.suffix_refl _
  target hnot := absurd (by decide) hnot
  moved hmoved := by cases hmoved
  installed _ hnot := absurd (by decide) hnot

section Next

variable {env : String} {o : Outcome} {h h' : Home} {s s' : Script}

theorem next_eq_some (hnext : s.next env o h = some (s', h')) : s.failed = false ∧
    ∃ line rest, s.lines = line :: rest ∧ run env o h { s with lines := rest } line = (s', h') := by
  unfold next at hnext
  by_cases hfailed : s.failed = true
  · rw [if_pos hfailed] at hnext
    cases hnext
  · rw [if_neg hfailed] at hnext
    refine ⟨by simpa using hfailed, ?_⟩
    cases hlines : s.lines with
    | nil =>
      rw [hlines] at hnext
      cases hnext
    | cons line rest =>
      rw [hlines] at hnext
      exact ⟨line, rest, rfl, Option.some.inj hnext⟩

theorem next_registered (hnext : s.next env o h = some (s', h')) :
    h'.registered = h.registered := by
  obtain ⟨-, line, rest, -, hrun⟩ := next_eq_some hnext
  rw [← congrArg (·.2.registered) hrun]
  exact run_registered

theorem Sound.next (hs : s.Sound h) (hnext : s.next env o h = some (s', h')) : s'.Sound h' := by
  obtain ⟨hfailed, line, rest, hlines, hrun⟩ := next_eq_some hnext
  have hsuffix := hlines ▸ hs.suffix
  have hrest := after_of_suffix hsuffix
  obtain ⟨rfl, rfl⟩ := Prod.ext_iff.mp hrun
  constructor
  · rw [run_lines]
    exact (List.suffix_cons line rest).trans hsuffix
  · intro hset hexisting
    rw [run_lines] at hset
    by_cases hline : line = .setTarget
    · subst hline
      exact if_neg hexisting
    · have hlookup : line ≠ .lookUp := by
        intro heq
        dsimp only at hset
        rw [hrest, heq] at hset
        exact hset (by decide)
      rw [run_existing hlookup] at hexisting ⊢
      rw [run_target hline]
      refine hs.target ?_ hexisting
      rw [hlines, List.mem_cons]
      exact fun hmem ↦ hmem.elim (fun heq ↦ hline heq.symm) hset
  · intro hmoved
    rw [run_lines]
    by_cases hline : line = .moveAside
    · subst hline
      dsimp only
      rw [hrest]
      decide
    · rw [run_moved hline] at hmoved
      have hnot := hs.moved hmoved
      rw [hlines, List.mem_cons, not_or] at hnot
      exact hnot.2
  · intro hok hnot
    rw [run_lines] at hnot
    by_cases hline : line = .relocate
    · subst hline
      have hout : o.ok = true := by simpa [run] using hok
      simp [run, hout, Home.put]
    · have hbefore : .relocate ∉ s.lines := by
        rw [hlines, List.mem_cons]
        exact fun hmem ↦ hmem.elim (fun heq ↦ hline heq.symm) hnot
      have htree := hs.installed hfailed hbefore
      dsimp only at hnot
      rw [hrest] at hnot
      -- only the last two lines come after it
      cases line
      case notePrefix => exact htree
      case pruneBackups =>
        rw [run_tree (by decide)]
        exact htree
      case relocate => exact absurd rfl hline
      all_goals exact absurd (by decide) hnot

theorem begun_next (hs : s.Sound h) (hnext : s.next env o h = some (s', h')) :
    s'.begun = s.begins o h := by
  obtain ⟨-, line, rest, hlines, hrun⟩ := next_eq_some hnext
  have hrest := after_of_suffix (hlines ▸ hs.suffix)
  have hmoved := hs.moved
  obtain ⟨rfl, rfl⟩ := Prod.ext_iff.mp hrun
  rw [hrest] at hlines
  rw [begins, begun, begun, run_lines, hlines, hrest]
  by_cases hline : line = .moveAside
  · subst hline
    have hnot : s.moved = false := by
      by_contra hm
      exact absurd (hlines ▸ hmoved (by simpa using hm)) (by decide)
    simp only [run]
    split
    · rename_i hthere
      rcases hthere with hempty | habsent
      · simp [hnot, hempty]
      · simp [hnot, habsent]
    · rename_i hthere
      rw [not_or] at hthere
      split
      · rename_i hok
        simp [hok, hthere]
      · rename_i hok
        simp [hnot, hok]
  · rw [run_moved hline]
    cases line
    case moveAside => exact absurd rfl hline
    all_goals cases s.moved
    all_goals rfl

/-- The target is chosen before the script begins with it. -/
theorem target_next (hs : s.Sound h) (hnext : s.next env o h = some (s', h'))
    (hbegun : s.begins o h = true) : s'.target = s.target := by
  obtain ⟨-, line, rest, hlines, hrun⟩ := next_eq_some hnext
  have hrest := after_of_suffix (hlines ▸ hs.suffix)
  have hmoved := hs.moved
  obtain ⟨rfl, rfl⟩ := Prod.ext_iff.mp hrun
  rw [hrest] at hlines
  apply run_target
  intro hline
  subst hline
  have hnot : s.moved = false := by
    by_contra hm
    exact absurd (hlines ▸ hmoved (by simpa using hm)) (by decide)
  rw [begins, begun, hnot, hlines] at hbegun
  exact Bool.false_ne_true hbegun

theorem failed_next (hnext : s.next env o h = some (s', h')) : s'.failed = s.fails o h := by
  obtain ⟨hfailed, line, rest, hlines, hrun⟩ := next_eq_some hnext
  obtain ⟨rfl, rfl⟩ := Prod.ext_iff.mp hrun
  simp only [fails, hlines]
  cases line
  case moveAside =>
    simp only [run]
    split
    · rename_i hthere
      rcases hthere with hempty | habsent
      · simp [hfailed, hempty]
      · simp [hfailed, habsent]
    · rename_i hthere
      rw [not_or] at hthere
      split
      · rename_i hok
        simp [hfailed, hok]
      · rename_i hok
        simp [hok, hthere]
  case lookUp => exact hfailed
  case setTarget => exact hfailed
  case pruneBackups => exact hfailed
  all_goals rfl

/-- Before the script begins with a prefix, it keeps what stands there. -/
theorem next_keeps (hs : s.Sound h) (hnext : s.next env o h = some (s', h')) {path : String}
    (htree : h.tree path = .previous) (hbefore : s'.begun = true → s'.target ≠ path) :
    h'.tree path = .previous := by
  obtain ⟨-, line, rest, hlines, hrun⟩ := next_eq_some hnext
  have hrest := after_of_suffix (hlines ▸ hs.suffix)
  have htarget := hs.target
  rw [hlines] at htarget
  obtain ⟨rfl, rfl⟩ := Prod.ext_iff.mp hrun
  cases line
  case moveAside =>
    simp only [run] at hbefore ⊢
    split
    · exact htree
    · rename_i hthere
      rw [not_or] at hthere
      split
      · rename_i hok
        rw [if_neg (not_or.mpr hthere), if_pos hok] at hbefore
        have hne : s.existing ≠ path := by
          rw [← htarget (by rw [hrest]; decide) hthere.1]
          exact hbefore rfl
        simp only [Home.put, Function.update_of_ne hne.symm]
        exact htree
      · exact htree
  case makeTarget =>
    simp only [run]
    split
    · rename_i habsent
      have hne : s.target ≠ path := by
        intro heq
        rw [heq, htree] at habsent
        exact absurd habsent.2 (by decide)
      simp only [Home.put, Function.update_of_ne hne.symm]
      exact htree
    · exact htree
  case unpack =>
    have hne : s.target ≠ path := by
      apply hbefore
      rw [begun, run_lines, hrest, Bool.or_eq_true]
      exact .inr rfl
    simp only [run, Home.put, Function.update_of_ne hne.symm]
    exact htree
  case relocate =>
    have hne : s.target ≠ path := by
      apply hbefore
      rw [begun, run_lines, hrest, Bool.or_eq_true]
      exact .inr rfl
    simp only [run]
    split
    · simp only [Home.put, Function.update_of_ne hne.symm]
      exact htree
    · exact htree
  all_goals
    rw [run_tree (by decide)]
    exact htree

end Next

end Script

end SlurmScheduler.EnvSync
