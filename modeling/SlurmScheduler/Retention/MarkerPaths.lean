import SlurmScheduler.Cleanup.RemotePaths
import SlurmScheduler.Slurm.Text

namespace SlurmScheduler.Retention

open Posix Slurm.Text
open Cleanup (initialSlashes initialSlashes_le normpath normpath_eq normalNames normalNames_spec
  isName_normalNames join join_spell dirname dirname_spell spell_getLast)

/-- `WORKSPACE_PRUNE_PROTECTION_MARKER` -/
def pruneProtectionMarker : List Char := ".slurm-scheduler-preserve.json".toList

inductive PathError
  /-- remote path is empty or contains control characters -/
  | control
  /-- remote path is empty after normalization -/
  | empty
  /-- artifact is outside workspace -/
  | outside
  /-- artifact ancestor walk escaped workspace -/
  | escaped
  /-- The model has cut the walk off. -/
  | unfinished
  deriving DecidableEq, Repr

def normalizedRemotePath (value : List Char) : Except PathError (List Char) :=
  let path := stripChars value
  if path = [] ∨ '\x00' ∈ path ∨ '\n' ∈ path ∨ '\r' ∈ path ∨ '\t' ∈ path then .error .control
  else
    let normalized := normpath path
    if normalized = [] ∨ normalized = ['.'] then .error .empty else .ok normalized

/-- `_normalized_remote_path(value).rstrip("/") or "/"` -/
def remoteDir (value : List Char) : Except PathError (List Char) :=
  (normalizedRemotePath value).map fun path ↦
    let stripped := path.rdropWhile (· == '/')
    if stripped = [] then ['/'] else stripped

def belowPrefix (root : List Char) : List Char := if root = ['/'] then ['/'] else root ++ ['/']

/-- The loop of `workspace_prune_protection_marker_paths` -/
def ancestorMarkers (root : List Char) : ℕ → List Char → Except PathError (List (List Char))
  | 0, _ => .error .unfinished
  | fuel + 1, current =>
      let marker := join current pruneProtectionMarker
      if current = root then .ok [marker]
      else
        let parent := dirname current
        if parent = current ∨
            (root ≠ ['/'] ∧ parent ≠ root ∧ ¬ belowPrefix root <+: parent) then .error .escaped
        else (ancestorMarkers root fuel parent).map (marker :: ·)

def workspacePruneProtectionMarkerPaths (workspace artifact : List Char) :
    Except PathError (List (List Char)) := do
  let root ← remoteDir workspace
  let current ← remoteDir artifact
  if current = root ∨ ¬ belowPrefix root <+: current then throw .outside
  ancestorMarkers root (current.length + 1) current

/-- What `remoteDir` returns is a relative path, the root or a path below it. -/
structure RemoteDir (slashes : ℕ) (names : List (List Char)) : Prop where
  isName : ∀ name ∈ names, IsName name
  slashes_le : slashes ≤ 2
  root : names = [] → slashes = 1

theorem remoteDir_spec {value dir : List Char} (h : remoteDir value = .ok dir) :
    ∃ (slashes : ℕ) (names : List (List Char)), RemoteDir slashes names ∧
      dir = spell slashes names ∧
      (initialSlashes (stripChars value) = 0 ↔ slashes = 0) ∧
      names = normalNames (stripChars value) := by
  have hnames : ∀ name ∈ normalNames (stripChars value), IsName name :=
    fun _ h ↦ isName_normalNames h
  unfold remoteDir normalizedRemotePath at h
  simp only [Except.map] at h
  split at h
  · cases h
  · rename_i path hpath
    split at hpath
    · cases hpath
    · split at hpath
      · cases hpath
      · rename_i hempty
        have hspell : path = spell (initialSlashes (stripChars value))
            (normalNames (stripChars value)) := by
          cases hpath
          rw [normpath_eq] at hempty ⊢
          split
          · rename_i hnil
            rw [if_pos hnil] at hempty
            exact absurd (.inr rfl) hempty
          · rfl
        obtain hnil | hne := Classical.em (normalNames (stripChars value) = [])
        · have hslashes : initialSlashes (stripChars value) ≠ 0 := by
            intro hzero
            rw [normpath_eq, if_pos ((spell_eq_nil hnames).mpr ⟨hzero, hnil⟩)] at hempty
            exact hempty (.inr rfl)
          refine ⟨1, [], ⟨nofun, by omega, fun _ ↦ rfl⟩, ?_, by omega, hnil.symm⟩
          have hall : path.rdropWhile (· == '/') = [] := by
            rw [List.rdropWhile_eq_nil_iff, hspell, hnil]
            intro c hc
            have hreplicate : c ∈ List.replicate (initialSlashes (stripChars value)) '/' := by
              simpa [spell, joinNames] using hc
            rw [List.eq_of_mem_replicate hreplicate]
            rfl
          rw [hall, if_pos rfl] at h
          cases h
          rfl
        · refine ⟨initialSlashes (stripChars value), normalNames (stripChars value),
            ⟨hnames, initialSlashes_le _, fun hnil ↦ absurd hnil hne⟩, ?_, Iff.rfl, rfl⟩
          have hstop : path.rdropWhile (· == '/') = path := by
            rw [List.rdropWhile_eq_self_iff, hspell]
            intro hpath' hlast
            apply spell_getLast hnames hne
            rw [List.getLast?_eq_some_getLast hpath', beq_iff_eq.mp hlast]
          have hpath' : path ≠ [] := by
            rw [hspell]
            exact fun hnil ↦ hne ((spell_eq_nil hnames).mp hnil).2
          rw [hstop, if_neg hpath'] at h
          cases h
          exact hspell

theorem resolve_remoteDir {value : List Char} {slashes : ℕ} {names : List (List Char)}
    (h : remoteDir value = .ok (spell slashes names)) (hnames : ∀ name ∈ names, IsName name)
    (cwd : List (List Char)) :
    walk (if slashes = 0 then cwd else []) names = resolve cwd (stripChars value) ∧
      names = normalNames (stripChars value) ∧
      (initialSlashes (stripChars value) = 0 ↔ slashes = 0) := by
  obtain ⟨slashes', names', hdir, heq, hslashes, hnormal⟩ := remoteDir_spec h
  obtain ⟨rfl, rfl⟩ := (spell_inj hnames hdir.isName).mp heq
  refine ⟨?_, hnormal, hslashes⟩
  rw [← (normalNames_spec (stripChars value) cwd).2, ← hnormal]
  simp only [hslashes]

theorem remoteDir_error {value : List Char} {e : PathError} (h : remoteDir value = .error e) :
    e ≠ .escaped ∧ e ≠ .unfinished := by
  unfold remoteDir normalizedRemotePath at h
  simp only [Except.map] at h
  split at h
  · rename_i e' he
    cases h
    split at he
    · cases he
      exact ⟨nofun, nofun⟩
    · split at he
      · cases he
        exact ⟨nofun, nofun⟩
      · cases he
  · cases h

section Below

variable {slashes slashes' : ℕ} {root names : List (List Char)}

theorem spell_root : spell 1 [] = ['/'] := rfl

theorem spell_eq_root (h : ∀ name ∈ names, IsName name) :
    spell slashes names = ['/'] ↔ slashes = 1 ∧ names = [] := by
  rw [← spell_root]
  exact spell_inj h (List.forall_mem_nil _)

/-- What is below a directory that is not the root has its slashes and its names. -/
theorem below_iff (hroot : RemoteDir slashes root) (hne : root ≠ [])
    (h : ∀ name ∈ names, IsName name) :
    belowPrefix (spell slashes root) <+: spell slashes' names ↔
      slashes = slashes' ∧ root <+: names ∧ root ≠ names := by
  have hnot : spell slashes root ≠ ['/'] :=
    fun heq ↦ hne ((spell_eq_root hroot.isName).mp heq).2
  rw [belowPrefix, if_neg hnot]
  exact spell_slash_prefix hroot.isName h hne

theorem below_root (h : ∀ name ∈ names, IsName name) :
    belowPrefix ['/'] <+: spell slashes names ↔ slashes ≠ 0 := by
  rw [belowPrefix, if_pos rfl, ← head_spell h]
  constructor
  · intro hbegins
    obtain ⟨rest, hrest⟩ := hbegins
    rw [← hrest]
    rfl
  · intro hhead
    obtain ⟨rest, hrest⟩ := List.head?_eq_some_iff.mp hhead
    exact ⟨rest, by rw [hrest]; rfl⟩

end Below

/-- The directories from one up to another above it -/
def ancestors (root dir : List (List Char)) : List (List (List Char)) :=
  (List.range (dir.length - root.length + 1)).map fun i ↦ dir.take (dir.length - i)

section Chain

variable {slashes : ℕ} {root dir names : List (List Char)} {last : List Char}

theorem ancestors_self : ancestors dir dir = [dir] := by
  rw [ancestors, Nat.sub_self]
  simp

theorem ancestors_concat (h : root.length ≤ dir.length) :
    ancestors root (dir ++ [last]) = (dir ++ [last]) :: ancestors root dir := by
  rw [ancestors, ancestors, List.length_append, List.length_singleton,
    show dir.length + 1 - root.length + 1 = dir.length - root.length + 1 + 1 by omega,
    List.range_succ_eq_map, List.map_cons, List.map_map]
  congr 1
  · simp
  · apply List.map_congr_left
    intro i _
    rw [Function.comp_apply, Nat.add_sub_add_right, List.take_append_of_le_length (by omega)]

theorem mem_ancestors (h : root <+: dir) :
    names ∈ ancestors root dir ↔ root <+: names ∧ names <+: dir := by
  have hlength := h.length_le
  rw [ancestors, List.mem_map]
  constructor
  · intro hmem
    obtain ⟨i, hi, rfl⟩ := hmem
    have hlt := List.mem_range.mp hi
    refine ⟨?_, List.take_prefix _ dir⟩
    exact List.prefix_of_prefix_length_le h (List.take_prefix _ dir) (by
      rw [List.length_take]
      omega)
  · intro hbetween
    obtain ⟨hroot, hdir⟩ := hbetween
    have hle := hroot.length_le
    have hle' := hdir.length_le
    refine ⟨dir.length - names.length, List.mem_range.mpr (by omega), ?_⟩
    rw [Nat.sub_sub_self hle']
    exact (List.prefix_iff_eq_take.mp hdir).symm

theorem ancestorMarkers_below (hroot : RemoteDir slashes root) (h : ∀ name ∈ dir, IsName name)
    (hbegins : root <+: dir) {fuel : ℕ} (hfuel : dir.length - root.length < fuel) :
    ancestorMarkers (spell slashes root) fuel (spell slashes dir) =
      .ok ((ancestors root dir).map fun names ↦ spell slashes (names ++ [pruneProtectionMarker])) := by
  induction hdir : dir using List.reverseRecOn generalizing dir fuel with
  | nil =>
    subst hdir
    have hnil : root = [] := List.prefix_nil.mp hbegins
    subst hnil
    obtain ⟨fuel, rfl⟩ : ∃ n, fuel = n + 1 := ⟨fuel - 1, by omega⟩
    rw [ancestorMarkers, if_pos rfl, join_spell (List.forall_mem_nil _), ancestors_self]
    rfl
  | append_singleton upper last ih =>
    subst hdir
    obtain ⟨fuel, rfl⟩ : ∃ n, fuel = n + 1 := ⟨fuel - 1, by omega⟩
    have hlast := h last (by simp)
    have hupper : ∀ name ∈ upper, IsName name :=
      fun name hname ↦ h name (List.mem_append_left _ hname)
    rw [ancestorMarkers]
    by_cases hend : root = upper ++ [last]
    · rw [if_pos (by rw [hend]), join_spell h, hend, ancestors_self]
      rfl
    · have hrest : root <+: upper := by
        obtain ⟨more, hmore⟩ := hbegins
        obtain hnil | ⟨more, c, rfl⟩ := List.eq_nil_or_concat more
        · rw [hnil, List.append_nil] at hmore
          exact absurd hmore hend
        · rw [List.concat_eq_append, ← List.append_assoc] at hmore
          exact ⟨more, (List.append_inj' hmore rfl).1⟩
      have hne : spell slashes (upper ++ [last]) ≠ spell slashes root :=
        fun heq ↦ hend ((spell_inj h hroot.isName).mp heq).2.symm
      have hparent : dirname (spell slashes (upper ++ [last])) = spell slashes upper :=
        dirname_spell hupper hlast.2
      have hstay : ¬ (spell slashes upper = spell slashes (upper ++ [last])) := by
        intro heq
        have hlength := congrArg List.length ((spell_inj hupper h).mp heq).2
        rw [List.length_append, List.length_singleton] at hlength
        omega
      have hinside : ¬ (spell slashes root ≠ ['/'] ∧ spell slashes upper ≠ spell slashes root ∧
          ¬ belowPrefix (spell slashes root) <+: spell slashes upper) := by
        intro hescape
        obtain ⟨hslash, hother, hbelow⟩ := hescape
        have hroot' : root ≠ [] := by
          intro hnil
          apply hslash
          rw [hroot.root hnil, hnil]
          rfl
        have hne' : root ≠ upper := fun heq ↦ hother (by rw [heq])
        exact hbelow ((below_iff hroot hroot' hupper).mpr ⟨rfl, hrest, hne'⟩)
      have hlength := hrest.length_le
      rw [List.length_append, List.length_singleton] at hfuel
      have hshort : upper.length - root.length < fuel := by omega
      have hrec := ih hupper hrest hshort rfl
      rw [if_neg hne, hparent, if_neg (not_or.mpr ⟨hstay, hinside⟩), hrec, join_spell h,
        ancestors_concat hlength]
      rfl

/-- From a path with two slashes the root is never reached. -/
theorem ancestorMarkers_escaped (h : ∀ name ∈ dir, IsName name) {fuel : ℕ}
    (hfuel : dir.length < fuel) :
    ancestorMarkers ['/'] fuel (spell 2 dir) = .error .escaped := by
  induction hdir : dir using List.reverseRecOn generalizing dir fuel with
  | nil =>
    obtain ⟨fuel, rfl⟩ : ∃ n, fuel = n + 1 := ⟨fuel - 1, by omega⟩
    rw [ancestorMarkers, if_neg (by decide), if_pos (.inl (by decide))]
  | append_singleton upper last ih =>
    subst hdir
    obtain ⟨fuel, rfl⟩ : ∃ n, fuel = n + 1 := ⟨fuel - 1, by omega⟩
    have hlast := h last (by simp)
    have hupper : ∀ name ∈ upper, IsName name :=
      fun name hname ↦ h name (List.mem_append_left _ hname)
    have hne : spell 2 (upper ++ [last]) ≠ ['/'] :=
      fun heq ↦ absurd ((spell_eq_root h).mp heq).1 (by decide)
    have hparent : dirname (spell 2 (upper ++ [last])) = spell 2 upper :=
      dirname_spell hupper hlast.2
    have hstay : ¬ (spell 2 upper = spell 2 (upper ++ [last])) := by
      intro heq
      have hlength := congrArg List.length ((spell_inj hupper h).mp heq).2
      rw [List.length_append, List.length_singleton] at hlength
      omega
    rw [List.length_append, List.length_singleton] at hfuel
    have hshort : upper.length < fuel := by omega
    rw [ancestorMarkers, if_neg hne, hparent,
      if_neg (not_or.mpr ⟨hstay, fun hescape ↦ hescape.1 rfl⟩), ih hupper hshort rfl]
    rfl

end Chain

theorem markerPaths_of_dirs {workspace artifact : List Char} {slashes slashes' : ℕ}
    {root names : List (List Char)} (hroot : RemoteDir slashes root)
    (hnames : RemoteDir slashes' names) (hworkspace : remoteDir workspace = .ok (spell slashes root))
    (hartifact : remoteDir artifact = .ok (spell slashes' names)) :
    workspacePruneProtectionMarkerPaths workspace artifact =
      if slashes = slashes' ∧ root <+: names ∧ root ≠ names then
        .ok ((ancestors root names).map fun dir ↦ spell slashes (dir ++ [pruneProtectionMarker]))
      else if root = [] ∧ slashes' = 2 then .error .escaped
      else .error .outside := by
  have hunfold : workspacePruneProtectionMarkerPaths workspace artifact =
      if spell slashes' names = spell slashes root ∨
          ¬ belowPrefix (spell slashes root) <+: spell slashes' names then .error .outside
      else ancestorMarkers (spell slashes root) ((spell slashes' names).length + 1)
        (spell slashes' names) := by
    rw [workspacePruneProtectionMarkerPaths, hworkspace, hartifact]
    simp only [bind, Except.bind]
    split
    · rfl
    · rfl
  have hlength : slashes' + names.length ≤ (spell slashes' names).length :=
    length_le_spell hnames.isName
  rw [hunfold]
  by_cases hnil : root = []
  · have hone := hroot.root hnil
    subst hnil hone
    by_cases hsame : slashes' = 1
    · subst hsame
      by_cases hempty : names = []
      · subst hempty
        rw [if_pos (.inl rfl), if_neg fun hall ↦ hall.2.2 rfl, if_neg fun h ↦ by omega]
      · have hne : spell 1 names ≠ spell 1 [] :=
          fun heq ↦ hempty ((spell_inj hnames.isName (List.forall_mem_nil _)).mp heq).2
        have hbelow : belowPrefix (spell 1 []) <+: spell 1 names :=
          (below_root hnames.isName).mpr (by decide)
        rw [if_neg (not_or.mpr ⟨hne, not_not.mpr hbelow⟩),
          if_pos ⟨rfl, List.nil_prefix, Ne.symm hempty⟩,
          ancestorMarkers_below hroot hnames.isName List.nil_prefix (by omega)]
    · have hne : spell slashes' names ≠ spell 1 [] :=
        fun heq ↦ hsame ((spell_inj hnames.isName (List.forall_mem_nil _)).mp heq).1
      rw [if_neg fun hall : 1 = slashes' ∧ _ ↦ hsame hall.1.symm]
      have hle := hnames.slashes_le
      by_cases htwo : slashes' = 2
      · subst htwo
        have hbelow : belowPrefix (spell 1 []) <+: spell 2 names :=
          (below_root hnames.isName).mpr (by decide)
        rw [if_neg (not_or.mpr ⟨hne, not_not.mpr hbelow⟩), if_pos ⟨rfl, rfl⟩, spell_root,
          ancestorMarkers_escaped hnames.isName (by omega)]
      · have hzero : slashes' = 0 := by omega
        have hbelow : ¬ belowPrefix (spell 1 []) <+: spell slashes' names :=
          fun hbegins ↦ (below_root hnames.isName).mp hbegins hzero
        rw [if_pos (.inr hbelow), if_neg fun h ↦ htwo h.2]
  · by_cases hmore : slashes = slashes' ∧ root <+: names ∧ root ≠ names
    · have hbelow := (below_iff hroot hnil hnames.isName).mpr hmore
      obtain ⟨rfl, hbegins, hne⟩ := hmore
      have hspell : spell slashes names ≠ spell slashes root :=
        fun heq ↦ hne ((spell_inj hnames.isName hroot.isName).mp heq).2.symm
      rw [if_neg (not_or.mpr ⟨hspell, not_not.mpr hbelow⟩), if_pos ⟨rfl, hbegins, hne⟩,
        ancestorMarkers_below hroot hnames.isName hbegins (by omega)]
    · have hbelow : ¬ belowPrefix (spell slashes root) <+: spell slashes' names :=
        fun hbegins ↦ hmore ((below_iff hroot hnil hnames.isName).mp hbegins)
      rw [if_pos (.inr hbelow), if_neg hmore, if_neg fun h ↦ hnil h.1]

/-- The function returns the marker of each directory from the artifact up to the workspace, and
nothing else; its walk leaves the workspace only from a path with two slashes below the root. -/
theorem marker_paths_exact (workspace artifact : List Char) :
    (∀ markers, workspacePruneProtectionMarkerPaths workspace artifact = .ok markers ↔
      ∃ (slashes : ℕ) (root names : List (List Char)), RemoteDir slashes root ∧
        RemoteDir slashes names ∧ remoteDir workspace = .ok (spell slashes root) ∧
        remoteDir artifact = .ok (spell slashes names) ∧ root <+: names ∧ root ≠ names ∧
        markers = (ancestors root names).map fun dir ↦
          spell slashes (dir ++ [pruneProtectionMarker])) ∧
    (workspacePruneProtectionMarkerPaths workspace artifact = .error .escaped ↔
      remoteDir workspace = .ok ['/'] ∧ ∃ names : List (List Char), RemoteDir 2 names ∧
        remoteDir artifact = .ok (spell 2 names)) ∧
    workspacePruneProtectionMarkerPaths workspace artifact ≠ .error .unfinished := by
  cases hworkspace : remoteDir workspace with
  | error e =>
    have hresult : workspacePruneProtectionMarkerPaths workspace artifact = .error e := by
      rw [workspacePruneProtectionMarkerPaths, hworkspace]
      rfl
    have hfirst := remoteDir_error hworkspace
    rw [hresult]
    refine ⟨fun markers ↦ ⟨nofun, ?_⟩, ⟨?_, ?_⟩, ?_⟩
    · intro hexists
      obtain ⟨slashes, root, names, -, -, hroot, -⟩ := hexists
      cases hroot
    · intro hescaped
      cases hescaped
      exact absurd rfl hfirst.1
    · intro hroot
      cases hroot.1
    · intro hunfinished
      cases hunfinished
      exact hfirst.2 rfl
  | ok dir =>
    obtain ⟨slashes, root, hroot, rfl, -⟩ := remoteDir_spec hworkspace
    cases hartifact : remoteDir artifact with
    | error e =>
      have hresult : workspacePruneProtectionMarkerPaths workspace artifact = .error e := by
        rw [workspacePruneProtectionMarkerPaths, hworkspace, hartifact]
        rfl
      have hsecond := remoteDir_error hartifact
      rw [hresult]
      refine ⟨fun markers ↦ ⟨nofun, ?_⟩, ⟨?_, ?_⟩, ?_⟩
      · intro hexists
        obtain ⟨slashes', root', names, -, -, -, hnames, -⟩ := hexists
        cases hnames
      · intro hescaped
        cases hescaped
        exact absurd rfl hsecond.1
      · intro hnames
        obtain ⟨-, names, -, hnames⟩ := hnames
        cases hnames
      · intro hunfinished
        cases hunfinished
        exact hsecond.2 rfl
    | ok dir' =>
      obtain ⟨slashes', names, hnames, rfl, -⟩ := remoteDir_spec hartifact
      rw [markerPaths_of_dirs hroot hnames hworkspace hartifact]
      refine ⟨fun markers ↦ ⟨?_, ?_⟩, ⟨?_, ?_⟩, ?_⟩
      · intro hok
        split at hok
        · rename_i hbelow
          obtain ⟨rfl, hbegins, hne⟩ := hbelow
          cases hok
          exact ⟨slashes, root, names, hroot, hnames, rfl, rfl, hbegins, hne, rfl⟩
        · split at hok
          all_goals cases hok
      · intro hexists
        obtain ⟨k, root', names', hroot', hnames', heq, heq', hbegins, hne, rfl⟩ := hexists
        obtain ⟨rfl, rfl⟩ := (spell_inj hroot.isName hroot'.isName).mp (Except.ok.inj heq)
        obtain ⟨rfl, rfl⟩ := (spell_inj hnames.isName hnames'.isName).mp (Except.ok.inj heq')
        rw [if_pos ⟨rfl, hbegins, hne⟩]
      · intro hescaped
        split at hescaped
        · cases hescaped
        · split at hescaped
          · rename_i htwo
            obtain ⟨rfl, rfl⟩ := htwo
            rw [hroot.root rfl]
            exact ⟨rfl, names, hnames, rfl⟩
          · cases hescaped
      · intro hescaped
        obtain ⟨hslash, names', hnames', heq⟩ := hescaped
        obtain ⟨rfl, rfl⟩ := (spell_eq_root hroot.isName).mp (Except.ok.inj hslash)
        obtain ⟨rfl, rfl⟩ := (spell_inj hnames.isName hnames'.isName).mp (Except.ok.inj heq)
        rw [if_neg (fun hbelow ↦ absurd hbelow.1 (by decide)), if_pos ⟨rfl, rfl⟩]
      · split
        · exact nofun
        · split
          all_goals exact nofun

end SlurmScheduler.Retention
