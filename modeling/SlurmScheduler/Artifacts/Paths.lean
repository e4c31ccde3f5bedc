import SlurmScheduler.Retention.Sealed
import SlurmScheduler.Shell.Lines

namespace SlurmScheduler.Artifacts

open Posix Shell Slurm.Text
open Retention (normalizeRemotePath ordinary_of_kept dotDot_notMem_below basename_normpath)
open Cleanup (Kept normpath normpath_eq normalNames normalNames_spec normalNames_spell
  isName_normalNames initialSlashes initialSlashes_le basename basename_spell spell_getLast
  resolve_normpath)

/-- `[part for part in path.split("/") if part]` -/
def pathParts (path : Text) : List Text := (components path).filter (· ≠ [])

def isSafeSchedulerArtifactPath (remoteWorkspace remotePath : Text) (prefixes : List Text) :
    Bool :=
  let artifact := normalizeRemotePath remotePath
  let workspace := normalizeRemotePath remoteWorkspace
  if artifact = [] ∨ workspace = [] ∨ workspace = dot ∨ workspace = ['/'] then false
  else if (pathParts artifact).contains dotDot ∨ (pathParts workspace).contains dotDot then false
  else if ¬ prefixes.any
      (·.isPrefixOf (basename (artifact.rdropWhile (· == '/')))) = true then false
  else (workspace.rdropWhile (· == '/') ++ ['/']).isPrefixOf artifact

section Check

variable {slashes : ℕ} {names : List Text} {path workspace artifact : Text} {prefixes : List Text}

theorem pathParts_spell (h : ∀ name ∈ names, IsName name) :
    pathParts (spell slashes names) = names := by
  have hslashes : (List.replicate slashes ([] : Text)).filter (· ≠ []) = [] := by
    rw [List.filter_eq_nil_iff]
    intro name hname
    rw [List.eq_of_mem_replicate hname]
    decide
  have hnames : names.filter (· ≠ []) = names := by
    rw [List.filter_eq_self]
    exact fun name hname ↦ decide_eq_true (h name hname).1
  rw [pathParts, spell, components_slashes, List.filter_append, hslashes, List.nil_append]
  by_cases hnil : names = []
  · rw [hnil]
    decide
  · rw [components_joinNames h hnil, hnames]

theorem normalizeRemotePath_spelled (path : Text) : ∃ (slashes : ℕ) (names : List Text),
    slashes ≤ 2 ∧ Kept slashes names.reverse ∧ (∀ name ∈ names, IsName name) ∧
      (normalizeRemotePath path = dot ∧ slashes = 0 ∧ names = [] ∨
        normalizeRemotePath path = spell slashes names ∧ spell slashes names ≠ []) := by
  have hnormal : ∃ rest : Text, normalizeRemotePath path = normpath rest := ⟨_, rfl⟩
  obtain ⟨rest, hrest⟩ := hnormal
  have hnames : ∀ name ∈ normalNames rest, IsName name := fun _ h ↦ isName_normalNames h
  refine ⟨initialSlashes rest, normalNames rest, initialSlashes_le rest,
    (normalNames_spec rest []).1, hnames, ?_⟩
  rw [hrest, normpath_eq]
  by_cases hnil : spell (initialSlashes rest) (normalNames rest) = []
  · rw [if_pos hnil]
    exact .inl ⟨rfl, (spell_eq_nil hnames).mp hnil⟩
  · rw [if_neg hnil]
    exact .inr ⟨rfl, hnil⟩

/-- A path below another one is not `.`, so it is spelled by its names. -/
theorem spelled_of_below {front : Text} (h : front ++ ['/'] <+: normalizeRemotePath path) :
    ∃ (slashes : ℕ) (names : List Text), slashes ≤ 2 ∧ Kept slashes names.reverse ∧
      (∀ name ∈ names, IsName name) ∧ normalizeRemotePath path = spell slashes names := by
  obtain ⟨slashes, names, hle, hkept, hnames, ⟨hdot, -⟩ | ⟨hspell, -⟩⟩ :=
    normalizeRemotePath_spelled path
  · rw [hdot] at h
    have hmem : '/' ∈ dot := h.subset (by simp)
    exact absurd hmem (by decide)
  · exact ⟨slashes, names, hle, hkept, hnames, hspell⟩

theorem rdropWhile_spell (h : ∀ name ∈ names, IsName name) (hne : names ≠ []) :
    (spell slashes names).rdropWhile (· == '/') = spell slashes names := by
  rw [List.rdropWhile_eq_self_iff]
  intro hpath hlast
  apply spell_getLast h hne
  rw [List.getLast?_eq_some_getLast hpath, beq_iff_eq.mp hlast]

theorem rdropWhile_slashes : (spell slashes []).rdropWhile (· == '/') = [] := by
  rw [List.rdropWhile_eq_nil_iff]
  intro c hc
  have hreplicate : c ∈ List.replicate slashes '/' := by
    simpa [spell, joinNames] using hc
  rw [List.eq_of_mem_replicate hreplicate]
  rfl

structure Located (workspace artifact : Text) (prefixes : List Text) (slashes : ℕ)
    (root upper : List Text) (last : Text) : Prop where
  names : ∀ name ∈ root ++ upper ++ [last], IsName name ∧ Ordinary name
  artifact : normalizeRemotePath artifact = spell slashes (root ++ upper ++ [last])
  /-- A workspace without names is the root with two slashes. -/
  workspace : root ≠ [] ∧ normalizeRemotePath workspace = spell slashes root ∨
    root = [] ∧ slashes ≠ 0 ∧ normalizeRemotePath workspace = spell 2 []
  named : ∃ start ∈ prefixes, start <+: last

theorem Located.isName {root upper : List Text} {last : Text}
    (h : Located workspace artifact prefixes slashes root upper last) :
    ∀ name ∈ root ++ upper ++ [last], IsName name := fun name hname ↦ (h.names name hname).1

theorem Located.ordinary {root upper : List Text} {last : Text}
    (h : Located workspace artifact prefixes slashes root upper last) :
    ∀ name ∈ root ++ upper ++ [last], Ordinary name := fun name hname ↦ (h.names name hname).2

/-- A path that passes the check is below the workspace, and its last name begins as it should. -/
theorem located_of_safe (hprefixes : [] ∉ prefixes)
    (h : isSafeSchedulerArtifactPath workspace artifact prefixes = true) :
    ∃ (slashes : ℕ) (root upper : List Text) (last : Text),
      Located workspace artifact prefixes slashes root upper last := by
  obtain ⟨slashes', root, hle, -, hroot, hworkspace⟩ := normalizeRemotePath_spelled workspace
  rw [isSafeSchedulerArtifactPath] at h
  split at h
  · cases h
  rename_i hfilled
  split at h
  · cases h
  rename_i hback
  split at h
  · cases h
  rename_i hnamed
  simp only [not_or, List.contains_iff_mem] at hfilled hback
  rw [not_not, List.any_eq_true] at hnamed
  obtain ⟨start, hstart, hbegins⟩ := hnamed
  have hbegins : start <+: basename ((normalizeRemotePath artifact).rdropWhile (· == '/')) :=
    List.isPrefixOf_iff_prefix.mp hbegins
  have hbelow := List.isPrefixOf_iff_prefix.mp h
  obtain ⟨slashes, names, -, hkept, hnames, hspelled⟩ := spelled_of_below hbelow
  have hspelled' : normalizeRemotePath workspace = spell slashes' root := by
    obtain ⟨hdot, -⟩ | ⟨hspell, -⟩ := hworkspace
    · exact absurd hdot hfilled.2.2.1
    · exact hspell
  rw [hspelled, hspelled'] at hbelow
  have hordinary : ∀ name ∈ names, Ordinary name := by
    apply ordinary_of_kept hkept
    rw [hspelled, pathParts_spell hnames] at hback
    exact hback.1
  have hne : names ≠ [] := by
    intro hnil
    rw [hspelled, hnil, rdropWhile_slashes] at hbegins
    exact hprefixes (List.prefix_nil.mp hbegins ▸ hstart)
  obtain ⟨front, last, hlast⟩ := List.eq_nil_or_concat names |>.resolve_left hne
  rw [List.concat_eq_append] at hlast
  have hnamed : start <+: last := by
    rw [hspelled, rdropWhile_spell hnames hne, hlast, basename_spell] at hbegins
    · exact hbegins
    · exact (hnames last (by rw [hlast]; simp)).2
  by_cases hnil : root = []
  · subst hnil
    rw [rdropWhile_slashes, List.nil_append] at hbelow
    have hslashes : slashes ≠ 0 := by
      obtain ⟨rest, hrest⟩ := hbelow
      apply (head_spell hnames).mp
      rw [← hrest]
      rfl
    have htwo : slashes' = 2 := by
      have hzero : slashes' ≠ 0 := fun hzero ↦ hfilled.2.1 (by rw [hspelled', hzero]; rfl)
      have hone : slashes' ≠ 1 := fun hone ↦ hfilled.2.2.2 (by rw [hspelled', hone]; rfl)
      omega
    refine ⟨slashes, [], front, last, ⟨?_, ?_, .inr ⟨rfl, hslashes, ?_⟩, start, hstart, hnamed⟩⟩
    · rw [List.nil_append, ← hlast]
      exact fun name hname ↦ ⟨hnames name hname, hordinary name hname⟩
    · rw [List.nil_append, ← hlast, hspelled]
    · rw [hspelled', htwo]
  · rw [rdropWhile_spell hroot hnil, spell_slash_prefix hroot hnames hnil] at hbelow
    obtain ⟨hslashes, hprefix, hmore⟩ := hbelow
    have hfront : root <+: front := by
      rw [hlast] at hprefix hmore
      obtain hwhole | hfront := List.prefix_concat_iff.mp hprefix
      · exact absurd hwhole hmore
      · exact hfront
    obtain ⟨upper, hupper⟩ := hfront
    rw [← hupper] at hlast
    refine ⟨slashes, root, upper, last, ⟨?_, ?_, .inl ⟨hnil, ?_⟩, start, hstart, hnamed⟩⟩
    · rw [← hlast]
      exact fun name hname ↦ ⟨hnames name hname, hordinary name hname⟩
    · rw [← hlast, hspelled]
    · rw [hspelled', hslashes]

/-- A path that begins with no mark of a home directory.  The shell would take a quoted one as a
name. -/
def Unmarked (path : Text) : Prop := ¬ "$HOME/".toList <+: path ∧ ¬ "~/".toList <+: path

instance : DecidablePred Unmarked := fun path ↦ by unfold Unmarked; infer_instance

theorem normalizeRemotePath_unmarked (h : Unmarked (stripChars path)) :
    normalizeRemotePath path = normpath (stripChars path) := by
  have hhome : ¬ "$HOME/".toList.isPrefixOf (stripChars path) = true :=
    fun hbegins ↦ h.1 (List.isPrefixOf_iff_prefix.mp hbegins)
  have htilde : ¬ "~/".toList.isPrefixOf (stripChars path) = true :=
    fun hbegins ↦ h.2 (List.isPrefixOf_iff_prefix.mp hbegins)
  rw [normalizeRemotePath]
  rw [if_neg hhome, if_neg htilde]

/-- The directory of a path, where the check looks for it -/
def checkedDir (home : List Text) (path : Text) : List Text :=
  resolve home (normalizeRemotePath path)

theorem resolve_unmarked (hstrip : stripChars path = path) (h : Unmarked path)
    (home : List Text) : resolve home path = checkedDir home path := by
  have hstripped : Unmarked (stripChars path) := hstrip.symm ▸ h
  rw [checkedDir, normalizeRemotePath_unmarked hstripped, resolve_normpath, hstrip]

theorem Located.resolve_artifact {root upper : List Text} {last : Text}
    (h : Located workspace artifact prefixes slashes root upper last) (home : List Text) :
    checkedDir home artifact = checkedDir home workspace ++ upper ++ [last] := by
  have hroot : ∀ name ∈ root, IsName name ∧ Ordinary name := fun name hname ↦
    h.names name (List.mem_append_left _ (List.mem_append_left _ hname))
  have hworkspace : checkedDir home workspace = (if slashes = 0 then home else []) ++ root := by
    obtain ⟨-, hspell⟩ | ⟨hnil, hslashes, hspell⟩ := h.workspace
    · rw [checkedDir, hspell, resolve_spell fun name hname ↦ (hroot name hname).1,
        walk_ordinary fun name hname ↦ (hroot name hname).2]
    · rw [checkedDir, hspell, hnil, if_neg hslashes]
      rfl
  rw [checkedDir, h.artifact, resolve_spell h.isName, walk_ordinary h.ordinary, hworkspace,
    ← List.append_assoc, ← List.append_assoc]

theorem stripChars_of_safe (hprefixes : [] ∉ prefixes)
    (h : isSafeSchedulerArtifactPath workspace artifact prefixes = true) :
    stripChars artifact ≠ [] := by
  intro hnil
  obtain ⟨slashes, root, upper, last, hlocated⟩ := located_of_safe hprefixes h
  have hdot : normalizeRemotePath artifact = spell 0 [dot] := by
    rw [normalizeRemotePath, hnil]
    decide
  have hspell := hlocated.artifact.symm.trans hdot
  have hisName : ∀ name ∈ [dot], IsName name := by
    intro name hname
    rw [List.mem_singleton.mp hname]
    exact ⟨by decide, by decide⟩
  have hnames := ((spell_inj hlocated.isName hisName).mp hspell).2
  have hordinary := hlocated.ordinary dot (by rw [hnames]; simp)
  exact hordinary.2.1 rfl

end Check

end SlurmScheduler.Artifacts
