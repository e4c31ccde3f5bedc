import Mathlib.Data.List.Basic
import Mathlib.Data.List.Infix
import Mathlib.Tactic.Common

namespace SlurmScheduler.Posix

def IsName (name : List Char) : Prop := name ≠ [] ∧ '/' ∉ name

def components (path : List Char) : List (List Char) := path.splitOn '/'

def joinNames (names : List (List Char)) : List Char := ['/'].intercalate names

section Components

variable {names names' : List (List Char)} {name path : List Char}

theorem components_cons (c : Char) (path : List Char) : components (c :: path) =
    if c = '/' then [] :: components path else (components path).modifyHead (c :: ·) := by
  unfold components
  rw [List.splitOn_cons_eq_if_modifyHead]
  by_cases hc : c = '/'
  · rw [if_pos hc, if_pos (by simpa using hc)]
  · rw [if_neg hc, if_neg (by simpa using hc)]

theorem slash_notMem_components (h : name ∈ components path) : '/' ∉ name := by
  induction path generalizing name with
  | nil =>
    rw [components, List.splitOn_nil, List.mem_singleton] at h
    rw [h]
    exact List.not_mem_nil
  | cons c path ih =>
    rw [components_cons] at h
    split at h
    · obtain heq | hmem := List.mem_cons.mp h
      · rw [heq]
        exact List.not_mem_nil
      · exact ih hmem
    · rename_i hc
      cases hsplit : components path with
      | nil => exact absurd hsplit (List.splitOn_ne_nil '/' path)
      | cons first rest =>
        rw [hsplit, List.modifyHead_cons] at h
        obtain heq | hmem := List.mem_cons.mp h
        · rw [heq]
          intro hslash
          obtain hc' | hfirst := List.mem_cons.mp hslash
          · exact hc hc'.symm
          · exact ih (hsplit ▸ List.mem_cons_self) hfirst
        · exact ih (hsplit ▸ List.mem_cons_of_mem first hmem)

theorem joinNames_components (path : List Char) : joinNames (components path) = path :=
  List.intercalate_splitOn '/'

theorem components_joinNames (h : ∀ name ∈ names, IsName name) (hne : names ≠ []) :
    components (joinNames names) = names :=
  List.splitOn_intercalate '/' (fun name hname ↦ (h name hname).2) hne

theorem components_append_slash (path rest : List Char) :
    components (path ++ '/' :: rest) = components path ++ components rest :=
  List.splitOn_append_cons_self path rest

theorem components_ne_nil (path : List Char) : components path ≠ [] := List.splitOn_ne_nil '/' path

@[simp] theorem joinNames_singleton : joinNames [name] = name := by
  rw [joinNames, List.intercalate_singleton]

theorem joinNames_cons (hne : names ≠ []) :
    joinNames (name :: names) = name ++ '/' :: joinNames names := by
  rw [joinNames, List.intercalate_cons_of_ne_nil hne]
  simp [joinNames]

theorem joinNames_append (hne : names ≠ []) (hne' : names' ≠ []) :
    joinNames (names ++ names') = joinNames names ++ '/' :: joinNames names' := by
  induction names with
  | nil => exact absurd rfl hne
  | cons first names ih =>
    by_cases hlast : names = []
    · subst hlast
      rw [List.cons_append, List.nil_append, joinNames_cons hne', joinNames_singleton]
    · rw [List.cons_append, joinNames_cons (List.append_ne_nil_of_left_ne_nil hlast _), ih hlast,
        joinNames_cons hlast, List.append_assoc, List.cons_append]

theorem mem_joinNames {c : Char} (h : c ∈ joinNames names) : c = '/' ∨ ∃ name ∈ names, c ∈ name := by
  induction names with
  | nil => cases h
  | cons first names ih =>
    by_cases hnil : names = []
    · rw [hnil, joinNames_singleton] at h
      exact .inr ⟨first, List.mem_cons_self, h⟩
    · rw [joinNames_cons hnil] at h
      obtain hfirst | hrest := List.mem_append.mp h
      · exact .inr ⟨first, List.mem_cons_self, hfirst⟩
      · obtain hslash | hrest := List.mem_cons.mp hrest
        · exact .inl hslash
        · obtain hslash | ⟨name, hname, hc⟩ := ih hrest
          · exact .inl hslash
          · exact .inr ⟨name, List.mem_cons_of_mem first hname, hc⟩

theorem joinNames_eq_nil (h : ∀ name ∈ names, IsName name) :
    joinNames names = [] ↔ names = [] := by
  constructor
  · intro hnil
    by_contra hne
    have hcomponents := components_joinNames h hne
    rw [hnil] at hcomponents
    have hmem : ([] : List Char) ∈ names := by
      rw [← hcomponents]
      exact List.mem_singleton_self _
    exact (h [] hmem).1 rfl
  · intro hnil
    rw [hnil]
    rfl

/-- Names that are joined neither begin nor end with a slash. -/
theorem joinNames_head (h : ∀ name ∈ names, IsName name) : (joinNames names).head? ≠ some '/' := by
  cases names with
  | nil => exact nofun
  | cons first names =>
    obtain ⟨hne, hslash⟩ := h first List.mem_cons_self
    obtain ⟨c, cs, rfl⟩ := List.exists_cons_of_ne_nil hne
    have hhead : (joinNames ((c :: cs) :: names)).head? = some c := by
      by_cases hlast : names = []
      · subst hlast
        rfl
      · rw [joinNames_cons hlast]
        rfl
    rw [hhead]
    intro hc
    rw [Option.some.inj hc] at hslash
    exact hslash List.mem_cons_self

theorem joinNames_getLast (h : ∀ name ∈ names, IsName name) :
    (joinNames names).getLast? ≠ some '/' := by
  by_cases hnil : names = []
  · rw [hnil]
    exact nofun
  · obtain ⟨first, last, rfl⟩ := List.eq_nil_or_concat names |>.resolve_left hnil
    obtain ⟨hne, hslash⟩ := h last (by simp)
    have hlast : (joinNames (first ++ [last])).getLast? = last.getLast? := by
      by_cases hfirst : first = []
      · rw [hfirst, List.nil_append, joinNames_singleton]
      · rw [joinNames_append hfirst (List.cons_ne_nil _ _), joinNames_singleton,
          List.getLast?_append, List.getLast?_cons]
        cases hl : last.getLast? with
        | none => exact absurd (List.getLast?_eq_none_iff.mp hl) hne
        | some c => rfl
    rw [List.concat_eq_append, hlast]
    intro hc
    exact hslash (List.mem_of_getLast? hc)

/-- A text of joined names begins with another one and a slash if and only if it has its names and
more. -/
theorem joinNames_slash_prefix (h : ∀ name ∈ names, IsName name)
    (h' : ∀ name ∈ names', IsName name) (hne : names ≠ []) :
    joinNames names ++ ['/'] <+: joinNames names' ↔ names <+: names' ∧ names ≠ names' := by
  constructor
  · intro hbegins
    obtain ⟨rest, hrest⟩ := hbegins
    rw [List.append_assoc] at hrest
    have hne' : names' ≠ [] := by
      intro hnil
      rw [hnil] at hrest
      simp [joinNames] at hrest
    have hcomponents := components_append_slash (joinNames names) rest
    rw [show joinNames names ++ '/' :: rest = joinNames names' from hrest,
      components_joinNames h' hne', components_joinNames h hne] at hcomponents
    refine ⟨⟨components rest, hcomponents.symm⟩, ?_⟩
    intro heq
    rw [← heq] at hcomponents
    exact components_ne_nil rest (List.self_eq_append_right.mp hcomponents)
  · intro hmore
    obtain ⟨⟨more, rfl⟩, hmore⟩ := hmore
    have hmore : more ≠ [] := by
      intro hnil
      rw [hnil, List.append_nil] at hmore
      exact hmore rfl
    rw [joinNames_append hne hmore]
    exact ⟨joinNames more, by simp⟩

end Components

def dot : List Char := ['.']

def dotDot : List Char := ['.', '.']

def walkStep (dir : List (List Char)) (c : List Char) : List (List Char) :=
  if c = [] ∨ c = dot then dir else if c = dotDot then dir.dropLast else dir ++ [c]

def walk (dir : List (List Char)) (path : List (List Char)) : List (List Char) :=
  path.foldl walkStep dir

/-- The directory that a path names for a process in `cwd` -/
def resolve (cwd : List (List Char)) (path : List Char) : List (List Char) :=
  walk (if path.head? = some '/' then [] else cwd) (components path)

section Walking

variable {dir : List (List Char)} {names : List (List Char)} {c : List Char}

@[simp] theorem walk_nil : walk dir [] = dir := rfl

@[simp] theorem walk_cons {rest : List (List Char)} :
    walk dir (c :: rest) = walk (walkStep dir c) rest := rfl

theorem walk_append (path rest : List (List Char)) :
    walk dir (path ++ rest) = walk (walk dir path) rest :=
  List.foldl_append

def Ordinary (name : List Char) : Prop := name ≠ [] ∧ name ≠ dot ∧ name ≠ dotDot

theorem walkStep_ordinary (h : Ordinary c) : walkStep dir c = dir ++ [c] := by
  rw [walkStep, if_neg (not_or.mpr ⟨h.1, h.2.1⟩), if_neg h.2.2]

theorem walk_ordinary (h : ∀ name ∈ names, Ordinary name) : walk dir names = dir ++ names := by
  induction names generalizing dir with
  | nil => rw [walk_nil, List.append_nil]
  | cons name names ih =>
    rw [walk_cons, walkStep_ordinary (h name List.mem_cons_self),
      ih fun n hn ↦ h n (List.mem_cons_of_mem _ hn), List.append_assoc, List.singleton_append]

@[simp] theorem walkStep_empty : walkStep dir [] = dir := if_pos (.inl rfl)

theorem walk_replicate_empty (n : ℕ) : walk dir (List.replicate n []) = dir := by
  induction n with
  | zero => rfl
  | succ n ih => rw [List.replicate_succ, walk_cons, walkStep_empty, ih]

/-- What follows a path is walked from where the path leads. -/
theorem resolve_append_slash {cwd : List (List Char)} {path : List Char} (rest : List Char)
    (hne : path ≠ []) :
    resolve cwd (path ++ '/' :: rest) = walk (resolve cwd path) (components rest) := by
  obtain ⟨first, path, rfl⟩ := List.exists_cons_of_ne_nil hne
  rw [resolve, resolve, components_append_slash, walk_append]
  rfl

end Walking

/-- The path with so many slashes before its names -/
def spell (slashes : ℕ) (names : List (List Char)) : List Char :=
  List.replicate slashes '/' ++ joinNames names

section Spelling

variable {slashes slashes' : ℕ} {names names' : List (List Char)} {cwd : List (List Char)}

theorem spell_zero : spell 0 names = joinNames names := rfl

theorem spell_succ : spell (slashes + 1) names = '/' :: spell slashes names := by
  rw [spell, List.replicate_succ, List.cons_append]
  rfl

theorem spell_eq_nil (h : ∀ name ∈ names, IsName name) :
    spell slashes names = [] ↔ slashes = 0 ∧ names = [] := by
  rw [spell, List.append_eq_nil_iff, List.replicate_eq_nil_iff, joinNames_eq_nil h]

theorem head_spell (h : ∀ name ∈ names, IsName name) :
    (spell slashes names).head? = some '/' ↔ slashes ≠ 0 := by
  cases slashes with
  | zero =>
    rw [spell_zero]
    exact ⟨fun hhead ↦ absurd hhead (joinNames_head h), fun hne ↦ absurd rfl hne⟩
  | succ slashes =>
    rw [spell_succ]
    exact ⟨fun _ ↦ Nat.succ_ne_zero _, fun _ ↦ rfl⟩

theorem spell_inj (h : ∀ name ∈ names, IsName name) (h' : ∀ name ∈ names', IsName name) :
    spell slashes names = spell slashes' names' ↔ slashes = slashes' ∧ names = names' := by
  constructor
  · intro heq
    induction slashes generalizing slashes' with
    | zero =>
      have hzero : slashes' = 0 := by
        by_contra hne
        exact (head_spell h).mp (heq ▸ (head_spell h').mpr hne) rfl
      subst hzero
      rw [spell_zero, spell_zero] at heq
      refine ⟨rfl, ?_⟩
      by_cases hnil : names = []
      · rw [hnil] at heq
        rw [hnil, (joinNames_eq_nil h').mp heq.symm]
      · have hnil' : names' ≠ [] := by
          intro hnil'
          rw [hnil'] at heq
          exact hnil ((joinNames_eq_nil h).mp heq)
        rw [← components_joinNames h hnil, heq, components_joinNames h' hnil']
    | succ slashes ih =>
      cases slashes' with
      | zero =>
        have hhead : (spell (slashes + 1) names).head? = some '/' :=
          (head_spell h).mpr (Nat.succ_ne_zero _)
        rw [heq] at hhead
        exact absurd rfl ((head_spell h').mp hhead)
      | succ slashes' =>
        rw [spell_succ, spell_succ] at heq
        obtain ⟨hslashes, hnames⟩ := ih (List.cons_inj_right '/' |>.mp heq)
        exact ⟨by rw [hslashes], hnames⟩
  · intro hboth
    rw [hboth.1, hboth.2]

/-- A spelled path begins with another one and a slash if and only if it has its slashes, its names
and more. -/
theorem spell_slash_prefix (h : ∀ name ∈ names, IsName name) (h' : ∀ name ∈ names', IsName name)
    (hne : names ≠ []) : spell slashes names ++ ['/'] <+: spell slashes' names' ↔
      slashes = slashes' ∧ names <+: names' ∧ names ≠ names' := by
  induction slashes generalizing slashes' with
  | zero =>
    cases slashes' with
    | zero =>
      rw [spell_zero, spell_zero, joinNames_slash_prefix h h' hne]
      exact ⟨fun hmore ↦ ⟨rfl, hmore⟩, fun hmore ↦ hmore.2⟩
    | succ slashes' =>
      refine ⟨fun hbegins ↦ ?_, fun hzero ↦ absurd hzero.1 (Nat.succ_ne_zero _).symm⟩
      obtain ⟨rest, hrest⟩ := hbegins
      have hjoin : joinNames names ≠ [] := fun hnil ↦ hne ((joinNames_eq_nil h).mp hnil)
      obtain ⟨c, cs, hcs⟩ := List.exists_cons_of_ne_nil hjoin
      have hhead := joinNames_head h
      rw [spell_zero, spell_succ, hcs, List.append_assoc, List.cons_append] at hrest
      rw [hcs, (List.cons.inj hrest).1] at hhead
      exact absurd rfl hhead
  | succ slashes ih =>
    cases slashes' with
    | zero =>
      refine ⟨fun hbegins ↦ ?_, fun hzero ↦ absurd hzero.1 (Nat.succ_ne_zero _)⟩
      obtain ⟨rest, hrest⟩ := hbegins
      have hhead := joinNames_head h'
      rw [spell_zero, spell_succ] at hrest
      rw [← hrest] at hhead
      exact absurd rfl hhead
    | succ slashes' =>
      rw [spell_succ, spell_succ, List.cons_append, List.cons_prefix_cons, ih,
        Nat.succ_inj]
      exact ⟨fun hboth ↦ hboth.2, fun hboth ↦ ⟨rfl, hboth⟩⟩

theorem length_le_spell (h : ∀ name ∈ names, IsName name) :
    slashes + names.length ≤ (spell slashes names).length := by
  induction names generalizing slashes with
  | nil => simp [spell, joinNames]
  | cons name names ih =>
    have hname : 1 ≤ name.length := List.length_pos_of_ne_nil (h name List.mem_cons_self).1
    have hrest : slashes + names.length ≤ (spell slashes names).length :=
      ih fun n hn ↦ h n (List.mem_cons_of_mem name hn)
    rw [spell, List.length_append, List.length_replicate] at hrest ⊢
    by_cases hnil : names = []
    · rw [hnil, joinNames_singleton, List.length_singleton]
      omega
    · rw [joinNames_cons hnil, List.length_append, List.length_cons, List.length_cons]
      omega

theorem components_slashes (rest : List Char) :
    components (List.replicate slashes '/' ++ rest) =
      List.replicate slashes [] ++ components rest := by
  induction slashes with
  | zero => rfl
  | succ slashes ih =>
    have hsplit := components_append_slash [] (List.replicate slashes '/' ++ rest)
    rw [List.replicate_succ, List.cons_append, ← List.nil_append ('/' :: _), hsplit, ih,
      List.replicate_succ]
    rfl

theorem resolve_spell (h : ∀ name ∈ names, IsName name) :
    resolve cwd (spell slashes names) = walk (if slashes = 0 then cwd else []) names := by
  have hstart : (if (spell slashes names).head? = some '/' then [] else cwd) =
      if slashes = 0 then cwd else [] := by
    by_cases hzero : slashes = 0
    · rw [if_neg fun hhead ↦ (head_spell h).mp hhead hzero, if_pos hzero]
    · rw [if_pos ((head_spell h).mpr hzero), if_neg hzero]
  rw [resolve, hstart, spell, components_slashes, walk_append, walk_replicate_empty]
  by_cases hnil : names = []
  · rw [hnil]
    rfl
  · rw [components_joinNames h hnil]

end Spelling

end SlurmScheduler.Posix
