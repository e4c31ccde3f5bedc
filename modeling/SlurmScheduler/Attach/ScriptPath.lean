import SlurmScheduler.Attach.Nesting

namespace SlurmScheduler.Attach

open Shell Posix Slurm.Text
open Cleanup (joinPath join)

section Names

variable {cwd : List Text} {path leaf text name workspace : Text} {taskId : ℕ} {stamp : Stamp}
  {c : Char}

theorem ordinary_of_mem (hc : c ∈ name) (hne : c ≠ '.') : Ordinary name := by
  refine ⟨List.ne_nil_of_mem hc, ?_, ?_⟩
  · rintro rfl
    exact hne (List.mem_singleton.mp hc)
  · rintro rfl
    simp only [dotDot, List.mem_cons, List.not_mem_nil, or_false, or_self] at hc
    exact hne hc

theorem slash_notMem_number (n : ℤ) : '/' ∉ number n := by
  intro hc
  obtain hdigit | heq := mem_number hc
  · cases hdigit
  · cases heq

def scriptNames (taskId : ℕ) (stamp : Stamp) : List Text :=
  ["runs".toList, stamp.date, "task-".toList ++ number taskId ++ '-' :: number stamp.seconds,
    "task.sh".toList]

theorem slash_notMem_twoDigits (n : ℕ) : '/' ∉ twoDigits n := by
  rw [twoDigits]
  split
  · exact List.not_mem_cons_of_ne_of_not_mem (by decide) (slash_notMem_number n)
  · exact slash_notMem_number n

theorem slash_notMem_date (stamp : Stamp) : '/' ∉ stamp.date := by
  simp only [Stamp.date, List.mem_append, List.mem_cons, not_or]
  exact ⟨⟨slash_notMem_number _, by decide, slash_notMem_twoDigits _⟩, by decide,
    slash_notMem_twoDigits _⟩

theorem scriptNames_spec (taskId : ℕ) (stamp : Stamp) :
    ∀ name ∈ scriptNames taskId stamp, Ordinary name ∧ '/' ∉ name := by
  have hdate : '-' ∈ stamp.date := by simp [Stamp.date]
  have htask : 't' ∈ "task-".toList ++ number taskId ++ '-' :: number stamp.seconds := by
    rw [List.append_assoc]
    exact List.mem_append_left _ (by decide)
  have hslash : '/' ∉ "task-".toList ++ number taskId ++ '-' :: number stamp.seconds := by
    simp only [List.mem_append, List.mem_cons, not_or]
    exact ⟨⟨by decide, slash_notMem_number _⟩, by decide, slash_notMem_number _⟩
  simp only [scriptNames, List.forall_mem_cons]
  exact ⟨⟨ordinary_of_mem (c := 'r') (by decide) (by decide), by decide⟩,
    ⟨ordinary_of_mem hdate (by decide), slash_notMem_date stamp⟩,
    ⟨ordinary_of_mem htask (by decide), hslash⟩,
    ⟨ordinary_of_mem (c := 't') (by decide) (by decide), by decide⟩, nofun⟩

theorem join_join (hne : leaf ≠ []) (hlast : leaf.getLast? ≠ some '/') :
    join (join path leaf) text = join path (leaf ++ '/' :: text) := by
  have hjoined : join path leaf ≠ [] ∧ (join path leaf).getLast? ≠ some '/' := by
    rw [join]
    split
    · refine ⟨fun hnil ↦ hne (List.append_eq_nil_iff.mp hnil).2, ?_⟩
      rwa [List.getLast?_append_of_ne_nil _ hne]
    · refine ⟨fun hnil ↦ List.cons_ne_nil _ _ (List.append_eq_nil_iff.mp hnil).2, ?_⟩
      rw [List.getLast?_append_of_ne_nil _ (List.cons_ne_nil _ _), List.getLast?_cons_of_ne_nil hne]
      exact hlast
  have hcond : ¬ (join path leaf == [] || (join path leaf).getLast? == some '/') = true := by
    simpa using hjoined
  rw [join, if_neg hcond, join, join]
  split
  · rw [List.append_assoc]
  · rw [List.append_assoc, List.cons_append]

theorem joinPath_eq (h : leaf.head? ≠ some '/') : joinPath path leaf = join path leaf := if_neg h

theorem script_eq (workspace : Text) (taskId : ℕ) (stamp : Stamp) :
    (attemptPaths workspace taskId stamp).script =
      join workspace (joinNames (scriptNames taskId stamp)) := by
  have hnames : ∀ name ∈ scriptNames taskId stamp, name ≠ [] ∧ name.head? ≠ some '/' ∧
      name.getLast? ≠ some '/' := by
    intro name hname
    obtain ⟨hordinary, hslash⟩ := scriptNames_spec taskId stamp name hname
    exact ⟨hordinary.1, fun h ↦ hslash (List.mem_of_head? h), fun h ↦ hslash (List.mem_of_getLast? h)⟩
  simp only [scriptNames, List.forall_mem_cons] at hnames
  obtain ⟨⟨hruns, hruns', hruns''⟩, ⟨hdate, hdate', hdate''⟩, ⟨htask, htask', htask''⟩,
    ⟨-, hscript, -⟩, -⟩ := hnames
  have hpath : (attemptPaths workspace taskId stamp).script =
      join (join (join (join workspace "runs".toList) stamp.date)
        ("task-".toList ++ number taskId ++ '-' :: number stamp.seconds)) "task.sh".toList := by
    have hdir : (attemptPaths workspace taskId stamp).script =
        joinPath (remoteDir workspace taskId stamp) "task.sh".toList := by rw [attemptPaths]
    rw [hdir, remoteDir, workspaceRunsDir, joinPath_eq hscript, joinPath_eq htask',
      joinPath_eq hdate', joinPath_eq hruns']
  rw [hpath, join_join htask htask'', join_join hdate hdate'', join_join hruns hruns'',
    scriptNames, joinNames_cons (List.cons_ne_nil _ _), joinNames_cons (List.cons_ne_nil _ _),
    joinNames_cons (List.cons_ne_nil _ _), joinNames_singleton]

end Names

section Fields

variable {vars : Text → Text} {text rest : Text} {c : Char}

theorem stripChars_concat (hc : isSpace c = false) (text : Text) :
    stripChars (text ++ [c]) = (text ++ [c]).dropWhile isSpace := by
  have hneg : ¬ isSpace c = true := by rw [hc]; exact Bool.false_ne_true
  have hlast : ∃ front, (text ++ [c]).dropWhile isSpace = front ++ [c] := by
    rw [List.dropWhile_append]
    split
    · exact ⟨[], List.dropWhile_cons_of_neg hneg⟩
    · exact ⟨_, rfl⟩
  obtain ⟨front, hfront⟩ := hlast
  rw [stripChars, hfront, List.rdropWhile_concat_neg _ _ _ hneg]

theorem expandParts_home (rest : Text) :
    expandParts vars (scriptParts ("$HOME/".toList ++ rest)) =
      some (vars "HOME".toList ++ '/' :: rest) := by
  have hne : "$HOME/".toList ++ rest ≠ "$HOME".toList := by
    intro heq
    have hlength := congrArg List.length heq
    rw [List.length_append] at hlength
    have hlong : "$HOME/".toList.length = 6 := by decide
    have hshort : "$HOME".toList.length = 5 := by decide
    omega
  have hdrop : ("$HOME/".toList ++ rest).drop 5 = '/' :: rest := rfl
  rw [scriptParts, if_neg hne, if_pos (List.isPrefixOf_iff_prefix.mpr (List.prefix_append _ _)),
    hdrop, expandParts, Part.value, if_pos rfl, expandParts_chars]
  rfl

theorem expandParts_absolute (h : text.head? = some '/') :
    expandParts vars (scriptParts text) = some text := by
  obtain ⟨rest, rfl⟩ := List.head?_eq_some_iff.mp h
  have hne : '/' :: rest ≠ "$HOME".toList := by
    intro heq
    exact absurd (List.cons.inj heq).1 (by decide)
  have hbegins : ¬ "$HOME/".toList.isPrefixOf ('/' :: rest) = true := by
    intro hbegins
    obtain ⟨last, heq⟩ := List.isPrefixOf_iff_prefix.mp hbegins
    exact absurd (List.cons.inj heq).1 (by decide)
  rw [scriptParts, if_neg hne, if_neg hbegins, expandParts_chars]

end Fields

section Walks

variable {dir dir' names : List Text} {workspace tail name : Text}

theorem components_append_of_notMem {front : Text} (h : '/' ∉ front) (rest : Text) :
    components (front ++ rest) = (components rest).modifyHead (front ++ ·) := by
  induction front with
  | nil =>
    cases hsplit : components rest with
    | nil => exact absurd hsplit (components_ne_nil rest)
    | cons first last => rw [List.nil_append, hsplit, List.modifyHead_cons, List.nil_append]
  | cons c front ih =>
    have hc : c ≠ '/' := fun hc ↦ h (hc ▸ List.mem_cons_self)
    rw [List.cons_append, components_cons, if_neg hc, ih (List.not_mem_of_not_mem_cons h),
      List.modifyHead_modifyHead]
    rfl

/-- Without a step back, where a path leads depends on where it starts. -/
theorem walk_injective (h : dotDot ∉ names) (heq : walk dir names = walk dir' names) :
    dir = dir' := by
  induction names generalizing dir dir' with
  | nil => exact heq
  | cons name names ih =>
    have hstep := ih (List.not_mem_of_not_mem_cons h) heq
    have hname : name ≠ dotDot := fun hname ↦ h (hname ▸ List.mem_cons_self)
    rw [walkStep, walkStep] at hstep
    rw [if_neg hname, if_neg hname] at hstep
    split at hstep
    · exact hstep
    · exact List.append_cancel_right hstep

theorem mem_components_join (h : name ∈ components (join workspace tail)) :
    name ∈ components workspace ∨ name ∈ components tail := by
  rw [join] at h
  split at h
  · rename_i hcond
    rw [Bool.or_eq_true, beq_iff_eq, beq_iff_eq] at hcond
    obtain rfl | hlast := hcond
    · exact .inr h
    · obtain ⟨front, rfl⟩ := List.getLast?_eq_some_iff.mp hlast
      rw [List.append_assoc, List.singleton_append, components_append_slash,
        List.mem_append] at h
      rw [components_append_slash, List.mem_append]
      exact h.imp_left .inl
  · rwa [components_append_slash, List.mem_append] at h

end Walks

section Found

variable {vars : Text → Text} {home : List Text} {blanks text rest workspace : Text} {taskId : ℕ}
  {stamp : Stamp}

def startField (vars : Text → Text) (path : Text) : Text :=
  if path.head? = some '/' then path
  else if "~/".toList.isPrefixOf path then vars "HOME".toList ++ '/' :: path.drop 2
  else vars "HOME".toList ++ '/' :: path

theorem expandParts_start {c : Char} (hc : isSpace c = false) (hmark : c ≠ '~') :
    expandParts vars (scriptParts (remoteExecutionPath (text ++ [c]))) =
      some (startField vars ((text ++ [c]).dropWhile isSpace)) := by
  have hlast : ∃ front, (text ++ [c]).dropWhile isSpace = front ++ [c] := by
    have hneg : ¬ isSpace c = true := by rw [hc]; exact Bool.false_ne_true
    rw [List.dropWhile_append]
    split
    · exact ⟨[], List.dropWhile_cons_of_neg hneg⟩
    · exact ⟨_, rfl⟩
  obtain ⟨front, hfront⟩ := hlast
  have hhome : front ++ [c] ≠ ['~'] := by
    intro heq
    rw [← List.nil_append ['~']] at heq
    exact hmark (List.append_inj_right' heq rfl |> List.singleton_inj.mp)
  have hne : ∀ front : Text, front ++ [c] ≠ [] := fun front ↦ by simp
  simp only [remoteExecutionPath, if_neg (hne text), stripChars_concat hc, hfront, if_neg (hne front),
    startField]
  split
  · rename_i habsolute
    exact expandParts_absolute habsolute
  · split
    · exact expandParts_home _
    · exact expandParts_home _

/-- Where the start leads, below the home directory or from the root -/
theorem resolve_start (hhome : (vars "HOME".toList).head? = some '/')
    (hroot : resolve [] (vars "HOME".toList) = home) (path : Text) :
    resolve home (startField vars path) =
      if path.head? = some '/' then resolve home path
      else if "~/".toList.isPrefixOf path then walk home (components (path.drop 2))
      else resolve home path := by
  have hne : vars "HOME".toList ≠ [] := fun hnil ↦ by rw [hnil] at hhome; cases hhome
  have hroot : resolve home (vars "HOME".toList) = home := by
    rw [resolve, if_pos hhome] at hroot ⊢
    exact hroot
  rw [startField]
  split
  · rfl
  · rename_i habsolute
    split
    · rw [resolve_append_slash _ hne, hroot]
    · rw [resolve_append_slash _ hne, hroot, resolve, if_neg habsolute]

/-- A workspace that is a path from the root or from the home directory as it stands -/
def StartsPlain (workspace : Text) : Prop :=
  (∀ c ∈ workspace.head?, isSpace c = false) ∧ workspace ≠ ['~'] ∧ ¬ "~/".toList <+: workspace

theorem join_begins (workspace tail : Text) : workspace <+: join workspace tail := by
  rw [join]
  split
  · exact List.prefix_append _ _
  · exact List.prefix_append _ _

theorem join_suffix (workspace tail : Text) : tail <:+ join workspace tail := by
  rw [join]
  split
  · exact List.suffix_append _ _
  · exact (List.suffix_cons '/' tail).trans (List.suffix_append _ _)

theorem tilde_prefix_join {tail : Text} (htail : tail.head? ≠ some '~') :
    "~/".toList <+: join workspace tail ↔ workspace = ['~'] ∨ "~/".toList <+: workspace := by
  have htilde : "~/".toList = ['~', '/'] := by decide
  rw [htilde]
  constructor
  · intro h
    match workspace with
    | [] =>
      obtain ⟨rest, hrest⟩ := h
      have hjoin : join [] tail = tail := rfl
      rw [hjoin] at hrest
      exact absurd (by rw [← hrest]; rfl) htail
    | [c] =>
      have hc : c = '~' := by
        have hhead := (List.prefix_iff_eq_take.mp (join_begins [c] tail))
        obtain ⟨rest, hrest⟩ := h
        rw [← hrest] at hhead
        exact (List.cons.inj hhead).1
      exact .inl (by rw [hc])
    | c :: d :: workspace =>
      refine .inr ?_
      obtain ⟨last, hlast⟩ := join_begins (c :: d :: workspace) tail
      rw [← hlast] at h
      have hboth := (List.cons_prefix_cons.mp h)
      have hsecond := (List.cons_prefix_cons.mp hboth.2)
      rw [hboth.1, hsecond.1]
      exact ⟨workspace, rfl⟩
  · rintro (rfl | h)
    · exact ⟨tail, rfl⟩
    · exact h.trans (join_begins workspace tail)

theorem walkStep_ne (dir : List Text) (name : Text) {before : Text} (hbefore : before ≠ []) :
    walkStep dir name ≠ dir ++ [before ++ name] := by
  intro heq
  rw [walkStep] at heq
  split at heq
  · have hlength := congrArg List.length heq
    rw [List.length_append, List.length_singleton] at hlength
    omega
  · split at heq
    · have hlength := congrArg List.length heq
      rw [List.length_dropLast, List.length_append, List.length_singleton] at hlength
      omega
    · have hname := List.singleton_inj.mp (List.append_cancel_left heq)
      exact hbefore (List.append_left_eq_self.mp hname.symm)

/-- From a workspace that starts with a blank the script is started somewhere else. -/
theorem start_blank (hhome : (vars "HOME".toList).head? = some '/')
    (hroot : resolve [] (vars "HOME".toList) = home) {path : Text}
    (hblank : ∃ c ∈ path.head?, isSpace c = true) (hback : dotDot ∉ components path) :
    resolve home (startField vars (path.dropWhile isSpace)) ≠ resolve home path := by
  intro heq
  obtain ⟨c, hc, hspace⟩ := hblank
  obtain ⟨rest, rfl⟩ := List.head?_eq_some_iff.mp hc
  have hfront : (c :: rest).takeWhile isSpace = c :: rest.takeWhile isSpace :=
    List.takeWhile_cons_of_pos hspace
  have hslash : '/' ∉ c :: rest.takeWhile isSpace := by
    rw [← hfront]
    intro hmem
    exact absurd (List.mem_takeWhile_imp hmem) (by decide)
  have hsplit : (c :: rest.takeWhile isSpace) ++ rest.dropWhile isSpace = c :: rest := by
    rw [List.cons_append, List.takeWhile_append_dropWhile]
  have hdrop : (c :: rest).dropWhile isSpace = rest.dropWhile isSpace :=
    List.dropWhile_cons_of_pos hspace
  have hnoslash : c ≠ '/' := fun hc ↦ hslash (hc ▸ List.mem_cons_self)
  rw [hdrop, resolve_start hhome hroot] at heq
  have hname : ∀ name, Ordinary ((c :: rest.takeWhile isSpace) ++ name) := by
    intro name
    refine ordinary_of_mem (List.mem_append_left _ List.mem_cons_self) ?_
    rintro rfl
    cases hspace
  have hnames := components_append_of_notMem hslash (rest.dropWhile isSpace)
  rw [hsplit] at hnames
  cases hafter : components (rest.dropWhile isSpace) with
  | nil => exact components_ne_nil _ hafter
  | cons first last =>
    rw [hafter, List.modifyHead_cons] at hnames
    have hlast : dotDot ∉ last := fun hmem ↦
      hback (hnames ▸ List.mem_cons_of_mem _ hmem)
    have hwritten : resolve home (c :: rest) =
        walk (home ++ [(c :: rest.takeWhile isSpace) ++ first]) last := by
      have hrelative : ¬ (c :: rest).head? = some '/' := fun h ↦ hnoslash (Option.some.inj h)
      rw [resolve, if_neg hrelative, hnames, walk_cons, walkStep_ordinary (hname first)]
    rw [hwritten] at heq
    split at heq
    · rename_i habsolute
      obtain ⟨below, hbelow⟩ := List.head?_eq_some_iff.mp habsolute
      rw [resolve, if_pos habsolute, hafter, walk_cons] at heq
      rw [hbelow, components_cons, if_pos rfl] at hafter
      rw [← (List.cons.inj hafter).1, walkStep_empty] at heq
      have hnil := walk_injective hlast heq
      simp at hnil
    · split at heq
      · rename_i hbegins
        obtain ⟨below, hbelow⟩ := List.isPrefixOf_iff_prefix.mp hbegins
        have hdrop : ("~/".toList ++ below).drop 2 = below := rfl
        have hcomponents : components ("~/".toList ++ below) = ['~'] :: components below :=
          components_append_slash ['~'] below
        rw [← hbelow, hcomponents] at hafter
        rw [← hbelow, hdrop, (List.cons.inj hafter).2] at heq
        have hlength := congrArg List.length (walk_injective hlast heq)
        rw [List.length_append, List.length_singleton] at hlength
        omega
      · rename_i habsolute _
        rw [resolve, if_neg habsolute, hafter, walk_cons] at heq
        exact walkStep_ne home first (List.cons_ne_nil _ _) (walk_injective hlast heq)

/-- From a workspace below a tilde the script is started one directory higher. -/
theorem start_tilde (hhome : (vars "HOME".toList).head? = some '/')
    (hroot : resolve [] (vars "HOME".toList) = home) (hback : dotDot ∉ components rest) :
    resolve home (startField vars ("~/".toList ++ rest)) ≠ resolve home ("~/".toList ++ rest) := by
  intro heq
  have hbegins : "~/".toList.isPrefixOf ("~/".toList ++ rest) = true :=
    List.isPrefixOf_iff_prefix.mpr (List.prefix_append _ _)
  have habsolute : ¬ ("~/".toList ++ rest).head? = some '/' := fun h ↦
    absurd (Option.some.inj h) (by decide)
  have hdrop : ("~/".toList ++ rest).drop 2 = rest := rfl
  have hcomponents : components ("~/".toList ++ rest) = ['~'] :: components rest :=
    components_append_slash ['~'] rest
  rw [resolve_start hhome hroot, if_neg habsolute, if_pos hbegins, hdrop, resolve, if_neg habsolute,
    hcomponents, walk_cons] at heq
  have hstep := walk_injective hback heq
  rw [walkStep_ordinary (ordinary_of_mem List.mem_cons_self (by decide))] at hstep
  have hlength := congrArg List.length hstep
  rw [List.length_append, List.length_singleton] at hlength
  omega

theorem startsPlain_iff {tail : Text} (htail : ∀ c ∈ tail.head?, c ≠ '~' ∧ isSpace c = false) :
    StartsPlain workspace ↔ (¬ ∃ c ∈ (join workspace tail).head?, isSpace c = true) ∧
      ¬ "~/".toList <+: join workspace tail := by
  have htilde : tail.head? ≠ some '~' := fun h ↦ (htail '~' h).1 rfl
  have hblank : (∀ c ∈ workspace.head?, isSpace c = false) ↔
      ¬ ∃ c ∈ (join workspace tail).head?, isSpace c = true := by
    cases workspace with
    | nil =>
      have hjoin : join [] tail = tail := rfl
      rw [hjoin]
      refine ⟨fun _ ⟨c, hc, hspace⟩ ↦ ?_, fun _ ↦ nofun⟩
      rw [(htail c hc).2] at hspace
      cases hspace
    | cons c workspace =>
      have hhead : (join (c :: workspace) tail).head? = some c := by
        obtain ⟨last, hlast⟩ := join_begins (c :: workspace) tail
        rw [← hlast]
        rfl
      rw [hhead]
      simp
  rw [StartsPlain, hblank, tilde_prefix_join htilde, not_or]

/-- The script that a task starts is the one that was written exactly where the account's
workspace starts with no blank and is not below a tilde, if nothing in it leads back. -/
theorem script_found (workspace : Text) (taskId : ℕ) (stamp : Stamp)
    (hhome : (vars "HOME".toList).head? = some '/') :
    let home := resolve [] (vars "HOME".toList)
    let script := (attemptPaths workspace taskId stamp).script
    ∃ field, expandParts vars (scriptParts (remoteExecutionPath script)) = some field ∧
      (StartsPlain workspace → resolve home field = resolve home script) ∧
      (dotDot ∉ components workspace → resolve home field = resolve home script →
        StartsPlain workspace) := by
  intro home script
  have hscript : script = join workspace (joinNames (scriptNames taskId stamp)) :=
    script_eq workspace taskId stamp
  have htail : ∀ c ∈ (joinNames (scriptNames taskId stamp)).head?, c ≠ '~' ∧ isSpace c = false := by
    rw [scriptNames, joinNames_cons (List.cons_ne_nil _ _)]
    intro c hc
    cases hc
    decide
  have hlast : ['h'] <:+ script := by
    have hnames : scriptNames taskId stamp =
        (scriptNames taskId stamp).take 3 ++ ["task.sh".toList] := rfl
    have hne : (scriptNames taskId stamp).take 3 ≠ [] := List.cons_ne_nil _ _
    rw [hscript, hnames, joinNames_append hne (List.cons_ne_nil _ _), joinNames_singleton]
    exact (List.IsSuffix.trans ⟨"/task.s".toList, rfl⟩ (List.suffix_append _ _)).trans
      (join_suffix _ _)
  obtain ⟨front, hfront⟩ := hlast
  rw [eq_comm] at hfront
  refine ⟨startField vars (script.dropWhile isSpace), ?field, ?found, ?lost⟩
  case field =>
    rw [hfront]
    exact expandParts_start (by decide) (by decide)
  case found =>
    intro hplain
    rw [startsPlain_iff htail, ← hscript] at hplain
    obtain ⟨hblank, htilde⟩ := hplain
    have hdrop : script.dropWhile isSpace = script := by
      cases hcases : script with
      | nil => rfl
      | cons c rest =>
        rw [hcases] at hblank
        exact List.dropWhile_cons_of_neg fun hspace ↦ hblank ⟨c, rfl, hspace⟩
    have hbegins : ¬ "~/".toList.isPrefixOf script = true := fun h ↦
      htilde (List.isPrefixOf_iff_prefix.mp h)
    rw [hdrop, resolve_start hhome rfl, if_neg hbegins, ite_self]
  case lost =>
    intro hback heq
    rw [startsPlain_iff htail, ← hscript]
    have hback' : dotDot ∉ components script := by
      intro hmem
      rw [hscript] at hmem
      obtain hmem | hmem := mem_components_join hmem
      · exact hback hmem
      · rw [components_joinNames (fun name hname ↦ ⟨(scriptNames_spec taskId stamp name hname).1.1,
          (scriptNames_spec taskId stamp name hname).2⟩) (List.cons_ne_nil _ _)] at hmem
        exact (scriptNames_spec taskId stamp dotDot hmem).1.2.2 rfl
    refine ⟨fun hblank ↦ start_blank hhome rfl hblank hback' heq, ?_⟩
    rintro ⟨rest, hrest⟩
    have hdrop : ("~/".toList ++ rest).dropWhile isSpace = "~/".toList ++ rest :=
      List.dropWhile_cons_of_neg (by decide)
    have hcomponents : components ("~/".toList ++ rest) = ['~'] :: components rest :=
      components_append_slash ['~'] rest
    rw [← hrest, hdrop] at heq
    rw [← hrest, hcomponents] at hback'
    exact start_tilde hhome rfl (List.not_mem_of_not_mem_cons hback') heq

/-- A workspace below a tilde -/
theorem script_found_tilde :
    let vars : Text → Text := fun _ ↦ "/home/user".toList
    let script := (attemptPaths "~/work".toList 7 ⟨5, 2026, 1, 2⟩).script
    ∃ field, expandParts vars (scriptParts (remoteExecutionPath script)) = some field ∧
      resolve ["home".toList, "user".toList] field ≠
        resolve ["home".toList, "user".toList] script := by
  intro vars script
  have hhome : resolve [] (vars "HOME".toList) = ["home".toList, "user".toList] := by decide
  have habsolute : (vars "HOME".toList).head? = some '/' := by decide
  obtain ⟨field, hfield, -, hlost⟩ :=
    script_found "~/work".toList 7 ⟨5, 2026, 1, 2⟩ habsolute
  refine ⟨field, hfield, fun heq ↦ ?_⟩
  rw [← hhome] at heq
  obtain ⟨-, -, htilde⟩ := hlost (by decide) heq
  exact htilde ⟨"work".toList, rfl⟩

end Found

end SlurmScheduler.Attach
