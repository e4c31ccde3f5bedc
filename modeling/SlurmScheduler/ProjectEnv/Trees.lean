import SlurmScheduler.ProjectEnv.Scripts

namespace SlurmScheduler.ProjectEnv

open Posix Shell Slurm.Text
open Cleanup (join joinPath)

inductive Act
  | reads
  | writes (path : Text)
  | makes (path : Text)
  /-- A clone, which makes the directories above it -/
  | clones (path : Text)

def act : List Text → Option Act
  | [] => none
  | program :: args =>
      if program = "[".toList ∨ program = "dirname".toList then some .reads
      else if program = "rm".toList ∧ args.take 2 = ["-rf".toList, "--".toList] then
        match args.drop 2 with
        | [path] => some (.writes path)
        | _ => none
      else if program = "mkdir".toList then
        match args with
        | [option, path] => if option = "-p".toList then some (.makes path) else none
        | [option, stop, path] =>
            if option = "-p".toList ∧ stop = "--".toList then some (.makes path) else none
        | _ => none
      else if program = "git".toList then
        match args with
        | verb :: path :: rest =>
            if verb = "-C".toList then some (.writes path)
            else if verb = "clone".toList then (path :: rest).getLast?.map .clones
            else none
        | _ => none
      else none

/-- The directory that a command writes, makes or clones into -/
def actsOn (cwd : List (List Char)) (argv : List Text) : Option (List (List Char)) :=
  match act argv with
  | some (.writes path) | some (.makes path) | some (.clones path) => some (resolve cwd path)
  | _ => none

/-- Everything that is written lies strictly below the tree, and everything that is made in it. -/
def Confined (cwd tree : List (List Char)) (argv : List Text) : Prop :=
  match act argv with
  | some .reads => True
  | some (.writes path) | some (.clones path) =>
      tree <+: resolve cwd path ∧ tree ≠ resolve cwd path
  | some (.makes path) => tree <+: resolve cwd path
  | none => False

theorem Confined.actsOn {cwd tree dir : List (List Char)} {argv : List Text}
    (h : Confined cwd tree argv) (hdir : actsOn cwd argv = some dir) : tree <+: dir := by
  unfold Confined at h
  unfold ProjectEnv.actsOn at hdir
  split at hdir
  · rename_i path hact
    rw [hact] at h
    cases hdir
    exact h.1
  · rename_i path hact
    rw [hact] at h
    cases hdir
    exact h
  · rename_i path hact
    rw [hact] at h
    cases hdir
    exact h.1
  · cases hdir

/-- A directory lies in one of two trees that stand side by side. -/
theorem trees_apart {upper dir : List (List Char)} {own other : List Char}
    (hown : upper ++ [own] <+: dir) (hother : upper ++ [other] <+: dir) : own = other := by
  have hsame := List.prefix_of_prefix_length_le hown hother (by simp)
  have heq := hsame.eq_of_length (by simp)
  exact (List.cons.inj (List.append_cancel_left heq)).1

def parentDirectory (path : Text) : Text :=
  let path := path.rdropWhile (· == '/')
  let upper := path.rdropWhile (· != '/')
  if path = [] then ['/']
  else if upper = [] then ['.']
  else
    let upper := upper.rdropWhile (· == '/')
    if upper = [] then ['/'] else upper

/-- A machine of these files on which `dirname` prints what it should -/
def host (cwd : List (List Char)) (files : ℕ → Files) (others : World) : World :=
  fun time argv ↦
    match argv with
    | [program, path] =>
        if program = "dirname".toList then { output := parentDirectory path ++ ['\n'] }
        else machine cwd files others time argv
    | _ => machine cwd files others time argv

theorem host_dirname {cwd : List (List Char)} {files : ℕ → Files} {others : World} {time : ℕ}
    {path : Text} : host cwd files others time ["dirname".toList, path] =
      { output := parentDirectory path ++ ['\n'] } := by
  rw [host, if_pos rfl]

structure PlainName (name : List Char) : Prop where
  isName : IsName name
  ordinary : Ordinary name
  line : '\n' ∉ name

def PlainPath (path : Text) : Prop := ∀ name ∈ components path, PlainName name

section Paths

variable {cwd : List (List Char)} {home root : Text} {names : List (List Char)} {name path : Text}

def below (home root : Text) (names : List (List Char)) : Text :=
  (home ++ '/' :: root) ++ '/' :: joinNames names

theorem resolve_below (h : ∀ name ∈ names, PlainName name) (hne : names ≠ []) :
    resolve cwd (below home root names) = resolve cwd (home ++ '/' :: root) ++ names := by
  rw [below, resolve_append_slash _ (by simp),
    components_joinNames (fun name hname ↦ (h name hname).isName) hne,
    walk_ordinary fun name hname ↦ (h name hname).ordinary]

theorem stripSlashes_of_ends (hhead : path.head? ≠ some '/') (hlast : path.getLast? ≠ some '/') :
    stripSlashes path = path := by
  have hdrop : path.dropWhile (· == '/') = path := by
    cases path with
    | nil => rfl
    | cons c rest =>
      rw [List.dropWhile_cons_of_neg]
      intro hc
      exact hhead (congrArg some (beq_iff_eq.mp hc))
  rw [stripSlashes, hdrop, List.rdropWhile_eq_self_iff]
  intro hne hc
  apply hlast
  rw [List.getLast?_eq_some_getLast hne, beq_iff_eq.mp hc]

theorem stripSlashes_head (path : Text) : (stripSlashes path).head? ≠ some '/' := by
  intro hhead
  rw [stripSlashes] at hhead
  obtain ⟨rest, hrest⟩ := List.head?_eq_some_iff.mp hhead
  obtain ⟨more, hmore⟩ := List.rdropWhile_prefix (· == '/') (path.dropWhile (· == '/'))
  rw [hrest, List.cons_append] at hmore
  have hdrop := List.head?_dropWhile_not (· == '/') path
  rw [← hmore] at hdrop
  exact absurd hdrop (by simp)

theorem stripSlashes_getLast (path : Text) : (stripSlashes path).getLast? ≠ some '/' := by
  intro hlast
  rw [stripSlashes] at hlast
  have hne : (path.dropWhile (· == '/')).rdropWhile (· == '/') ≠ [] := by
    intro hnil
    rw [hnil] at hlast
    cases hlast
  have hnot := List.rdropWhile_last_not (· == '/') (path.dropWhile (· == '/')) hne
  rw [List.getLast?_eq_some_getLast hne] at hlast
  exact hnot (by rw [Option.some.inj hlast]; rfl)

/-- The root of the projects is not empty and has no slash at its ends. -/
theorem storedRoot_spec (given : Text) : storedRoot given ≠ [] ∧
    (storedRoot given).head? ≠ some '/' ∧ (storedRoot given).getLast? ≠ some '/' := by
  have hroot : storedRoot given =
      if stripSlashes (if given = [] then defaultRoot else given) = [] then defaultRoot
      else stripSlashes (if given = [] then defaultRoot else given) := rfl
  rw [hroot]
  by_cases hnil : stripSlashes (if given = [] then defaultRoot else given) = []
  · rw [if_pos hnil]
    exact ⟨by decide, by decide, by decide⟩
  · rw [if_neg hnil]
    exact ⟨hnil, stripSlashes_head _, stripSlashes_getLast _⟩

theorem joinPath_eq (hroot : root ≠ []) (hlast : root.getLast? ≠ some '/')
    (hhead : path.head? ≠ some '/') : joinPath root path = root ++ '/' :: path := by
  rw [joinPath, if_neg hhead, join, if_neg]
  simp only [Bool.or_eq_true, beq_iff_eq, not_or]
  exact ⟨hroot, hlast⟩

theorem plain_joinNames (h : ∀ name ∈ names, PlainName name) :
    (joinNames names).head? ≠ some '/' ∧ (joinNames names).getLast? ≠ some '/' :=
  ⟨joinNames_head fun name hname ↦ (h name hname).isName,
    joinNames_getLast fun name hname ↦ (h name hname).isName⟩

/-- The directory of a path below the root of the projects -/
theorem homeDir_below (home : Text) (hroot : root ≠ [] ∧ root.head? ≠ some '/' ∧ root.getLast? ≠ some '/')
    (h : ∀ name ∈ names, PlainName name) (hne : names ≠ []) :
    homeDir home (root ++ '/' :: joinNames names) = below home root names := by
  have hjoin : joinNames names ≠ [] := fun hnil ↦
    hne ((joinNames_eq_nil fun name hname ↦ (h name hname).isName).mp hnil)
  have hstrip : stripSlashes (root ++ '/' :: joinNames names) = root ++ '/' :: joinNames names := by
    apply stripSlashes_of_ends
    · obtain ⟨c, rest, hc⟩ := List.exists_cons_of_ne_nil hroot.1
      rw [hc, List.cons_append, List.head?_cons]
      have hhead := hroot.2.1
      rwa [hc, List.head?_cons] at hhead
    · rw [List.getLast?_append_of_ne_nil _ (List.cons_ne_nil _ _), List.getLast?_cons_of_ne_nil hjoin]
      exact (plain_joinNames h).2
  rw [homeDir, hstrip, below, List.append_assoc, List.cons_append]

/-- The directory above a path below the root of the projects -/
theorem parent_below {last : List Char} (h : ∀ name ∈ names ++ [last], PlainName name)
    (hne : names ≠ []) :
    chomped (parentDirectory (below home root (names ++ [last])) ++ ['\n']) =
      below home root names := by
  have hupper : ∀ name ∈ names, PlainName name := fun name hname ↦ h name (List.mem_append_left _ hname)
  have hlast := (h last (by simp)).isName
  have hjoin : joinNames names ≠ [] := fun hnil ↦
    hne ((joinNames_eq_nil fun name hname ↦ (hupper name hname).isName).mp hnil)
  have hsplit : below home root (names ++ [last]) = below home root names ++ '/' :: last := by
    rw [below, below, joinNames_append hne (List.cons_ne_nil _ _), joinNames_singleton]
    simp
  have hend : (below home root names).getLast? = (joinNames names).getLast? := by
    rw [below, List.getLast?_append_of_ne_nil _ (List.cons_ne_nil _ _),
      List.getLast?_cons_of_ne_nil hjoin]
  have hX : below home root names ≠ [] := by simp [below]
  have hstop : ∀ c : Char, (joinNames names).getLast? ≠ some c →
      (below home root names).rdropWhile (· == c) = below home root names := by
    intro c hc
    rw [List.rdropWhile_eq_self_iff]
    intro hne' heq
    apply hc
    rw [← hend, List.getLast?_eq_some_getLast hne', beq_iff_eq.mp heq]
  have hslash := (plain_joinNames hupper).2
  have hline : (joinNames names).getLast? ≠ some '\n' := by
    intro heq
    obtain hslash' | ⟨name, hname, hc⟩ := mem_joinNames (List.mem_of_getLast? heq)
    · exact absurd hslash' (by decide)
    · exact (hupper name hname).line hc
  have hwhole : (below home root names ++ '/' :: last).rdropWhile (· == '/') =
      below home root names ++ '/' :: last := by
    rw [List.rdropWhile_eq_self_iff]
    intro hne' heq
    apply hlast.2
    have hc : (below home root names ++ '/' :: last).getLast? = some '/' := by
      rw [List.getLast?_eq_some_getLast hne', beq_iff_eq.mp heq]
    rw [List.getLast?_append_of_ne_nil _ (List.cons_ne_nil _ _),
      List.getLast?_cons_of_ne_nil hlast.1] at hc
    exact List.mem_of_getLast? hc
  have hparts : (below home root names ++ '/' :: last).rdropWhile (· != '/') =
      below home root names ++ ['/'] :=
    Cleanup.dropWhile_last_slash hlast.2
  have hparent : parentDirectory (below home root (names ++ [last])) = below home root names := by
    rw [hsplit, parentDirectory]
    simp only [hwhole, hparts]
    rw [if_neg (by simp), if_neg (by simp), List.rdropWhile_concat_pos _ _ _ rfl, hstop '/' hslash,
      if_neg hX]
  rw [hparent, chomped]
  exact (List.rdropWhile_concat_pos (· == '\n') _ '\n' rfl).trans (hstop '\n' hline)

end Paths

section Runs

variable {cwd : List (List Char)} {files : ℕ → Files} {others : World} {strict : Bool}
  {home root name : Text} {names : List (List Char)}

structure Deploying (cwd tree : List (List Char)) (path : Text) (s : State) : Prop where
  confined : ∀ e ∈ s.events, Confined cwd tree e.argv
  dest : s.vars Script.dest = path

section Steps

open Script

variable {world : World} {tree : List (List Char)} {path other : Text} {argv args : List Word}
  {P : State → Prop}

theorem act_git (path : Text) (rest : List Text) :
    act ("git".toList :: "-C".toList :: path :: rest) = some (.writes path) := rfl

theorem act_rm (path : Text) :
    act ["rm".toList, "-rf".toList, "--".toList, path] = some (.writes path) := rfl

theorem act_mkdir (path : Text) : act ["mkdir".toList, "-p".toList, path] = some (.makes path) := rfl

theorem act_mkdir_stop (path : Text) :
    act ["mkdir".toList, "-p".toList, "--".toList, path] = some (.makes path) := rfl

theorem act_clone (option : Text) (rest : List Text) (path : Text) :
    act ("git".toList :: "clone".toList :: option :: (rest ++ [path])) = some (.clones path) := by
  have hlast : (option :: (rest ++ [path])).getLast? = some path := by
    rw [← List.cons_append, List.getLast?_concat]
  have hact : act ("git".toList :: "clone".toList :: option :: (rest ++ [path])) =
      (option :: (rest ++ [path])).getLast?.map .clones := rfl
  rw [hact, hlast]
  rfl

theorem triple_call (hP : ∀ s, P s → Deploying cwd tree path s)
    (hargv : ∀ s, P s → Confined cwd tree (argv.map (·.value s.vars))) :
    Triple world strict P (.run argv) (Deploying cwd tree path) (Deploying cwd tree path) := by
  intro s _ hp
  have hkept : Deploying cwd tree path (exec world strict (.run argv) s) := by
    refine ⟨?_, (hP s hp).dest⟩
    intro e he
    obtain hold | hnew := List.mem_append.mp he
    · exact (hP s hp).confined e hold
    · rw [List.mem_singleton.mp hnew]
      exact hargv s hp
  exact ⟨fun _ ↦ hkept, fun _ ↦ hkept⟩

theorem triple_captured (hname : other ≠ dest)
    (hargv : ∀ s, Deploying cwd tree path s → Confined cwd tree (argv.map (·.value s.vars))) :
    Triple world strict (Deploying cwd tree path) (.capture other argv) (Deploying cwd tree path)
      (Deploying cwd tree path) := by
  intro s _ hp
  have hkept : Deploying cwd tree path (exec world strict (.capture other argv) s) := by
    refine ⟨?_, (State.set_vars_of_ne _ _ (Ne.symm hname)).trans hp.dest⟩
    intro e he
    obtain hold | hnew := List.mem_append.mp he
    · exact hp.confined e hold
    · rw [List.mem_singleton.mp hnew]
      exact hargv s hp
  exact ⟨fun _ ↦ hkept, fun _ ↦ hkept⟩

theorem triple_tested : Triple world strict (Deploying cwd tree path) (.test args)
    (Deploying cwd tree path) (Deploying cwd tree path) := by
  apply triple_call fun s hs ↦ hs
  intro s _
  rw [List.cons_append, List.map_cons, Word.value_lit]
  exact trivial

def Strictly (cwd tree : List (List Char)) (path : Text) : Prop :=
  tree <+: resolve cwd path ∧ tree ≠ resolve cwd path

theorem value_dest (vars : Vars) : destWord.value vars = vars dest := List.append_nil _

theorem confined_git (hpath : Strictly cwd tree path) (args : List Word) (s : State)
    (hs : Deploying cwd tree path s) :
    Confined cwd tree ((git args).map (·.value s.vars)) := by
  have hargv : (git args).map (·.value s.vars) =
      "git".toList :: "-C".toList :: path :: args.map (·.value s.vars) := by
    rw [git, List.map_cons, List.map_cons, List.map_cons, value_dest, hs.dest, word, word,
      Word.value_lit, Word.value_lit]
  rw [hargv, Confined, act_git]
  exact hpath

theorem triple_git (hpath : Strictly cwd tree path) (args : List Word) :
    Triple world strict (Deploying cwd tree path) (.run (git args)) (Deploying cwd tree path)
      (Deploying cwd tree path) :=
  triple_call (fun _ hs ↦ hs) (confined_git hpath args)

end Steps

section Scripts

open Script

variable {tree : List (List Char)} {path upper : Text}

/-- The destination is removed, its parent made and the repository cloned. -/
theorem triple_cloneAnew (hpath : Strictly cwd tree path)
    (hparent : chomped (parentDirectory path ++ ['\n']) = upper)
    (hupper : tree <+: resolve cwd upper) (clone : List Word) :
    Triple (host cwd files others) strict (Deploying cwd tree path) (cloneAnew clone)
      (Deploying cwd tree path) (Deploying cwd tree path) := by
  apply triple_seq
  · apply triple_call fun s hs ↦ hs
    intro s hs
    have hargv : [word "rm", word "-rf", word "--", destWord].map (·.value s.vars) =
        ["rm".toList, "-rf".toList, "--".toList, path] := by
      simp only [List.map_cons, List.map_nil, value_dest, hs.dest, word, Word.value_lit]
    rw [hargv, Confined, act_rm]
    exact hpath
  apply triple_seq (M := fun s ↦ Deploying cwd tree path s ∧ s.vars parent = upper)
  · apply triple_either (M := fun s ↦ Deploying cwd tree path s ∧ s.vars parent = upper)
    · apply triple_capture
      intro s _ hs
      have hargv : [word "dirname", destWord].map (·.value s.vars) = ["dirname".toList, path] := by
        simp only [List.map_cons, List.map_nil, value_dest, hs.dest, word, Word.value_lit]
      refine ⟨⟨?_, ?_⟩, ?_⟩
      · intro e he
        rw [exec, hargv, State.set_events, State.call] at he
        obtain hold | hnew := List.mem_append.mp he
        · exact hs.confined e hold
        · rw [List.mem_singleton.mp hnew]
          exact trivial
      · rw [exec, State.set_vars_of_ne _ _ (by decide)]
        exact hs.dest
      · rw [exec, hargv, State.set_vars_self, host_dirname, hparent]
    · exact triple_skip fun s hs ↦ ⟨⟨hs.1.1.confined, hs.1.1.dest⟩, hs.1.2⟩
    · exact fun s hs _ ↦ hs
  apply triple_seq
  · apply triple_call fun s hs ↦ hs.1
    intro s hs
    have hargv : [word "mkdir", word "-p", word "--", parentWord].map (·.value s.vars) =
        ["mkdir".toList, "-p".toList, "--".toList, upper] := by
      have hword : parentWord.value s.vars = upper := (List.append_nil _).trans hs.2
      simp only [List.map_cons, List.map_nil, hword, word, Word.value_lit]
    rw [hargv, Confined, act_mkdir_stop]
    exact hupper
  · apply triple_call fun s hs ↦ hs
    intro s hs
    have hargv : (word "git" :: word "clone" :: word "-q" :: clone ++ [destWord]).map
        (·.value s.vars) = "git".toList :: "clone".toList :: "-q".toList ::
          (clone.map (·.value s.vars) ++ [path]) := by
      simp only [List.cons_append, List.map_cons, List.map_append, List.map_nil, value_dest,
        hs.dest, word, Word.value_lit]
    rw [hargv, Confined, act_clone]
    exact hpath

structure Destination (cwd tree : List (List Char)) (home relDest path upper : Text) : Prop where
  leads : homeDir home relDest = path
  strictly : Strictly cwd tree path
  parent : chomped (parentDirectory path ++ ['\n']) = upper
  upper : tree <+: resolve cwd upper

theorem triple_dest {relDest : Text} (h : Destination cwd tree home relDest path upper)
    {world : World} {B : State → Prop} :
    Triple world strict (fun s ↦ s.events = [] ∧ s.vars "HOME".toList = home)
      (.assign dest (homePath relDest)) (Deploying cwd tree path) B := by
  apply triple_assign
  intro s hs
  refine ⟨?_, ?_⟩
  · intro e he
    exact absurd (hs.1 ▸ he : e ∈ []) List.not_mem_nil
  · rw [value_homePath, hs.2, h.leads]
    exact State.set_vars_self s dest path

section Keeping

variable {world : World} {c : Command}

abbrev KeepsTo (world : World) (cwd tree : List (List Char)) (path : Text) (strict : Bool)
    (c : Command) : Prop :=
  Triple world strict (Deploying cwd tree path) c (Deploying cwd tree path)
    (Deploying cwd tree path)

theorem keepsTo_ite {condition accepted refused : Command}
    (hcondition : KeepsTo world cwd tree path false condition)
    (haccepted : KeepsTo world cwd tree path strict accepted)
    (hrefused : KeepsTo world cwd tree path strict refused) :
    KeepsTo world cwd tree path strict (.ite condition accepted refused) := by
  apply triple_ite hcondition
  · exact haccepted.mono (fun s hs ↦ hs.1) (fun s hs ↦ hs) fun s hs ↦ hs
  · exact hrefused.mono (fun s hs ↦ hs.1) (fun s hs ↦ hs) fun s hs ↦ hs

theorem keepsTo_either {first second : Command} (hfirst : KeepsTo world cwd tree path false first)
    (hsecond : KeepsTo world cwd tree path strict second) :
    KeepsTo world cwd tree path strict (.either first second) := by
  apply triple_either hfirst
  · exact hsecond.mono (fun s hs ↦ hs.1) (fun s hs ↦ hs) fun s hs ↦ hs
  · exact fun s hs _ ↦ hs

theorem keepsTo_sequence {cs : List Command} (h : ∀ c ∈ cs, KeepsTo world cwd tree path strict c) :
    KeepsTo world cwd tree path strict (.sequence cs) :=
  triple_sequence (fun _ hs ↦ ⟨hs.confined, hs.dest⟩) h

end Keeping

theorem triple_buildExactCommitSyncScript {relDest url ref : Text}
    (h : Destination cwd tree home relDest path upper) :
    Triple (host cwd files others) strict
      (fun s ↦ s.events = [] ∧ s.vars "HOME".toList = home)
      (buildExactCommitSyncScript relDest url ref) (Deploying cwd tree path)
      (Deploying cwd tree path) := by
  apply triple_seq (triple_dest h)
  apply keepsTo_sequence
  intro c hc
  simp only [List.mem_cons, List.not_mem_nil, or_false] at hc
  obtain rfl | rfl | rfl | rfl | rfl | rfl | rfl | rfl | rfl := hc
  · apply triple_assign
    intro s hs
    have hdest := State.set_vars_of_ne s ((Word.lit (ref.map Char.toLower)).value s.vars)
      (by decide : dest ≠ targetName)
    exact ⟨hs.confined, hdest.trans hs.dest⟩
  · apply keepsTo_ite triple_tested
    · apply keepsTo_ite
      · apply triple_seq
        · exact triple_captured (by decide) (confined_git h.strictly _)
        · exact triple_tested
      · exact triple_git h.strictly _
      · exact triple_git h.strictly _
    · exact triple_cloneAnew h.strictly h.parent h.upper _
  · exact triple_captured (by decide) (confined_git h.strictly _)
  · exact triple_tested
  · exact triple_git h.strictly _
  · exact triple_git h.strictly _
  · exact triple_captured (by decide) (confined_git h.strictly _)
  · exact triple_tested
  · apply keepsTo_ite (triple_git h.strictly _)
    · exact triple_exit fun s hs ↦ ⟨hs.confined, hs.dest⟩
    · exact triple_skip fun s hs ↦ ⟨hs.confined, hs.dest⟩

theorem triple_buildRepoSyncScript {relDest url ref : Text}
    (h : Destination cwd tree home relDest path upper) :
    Triple (host cwd files others) strict
      (fun s ↦ s.events = [] ∧ s.vars "HOME".toList = home)
      (buildRepoSyncScript relDest url ref) (Deploying cwd tree path)
      (Deploying cwd tree path) := by
  rw [buildRepoSyncScript]
  split
  · exact triple_buildExactCommitSyncScript h
  · apply triple_seq (triple_dest h)
    apply keepsTo_ite triple_tested
    · apply keepsTo_sequence
      intro c hc
      obtain hc | hlast := List.mem_append.mp hc
      · obtain rfl | hcheckout := List.mem_cons.mp hc
        · exact triple_git h.strictly _
        · split at hcheckout
          · cases hcheckout
          · rw [List.mem_singleton.mp hcheckout]
            exact triple_git h.strictly _
      · rw [List.mem_singleton.mp hlast]
        exact keepsTo_either (triple_git h.strictly _) (triple_git h.strictly _)
    · exact triple_cloneAnew h.strictly h.parent h.upper _

end Scripts

def tree (cwd : List (List Char)) (home projectsRoot : Text) (project : Project) :
    List (List Char) :=
  resolve cwd (homeDir home (projectRelDir projectsRoot project.name))

/-- The name of the project and the directories of its repositories are names. -/
structure Plain (project : Project) : Prop where
  name : PlainName project.name
  repos : ∀ r ∈ project.repos.zipIdx, stripChars r.1.url ≠ [] → PlainPath (repoDirName r.1 r.2)

theorem tree_eq {given : Text} {project : Project} (h : PlainName project.name) :
    tree cwd home (storedRoot given) project =
      resolve cwd (home ++ '/' :: storedRoot given) ++ [project.name] := by
  have hroot := storedRoot_spec given
  have hnames : ∀ name ∈ [project.name], PlainName name := by
    intro name hname
    rw [List.mem_singleton.mp hname]
    exact h
  have hhead : project.name.head? ≠ some '/' := by
    have hjoin := (plain_joinNames hnames).1
    rwa [joinNames_singleton] at hjoin
  have hbelow := homeDir_below home hroot hnames (List.cons_ne_nil _ _)
  rw [joinNames_singleton] at hbelow
  rw [tree, projectRelDir, joinPath_eq hroot.1 hroot.2.2 hhead, hbelow,
    resolve_below hnames (List.cons_ne_nil _ _)]

/-- A repository of a plain project goes to a directory below that of the project. -/
theorem exists_destination {given leaf : Text} {project : Project} (hname : PlainName project.name)
    (hleaf : PlainPath leaf) : ∃ path upper : Text,
      Destination cwd (tree cwd home (storedRoot given) project) home
        (joinPath (projectRelDir (storedRoot given) project.name) leaf) path upper := by
  have hroot := storedRoot_spec given
  have hall : ∀ name ∈ project.name :: components leaf, PlainName name := by
    intro name h
    obtain heq | hmem := List.mem_cons.mp h
    · rw [heq]
      exact hname
    · exact hleaf name hmem
  obtain ⟨upper, last, hsplit⟩ :=
    List.eq_nil_or_concat (components leaf) |>.resolve_left (components_ne_nil leaf)
  rw [List.concat_eq_append] at hsplit
  have hconcat : project.name :: components leaf = (project.name :: upper) ++ [last] := by
    rw [hsplit, List.cons_append]
  have hupper : ∀ name ∈ project.name :: upper, PlainName name := by
    intro name h
    exact hall name (by rw [hconcat]; exact List.mem_append_left _ h)
  have hnames : ∀ name ∈ [project.name], PlainName name := by
    intro name h
    rw [List.mem_singleton.mp h]
    exact hname
  have hjoinNames : joinNames (project.name :: components leaf) = project.name ++ '/' :: leaf := by
    rw [joinNames_cons (components_ne_nil leaf), joinNames_components]
  have hleafHead : leaf.head? ≠ some '/' := by
    have hjoin := (plain_joinNames hleaf).1
    rwa [joinNames_components] at hjoin
  have hnameHead : project.name.head? ≠ some '/' := by
    have hjoin := (plain_joinNames hnames).1
    rwa [joinNames_singleton] at hjoin
  have hnameLast : (storedRoot given ++ '/' :: project.name).getLast? ≠ some '/' := by
    have hjoin := (plain_joinNames hnames).2
    rw [joinNames_singleton] at hjoin
    rwa [List.getLast?_append_of_ne_nil _ (List.cons_ne_nil _ _),
      List.getLast?_cons_of_ne_nil hname.isName.1]
  have hrel : joinPath (projectRelDir (storedRoot given) project.name) leaf =
      storedRoot given ++ '/' :: joinNames (project.name :: components leaf) := by
    rw [projectRelDir, joinPath_eq hroot.1 hroot.2.2 hnameHead,
      joinPath_eq (by simp) hnameLast hleafHead, hjoinNames, List.append_assoc, List.cons_append]
  refine ⟨below home (storedRoot given) (project.name :: components leaf),
    below home (storedRoot given) (project.name :: upper), ?_, ⟨?_, ?_⟩, ?_, ?_⟩
  · rw [hrel]
    exact homeDir_below home hroot hall (List.cons_ne_nil _ _)
  · rw [tree_eq hname, resolve_below hall (List.cons_ne_nil _ _),
      List.prefix_append_right_inj]
    exact ⟨components leaf, rfl⟩
  · rw [tree_eq hname, resolve_below hall (List.cons_ne_nil _ _)]
    intro heq
    exact components_ne_nil leaf (List.cons.inj (List.append_cancel_left heq)).2.symm
  · rw [hconcat]
    exact parent_below (fun name h ↦ hall name (hconcat ▸ h)) (List.cons_ne_nil _ _)
  · rw [tree_eq hname, resolve_below hupper (List.cons_ne_nil _ _), List.prefix_append_right_inj]
    exact ⟨upper, rfl⟩

theorem deploy_confined_tree {project : Project} (hproject : Plain project) {given : Text}
    {cut : ℕ → Option ℕ} {time : ℕ} {e : Event}
    (he : e ∈ deployEvents (host cwd files others) home cut (storedRoot given) project time) :
    Confined cwd (tree cwd home (storedRoot given) project) e.argv := by
  refine sessionEvents_all (fun e ↦ Confined cwd (tree cwd home (storedRoot given) project) e.argv)
    ?_ 0 time e he
  intro r hr time e he
  obtain rfl | hr := List.mem_cons.mp hr
  · have hevents : e ∈ [(⟨time, ["mkdir".toList, "-p".toList,
        homeDir home (projectRelDir (storedRoot given) project.name)]⟩ : Event)] := by
      rw [exec, List.map_cons, List.map_cons, List.map_cons, List.map_nil, value_homePath] at he
      exact he
    rw [List.mem_singleton.mp hevents, Confined, act_mkdir]
    exact List.prefix_refl _
  · obtain ⟨⟨repo, index⟩, hmem, hr⟩ := List.mem_flatMap.mp hr
    dsimp only at hr
    split at hr
    · cases hr
    · rename_i hurl
      obtain ⟨path, upper, hdest⟩ := exists_destination hproject.name (hproject.repos (repo, index) hmem hurl)
      obtain rfl | hr := List.mem_cons.mp hr
      · obtain ⟨hnormal, habrupt⟩ := triple_buildRepoSyncScript hdest
          { vars := fun name ↦ if name = "HOME".toList then home else [], time } rfl
          ⟨rfl, show (if "HOME".toList = "HOME".toList then home else []) = home from if_pos rfl⟩
        by_cases hl : (exec (host cwd files others) true
            (buildRepoSyncScript (joinPath (projectRelDir (storedRoot given) project.name)
              (repoDirName repo index)) (stripChars repo.url) (stripChars repo.ref))
            { vars := fun name ↦ if name = "HOME".toList then home else [], time }).leaving =
              .nothing
        · exact (hnormal hl).confined e he
        · exact (habrupt hl).confined e he
      · rw [List.mem_singleton.mp hr] at he
        have hevents : e ∈ [(⟨time, ["git".toList, "-C".toList, path, "rev-parse".toList,
            "HEAD".toList]⟩ : Event)] := by
          rw [exec, List.map_cons, List.map_cons, List.map_cons, value_homePath] at he
          rw [← hdest.leads]
          exact he
        rw [List.mem_singleton.mp hevents, Confined, act_git]
        exact hdest.strictly

/-- Whatever the machine replies and wherever the connection breaks, a deployment of a plain
project removes, clones into and resets only directories strictly below its own, and makes only
directories in it. -/
theorem deploy_confined {project : Project} (hproject : Plain project) {given : Text}
    {cut : ℕ → Option ℕ} {time : ℕ} {e : Event}
    (he : e ∈ deployEvents (host cwd files others) home cut (storedRoot given) project time) :
    Confined cwd (tree cwd home (storedRoot given) project) e.argv := deploy_confined_tree hproject he

section Demo

def demo : Project where
  name := "demo".toList
  repos := [{ url := "https://host/solver.git".toList }]

def demoClone : List Text :=
  ["git".toList, "clone".toList, "-q".toList, "--depth".toList, "1".toList,
    "https://host/solver.git".toList, "/home/u/slurm_scheduler/projects/demo/solver".toList]

theorem plain_demo : Plain demo where
  name := ⟨⟨by decide, by decide⟩, ⟨by decide, by decide, by decide⟩, by decide⟩
  repos := by
    intro r hr _
    rw [List.mem_singleton.mp hr]
    intro name hname
    have hsolver : name = "solver".toList := List.mem_singleton.mp hname
    rw [hsolver]
    exact ⟨⟨by decide, by decide⟩, ⟨by decide, by decide, by decide⟩, by decide⟩

theorem mem_deployEvents_demo : ⟨5, demoClone⟩ ∈ deployEvents
    (host [] (fun _ _ ↦ none) fun _ _ ↦ {}) "/home/u".toList (fun _ ↦ none) (storedRoot []) demo 0 := by
  decide +kernel

theorem deploy_confined_demo :
    Confined [] ["home".toList, "u".toList, "slurm_scheduler".toList, "projects".toList,
      "demo".toList] demoClone := by
  have htree : tree [] "/home/u".toList (storedRoot []) demo = ["home".toList, "u".toList,
      "slurm_scheduler".toList, "projects".toList, "demo".toList] := by decide +kernel
  rw [← htree]
  exact deploy_confined plain_demo mem_deployEvents_demo

end Demo

/-- Whatever two deployments of different projects have found and been told, no command of the one
acts on a directory that contains one of the other's or lies in it. -/
theorem deploys_apart {own other : Project} (hown : Plain own) (hother : Plain other)
    (hne : own.name ≠ other.name) {given : Text} {cut cut' : ℕ → Option ℕ} {time time' : ℕ}
    {files' : ℕ → Files} {others' : World} {e e' : Event}
    (he : e ∈ deployEvents (host cwd files others) home cut (storedRoot given) own time)
    (he' : e' ∈ deployEvents (host cwd files' others') home cut' (storedRoot given) other time')
    {dir dir' : List (List Char)} (hdir : actsOn cwd e.argv = some dir)
    (hdir' : actsOn cwd e'.argv = some dir') : ¬ dir <+: dir' ∧ ¬ dir' <+: dir := by
  have hbelow := (deploy_confined_tree hown he).actsOn hdir
  have hbelow' := (deploy_confined_tree hother he').actsOn hdir'
  rw [tree_eq hown.name] at hbelow
  rw [tree_eq hother.name] at hbelow'
  refine ⟨?_, ?_⟩
  · intro hcontains
    exact hne (trees_apart (hbelow.trans hcontains) hbelow')
  · intro hcontains
    exact hne (trees_apart hbelow (hbelow'.trans hcontains))

def mine : Project := { demo with name := "mine".toList }

def mineClone : List Text :=
  ["git".toList, "clone".toList, "-q".toList, "--depth".toList, "1".toList,
    "https://host/solver.git".toList, "/home/u/slurm_scheduler/projects/mine/solver".toList]

theorem plain_mine : Plain mine :=
  { plain_demo with name := ⟨⟨by decide, by decide⟩, ⟨by decide, by decide, by decide⟩, by decide⟩ }

theorem mem_deployEvents_mine : ⟨5, mineClone⟩ ∈ deployEvents
    (host [] (fun _ _ ↦ none) fun _ _ ↦ {}) "/home/u".toList (fun _ ↦ none) (storedRoot []) mine 0 := by
  decide +kernel

theorem deploys_apart_demo : ∃ dir dir', actsOn [] mineClone = some dir ∧
    actsOn [] demoClone = some dir' ∧ ¬ dir <+: dir' ∧ ¬ dir' <+: dir := by
  obtain ⟨dir, hdir⟩ : ∃ dir, actsOn [] mineClone = some dir :=
    Option.isSome_iff_exists.mp (by decide +kernel)
  obtain ⟨dir', hdir'⟩ : ∃ dir', actsOn [] demoClone = some dir' :=
    Option.isSome_iff_exists.mp (by decide +kernel)
  exact ⟨dir, dir', hdir, hdir', deploys_apart plain_mine plain_demo (by decide)
    mem_deployEvents_mine mem_deployEvents_demo hdir hdir'⟩

end Runs

end SlurmScheduler.ProjectEnv
