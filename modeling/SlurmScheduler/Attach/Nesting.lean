import SlurmScheduler.Attach.Commands

namespace SlurmScheduler.Attach

open Shell

section Arguments

variable {lower : Text → Text} {task : Task} {allocation : Allocation} {arguments : List Argument}
  {a : Argument}

def Argument.Fixed (a : Argument) : Prop := a.fixed ≠ [] ∧ a.fixed.all bare = true

theorem fixed_number (before after : Text) (hne : before ≠ [])
    (hbefore : before.all bare = true) (hafter : after.all bare = true) (n : ℤ)
    (value : Option Text) : Argument.Fixed ⟨before ++ number n ++ after, value⟩ := by
  refine ⟨?_, ?_⟩
  · obtain ⟨c, before, rfl⟩ := List.exists_cons_of_ne_nil hne
    exact nofun
  · rw [List.all_append, List.all_append, hbefore, bare_number, hafter]
    rfl

theorem srunArguments_fixed (h : srunArguments lower task allocation = some arguments) :
    ∀ a ∈ arguments, a.Fixed := by
  have hplain : ∀ text ∈ ["srun", "--jobid=", "--nodes=1", "--ntasks=1", "--nodelist=", "--gres=",
      "--overlap", "--cpu-bind=none", "--exact", "--exclusive", "bash"].map String.toList,
      text ≠ [] ∧ text.all bare = true := by decide
  have hcpus := fixed_number "--cpus-per-task=".toList [] (by decide)
    (by decide) rfl (srunAttachStepCpus lower task allocation) none
  have hmemory := fixed_number "--mem=".toList ['M'] (by decide)
    (by decide) (by decide) task.memoryMb none
  rw [List.append_nil] at hcpus
  simp only [List.map_cons, List.map_nil, List.forall_mem_cons] at hplain
  obtain ⟨hsrun, hjobid, hnodes, hntasks, hnodelist, hgres, hoverlap, hbind, hexact, hexclusive,
    hbash, -⟩ := hplain
  simp only [srunArguments] at h
  generalize gpuGresValue lower (if allocation.gpuModel ≠ [] then allocation.gpuModel
    else task.gpuModel) task.gpus = gres at h
  split at h
  · cases h
  · cases h
    simp only [List.forall_mem_append]
    refine ⟨⟨⟨⟨⟨?first, ?nodelist⟩, ?memory⟩, ?gpus⟩, ?sharing⟩, ?script⟩
    case first =>
      simp only [List.forall_mem_cons]
      exact ⟨hsrun, hjobid, hnodes, hntasks, hcpus, nofun⟩
    case nodelist =>
      split
      · exact List.forall_mem_singleton.mpr hnodelist
      · exact nofun
    case memory =>
      split
      · exact nofun
      · exact List.forall_mem_singleton.mpr hmemory
    case gpus =>
      split
      · exact List.forall_mem_singleton.mpr hgres
      · exact nofun
    case sharing =>
      split
      · exact List.forall_mem_cons.mpr ⟨hoverlap, List.forall_mem_singleton.mpr hbind⟩
      · split
        · exact List.forall_mem_singleton.mpr hoverlap
        · exact List.forall_mem_cons.mpr ⟨hexact, List.forall_mem_singleton.mpr hexclusive⟩
    case script => exact List.forall_mem_singleton.mpr hbash

theorem Argument.Fixed.scan (h : a.Fixed) :
    a.text ≠ [] ∧ Shell.scan .plain a.text = some (.plain, a.given.map .char) := by
  obtain ⟨fixed, value⟩ := a
  obtain ⟨hne, hbare⟩ := h
  refine ⟨fun hnil ↦ hne (List.append_eq_nil_iff.mp hnil).1, ?_⟩
  cases value with
  | none =>
    have htext : Argument.text ⟨fixed, none⟩ = fixed := List.append_nil fixed
    have hgiven : Argument.given ⟨fixed, none⟩ = fixed := List.append_nil fixed
    rw [htext, hgiven]
    exact scan_bare hbare
  | some value => exact scan_fixed hbare value

end Arguments

def scriptParts (path : Text) : List Part :=
  if path = "$HOME".toList then [.var "HOME".toList true]
  else if "$HOME/".toList.isPrefixOf path then
    .var "HOME".toList true :: (path.drop 5).map .char
  else path.map .char

theorem scan_shellExpandablePath (path : Text) :
    shellExpandablePath path ≠ [] ∧
      scan .plain (shellExpandablePath path) = some (.plain, scriptParts path) := by
  rw [shellExpandablePath, scriptParts]
  split
  · exact ⟨by decide, by decide⟩
  · split
    · rename_i hbegins
      obtain ⟨rest, rfl⟩ := List.isPrefixOf_iff_prefix.mp hbegins
      have hhome : scan .plain "\"$HOME\"/".toList =
          some (.plain, [.var "HOME".toList true, .char '/']) := by decide
      refine ⟨nofun, ?_⟩
      have hdrop : ("$HOME/".toList ++ rest).drop 6 = rest := rfl
      have hdrop' : ("$HOME/".toList ++ rest).drop 5 = '/' :: rest := rfl
      rw [scan_append, hhome, Option.bind_some, hdrop, hdrop', scan_quote]
      rfl
    · exact ⟨quote_ne_nil path, scan_quote path⟩

section Lines

variable {lower : Text → Text} {task : Task} {allocation : Allocation} {arguments : List Argument}
  {text workspace script stdout stderr exitCode wrapperPath : Text} {stamp : Stamp} {lines : Lines}

theorem tokens_background (text wrapperPath : Text) :
    tokens (backgroundWrapperCommand text wrapperPath) =
      some [literal "nohup".toList, literal "setsid".toList, literal "bash".toList,
        literal "-lc".toList, literal text, .operator ['>'], literal wrapperPath,
        .operator "2>&".toList, literal ['1'], .operator ['&'], literal "echo".toList,
        .word [.var ['!'] false]] := by
  have hlast : tokens "2>&1 & echo $!".toList = some [.operator "2>&".toList, literal ['1'],
      .operator ['&'], literal "echo".toList, .word [.var ['!'] false]] := by decide
  have hredirect : scanLine .between "> ".toList = some (.between, [.operator ['>']]) := by decide
  have hfirst : scanLine .between "nohup setsid bash -lc ".toList = some (.between,
      [literal "nohup".toList, literal "setsid".toList, literal "bash".toList,
        literal "-lc".toList]) := by decide
  have hpath := reads_word_blank (quote_ne_nil wrapperPath) (scan_quote wrapperPath)
    (reads_iff.mpr hlast)
  have htext := reads_word_blank (quote_ne_nil text) (scan_quote text)
    (reads_append hredirect hpath)
  have hline := reads_iff.mp (reads_append hfirst htext)
  have hassoc : ∀ a b c d e : Text, a ++ b ++ (' ' :: c) ++ d ++ (' ' :: e) =
      a ++ (b ++ ' ' :: (c ++ (d ++ ' ' :: e))) := by simp
  have heq := hassoc "nohup setsid bash -lc ".toList (quote text) "> ".toList (quote wrapperPath)
    "2>&1 & echo $!".toList
  rw [← heq] at hline
  exact hline

theorem tokens_start (script background : Text) :
    tokens ("chmod +x ".toList ++ quote script ++ " && bash -lc ".toList ++ quote background) =
      some [literal "chmod".toList, literal "+x".toList, literal script, .operator "&&".toList,
        literal "bash".toList, literal "-lc".toList, literal background] := by
  have hfirst : scanLine .between "chmod +x ".toList = some (.between,
      [literal "chmod".toList, literal "+x".toList]) := by decide
  have hbash : scanLine .between "&& bash -lc ".toList = some (.between,
      [.operator "&&".toList, literal "bash".toList, literal "-lc".toList]) := by decide
  have hlast := reads_word (quote_ne_nil background) (scan_quote background)
  have hscript := reads_word_blank (quote_ne_nil script) (scan_quote script)
    (reads_append hbash hlast)
  have hline := reads_iff.mp (reads_append hfirst hscript)
  have hassoc : ∀ a b c d : Text, a ++ b ++ (' ' :: c) ++ d = a ++ (b ++ ' ' :: (c ++ d)) := by
    simp
  rw [← hassoc] at hline
  exact hline

theorem tokens_wrapper (harguments : srunArguments lower task allocation = some arguments)
    (h : buildSrunAttachCommand lower task allocation script stdout stderr
      exitCode = some text) :
    tokens text = some (arguments.map (literal ∘ Argument.given) ++
      [.word (scriptParts script), .operator ['>'], literal stdout, .operator "2>".toList,
        literal stderr, .operator [';'], literal "echo".toList, .word [.var ['?'] false],
        .operator ['>'], literal exitCode]) := by
  have hout : scanLine .between "> ".toList = some (.between, [.operator ['>']]) := by decide
  have herr : scanLine .between "2> ".toList = some (.between, [.operator "2>".toList]) := by decide
  have hecho : scanLine .between "echo $? > ".toList = some (.between,
      [literal "echo".toList, .word [.var ['?'] false], .operator ['>']]) := by decide
  have hlast := reads_append hecho (reads_word (quote_ne_nil exitCode) (scan_quote exitCode))
  have hstderr := reads_append herr
    (reads_word_semicolon (quote_ne_nil stderr) (scan_quote stderr) hlast)
  have hstdout := reads_append hout
    (reads_word_blank (quote_ne_nil stdout) (scan_quote stdout) hstderr)
  have hwords : List.Forall₂ (fun w ps ↦ w ≠ [] ∧ scan .plain w = some (.plain, ps))
      (arguments.map Argument.text ++ [shellExpandablePath script])
      (arguments.map (fun a ↦ a.given.map Part.char) ++ [scriptParts script]) := by
    refine List.rel_append ?_ (.cons (scan_shellExpandablePath script) .nil)
    rw [List.forall₂_map_left_iff, List.forall₂_map_right_iff, List.forall₂_same]
    exact fun a ha ↦ (srunArguments_fixed harguments a ha).scan
  have hline := reads_iff.mp (reads_words (by simp) hwords hstdout)
  have hassoc : ∀ a b c d e f g : Text, a ++ (' ' :: b) ++ c ++ (' ' :: d) ++ e ++
      (';' :: ' ' :: f) ++ g =
        a ++ ' ' :: (b ++ (c ++ ' ' :: (d ++ (e ++ ';' :: ' ' :: (f ++ g))))) := by simp
  rw [← hassoc] at hline
  simp only [buildSrunAttachCommand, harguments, Option.bind_eq_bind, Option.bind_some,
    Option.pure_def, Option.some.injEq] at h
  have heq : arguments.map (literal ∘ Argument.given) =
      (arguments.map fun a ↦ a.given.map Part.char).map .word := by
    rw [List.map_map]
    rfl
  rw [← h, heq]
  rw [List.map_append, List.append_assoc (List.map _ _)] at hline
  exact hline

/-- Whatever the texts in a task, an allocation and a workspace are, each line has the words and
operators that are written in the program, and the line that it carries for the next shell and
every text are words of their own. -/
theorem attach_reads (h : attachTask lower workspace task allocation stamp = some lines) :
    let paths := attemptPaths workspace task.id stamp
    tokens lines.mkdir = some [literal "mkdir".toList, literal "-p".toList, literal paths.dir] ∧
    tokens lines.start = some [literal "chmod".toList, literal "+x".toList, literal paths.script,
      .operator "&&".toList, literal "bash".toList, literal "-lc".toList,
      literal lines.background] ∧
    tokens lines.background = some [literal "nohup".toList, literal "setsid".toList,
      literal "bash".toList, literal "-lc".toList, literal lines.wrapper, .operator ['>'],
      literal paths.wrapper, .operator "2>&".toList, literal ['1'], .operator ['&'],
      literal "echo".toList, .word [.var ['!'] false]] ∧
    ∃ arguments, srunArguments lower task allocation = some arguments ∧
      tokens lines.wrapper = some (arguments.map (literal ∘ Argument.given) ++
        [.word (scriptParts (remoteExecutionPath paths.script)), .operator ['>'],
          literal paths.stdout, .operator "2>".toList, literal paths.stderr, .operator [';'],
          literal "echo".toList, .word [.var ['?'] false], .operator ['>'],
          literal paths.exitCode]) := by
  have hdir : scanLine .between "mkdir -p ".toList = some (.between,
      [literal "mkdir".toList, literal "-p".toList]) := by decide
  simp only [attachTask, Option.bind_eq_bind, Option.bind_eq_some_iff, Option.pure_def,
    Option.some.injEq] at h
  obtain ⟨wrapper, hwrapper, rfl⟩ := h
  have harguments : ∃ arguments, srunArguments lower task allocation = some arguments := by
    rw [buildSrunAttachCommand, Option.bind_eq_bind, Option.bind_eq_some_iff] at hwrapper
    exact ⟨_, hwrapper.choose_spec.1⟩
  obtain ⟨arguments, harguments⟩ := harguments
  refine ⟨?mkdir, tokens_start _ _, tokens_background _ _, arguments, harguments,
    tokens_wrapper harguments hwrapper⟩
  case mkdir => exact reads_iff.mp (reads_append hdir (reads_word (quote_ne_nil _) (scan_quote _)))

/-- A workspace and a job with blanks, quotes and operators in their names -/
theorem attach_reads_blank :
    let task : Task := { id := 7, cpus := 4, memoryMb := 2048, nodeNamePolicy := "preferred".toList }
    let allocation : Allocation := { slurmJobId := "12; rm -rf ~".toList }
    let paths := attemptPaths "it's $HOME".toList 7 ⟨5, 2026, 1, 2⟩
    paths.dir = "it's $HOME/runs/2026-01-02/task-7-5".toList ∧
    ∃ lines, attachTask id "it's $HOME".toList task allocation ⟨5, 2026, 1, 2⟩ = some lines ∧
      tokens lines.mkdir = some [literal "mkdir".toList, literal "-p".toList, literal paths.dir] ∧
      tokens lines.start = some [literal "chmod".toList, literal "+x".toList, literal paths.script,
        .operator "&&".toList, literal "bash".toList, literal "-lc".toList,
        literal lines.background] ∧
      tokens lines.wrapper = some (["srun", "--jobid=12; rm -rf ~", "--nodes=1", "--ntasks=1",
          "--cpus-per-task=4", "--mem=2048M", "--exact", "--exclusive", "bash"].map
            (literal ∘ String.toList) ++
        [.word (scriptParts (remoteExecutionPath paths.script)), .operator ['>'],
          literal paths.stdout, .operator "2>".toList, literal paths.stderr, .operator [';'],
          literal "echo".toList, .word [.var ['?'] false], .operator ['>'],
          literal paths.exitCode]) := by
  intro task allocation paths
  have hsome : (attachTask id "it's $HOME".toList task allocation ⟨5, 2026, 1, 2⟩).isSome := by
    decide
  obtain ⟨lines, h⟩ := Option.isSome_iff_exists.mp hsome
  obtain ⟨hmkdir, hstart, -, arguments, harguments, hwrapper⟩ := attach_reads h
  have hgiven : (srunArguments id task allocation).map (·.map Argument.given) =
      some (["srun", "--jobid=12; rm -rf ~", "--nodes=1", "--ntasks=1", "--cpus-per-task=4",
        "--mem=2048M", "--exact", "--exclusive", "bash"].map String.toList) := by decide
  rw [harguments, Option.map_some, Option.some.injEq] at hgiven
  rw [← List.map_map, hgiven, List.map_map] at hwrapper
  exact ⟨by decide, lines, h, hmkdir, hstart, hwrapper⟩

end Lines

end SlurmScheduler.Attach
