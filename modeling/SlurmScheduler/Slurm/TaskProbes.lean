import SlurmScheduler.Slurm.Lines
import SlurmScheduler.Pool.OperatorReads
import SlurmScheduler.Dispatch.Calls

namespace SlurmScheduler.Slurm

open Text
open Dispatch (JobStatus TaskProbe)
open Pool (decimal decimal_toString isDigit_of_mem_toString stripChars_of_isDigit)

def pyInt (text : List Char) : Option ℤ :=
  match stripChars text with
  | '-' :: rest => (decimal rest).map fun n : ℕ ↦ -(n : ℤ)
  | '+' :: rest => (decimal rest).map fun n : ℕ ↦ (n : ℤ)
  | digits => (decimal digits).map fun n : ℕ ↦ (n : ℤ)

structure ProbedTask where
  id : ℕ
  exitCodePath : String
  wrapperPid : String

structure Scene where
  /-- The file at the exit path, where `test -f` finds one -/
  exitFile : Option (List Char)
  /-- `ps -p` -/
  alive : String → Bool

def runningLine : List Char := "RUNNING\n".toList

def unknownLine : List Char := "UNKNOWN\n".toList

namespace ProbedTask

variable (task : ProbedTask) (scene : Scene)

def stateOutput : List Char :=
  match scene.exitFile with
  | some text => text
  | none =>
      if task.wrapperPid ≠ "" && scene.alive task.wrapperPid then runningLine else unknownLine

/-- `text.strip().splitlines()[0]` -/
def firstLine (text : List Char) : Option (List Char) := (linesAfter [] (stripChars text)).head?

def taskState : JobStatus :=
  if task.exitCodePath = "" then .running
  else
    let text := (firstLine (task.stateOutput scene)).getD "UNKNOWN".toList
    if text = "RUNNING".toList then .running
    else
      match pyInt text with
      | some exitCode => if exitCode = 0 then .completed else .failed
      | none => .running

/-- `task_exit_code`, which is none where the file cannot be read -/
def taskExitCode : Option ℤ :=
  if task.exitCodePath = "" then none
  else scene.exitFile.bind fun text ↦ (firstLine text).bind pyInt

/-- `_task_probes` of a client that asks for one task at a time -/
def singleProbe : TaskProbe :=
  let status := task.taskState scene
  { status := status
    exitCode := if status = .completed ∨ status = .failed then task.taskExitCode scene else none }

/-- `head -n1` -/
def headLine (text : List Char) : List Char :=
  if '\n' ∈ text then text.takeWhile (· != '\n') ++ ['\n'] else text

def found : List Char :=
  match scene.exitFile with
  | some text => headLine text
  | none =>
      let wrapperPid := strip task.wrapperPid
      if wrapperPid ≠ "" && scene.alive wrapperPid then runningLine else unknownLine

/-- `printf '%s|' {task_id}; if test -f … fi; echo` -/
def piece : List Char := (toString task.id).toList ++ '|' :: (task.found scene ++ ['\n'])

end ProbedTask

def probeLine (line : List Char) : Option (ℤ × List Char) :=
  match line.dropWhile (· != '|') with
  | [] => none
  | _ :: value => (pyInt (line.takeWhile (· != '|'))).map fun taskId ↦ (taskId, stripChars value)

/-- `parse_task_probe_output`: the last line of a task is its entry. -/
def parseTaskProbeOutput (output : List Char) : List (ℤ × List Char) :=
  ((linesAfter [] output).filterMap probeLine).reverse

def taskProbeFromValue (value : List Char) : TaskProbe :=
  if value = "RUNNING".toList then { status := .running }
  else
    match pyInt value with
    | none => { status := .running }
    | some exitCode =>
        if exitCode = 0 then { status := .completed, exitCode := some 0 }
        else { status := .failed, exitCode := some exitCode }

/-- `dict.get(key)` of a dictionary whose entries stand the last one first -/
def entry {κ β : Type} [DecidableEq κ] (key : κ) (entries : List (κ × β)) : Option β :=
  (entries.find? (·.1 = key)).map (·.2)

section Probes

-- what each task finds when its piece is run, and the commands that return an error
variable (scenes : ℕ → Scene) (fails : List ProbedTask → Bool)

def chunkProbes (chunk : List ProbedTask) : List (ℕ × TaskProbe) :=
  let values :=
    if fails chunk then [] else parseTaskProbeOutput (chunk.flatMap fun t ↦ t.piece (scenes t.id))
  chunk.map fun t ↦
    (t.id, taskProbeFromValue ((entry (t.id : ℤ) values).getD "UNKNOWN".toList))

/-- The tasks that `task_probes` has to ask for -/
def remoteTasks (tasks : List ProbedTask) : List ProbedTask :=
  tasks.filter fun t ↦ t.exitCodePath ≠ ""

/-- `task_probes`, with the entry of a task that is set last first -/
def taskProbes (tasks : List ProbedTask) : List (ℕ × TaskProbe) :=
  let here := (tasks.filter fun t ↦ t.exitCodePath = "").map fun t ↦
    (t.id, { status := .running : TaskProbe })
  (here ++ (slices 50 (remoteTasks tasks)).flatMap (chunkProbes scenes fails)).reverse

end Probes

theorem pyInt_stripChars (text : List Char) : pyInt (stripChars text) = pyInt text := by
  rw [pyInt, pyInt, stripChars_idem]

theorem pyInt_toString (n : ℕ) : pyInt (toString n).toList = some (n : ℤ) := by
  have hdigit : ∀ c ∈ (toString n).toList, c.isDigit = true := fun c ↦ isDigit_of_mem_toString
  rw [pyInt, stripChars_of_isDigit hdigit]
  split
  · rename_i heq
    exact absurd (hdigit '-' (by rw [heq]; exact List.mem_cons_self)) (by decide)
  · rename_i heq
    exact absurd (hdigit '+' (by rw [heq]; exact List.mem_cons_self)) (by decide)
  · rw [decimal_toString]
    rfl

def verdict : Option ℤ → TaskProbe
  | none => { status := .running }
  | some exitCode =>
      if exitCode = 0 then { status := .completed, exitCode := some 0 }
      else { status := .failed, exitCode := some exitCode }

theorem taskProbeFromValue_eq (value : List Char) : taskProbeFromValue value = verdict (pyInt value) := by
  rw [taskProbeFromValue]
  split
  · rename_i hrunning
    rw [hrunning, show pyInt "RUNNING".toList = none from rfl]
    rfl
  · cases pyInt value with
    | none => rfl
    | some exitCode => rfl

namespace ProbedTask

variable {task : ProbedTask} {scene : Scene}

theorem singleProbe_eq (hpath : task.exitCodePath ≠ "") : task.singleProbe scene =
    verdict (scene.exitFile.bind fun text ↦ (firstLine text).bind pyInt) := by
  have hstatus : task.taskState scene =
      (verdict (((firstLine (task.stateOutput scene)).getD "UNKNOWN".toList |> pyInt))).status := by
    rw [taskState, if_neg hpath]
    dsimp only
    split
    · rename_i hrunning
      rw [hrunning, show pyInt "RUNNING".toList = none from rfl]
      rfl
    · cases pyInt ((firstLine (task.stateOutput scene)).getD "UNKNOWN".toList) with
      | none => rfl
      | some exitCode =>
        rw [verdict]
        dsimp only
        split
        all_goals rfl
  cases hfile : scene.exitFile with
  | none =>
    have hnone : pyInt ((firstLine (task.stateOutput scene)).getD "UNKNOWN".toList) = none := by
      rw [stateOutput, hfile]
      dsimp only
      split
      all_goals rfl
    rw [singleProbe, hstatus, hnone]
    rfl
  | some text =>
    have hread : pyInt ((firstLine (task.stateOutput scene)).getD "UNKNOWN".toList) =
        (firstLine text).bind pyInt := by
      rw [stateOutput, hfile]
      dsimp only
      cases firstLine text with
      | none => rfl
      | some line => rfl
    have hcode : task.taskExitCode scene = (firstLine text).bind pyInt := by
      rw [taskExitCode, if_neg hpath, hfile]
      rfl
    rw [singleProbe, hstatus, hread, hcode, Option.bind_some]
    cases (firstLine text).bind pyInt with
    | none => rfl
    | some exitCode =>
      rw [verdict]
      by_cases hzero : exitCode = 0
      · subst hzero
        rfl
      · rw [if_neg hzero, if_pos (.inr rfl)]

end ProbedTask

section FirstLine

variable {text head tail : List Char}

/-- A text whose first line is a line for `str.splitlines` too, and is not blank unless all is -/
structure Tidy (text : List Char) : Prop where
  plain : ∀ c ∈ text.takeWhile (· != '\n'), isLineEnd c = false
  filled : stripChars (text.takeWhile (· != '\n')) ≠ [] ∨ stripChars text = []

theorem stripChars_eq_nil : stripChars text = [] ↔ ∀ c ∈ text, isSpace c = true := by
  rw [stripChars, List.rdropWhile_eq_nil_iff]
  constructor
  · intro h c hc
    by_contra hspace
    have hmem : c ∈ text.takeWhile isSpace ∨ c ∈ text.dropWhile isSpace := by
      rwa [← List.mem_append, List.takeWhile_append_dropWhile]
    rcases hmem with hmem | hmem
    · exact hspace (List.mem_takeWhile_imp hmem)
    · exact hspace (h c hmem)
  · intro h c hc
    exact h c ((List.dropWhile_suffix isSpace).subset hc)

/-- What is stripped of a text that goes on behind a line with a character -/
theorem stripChars_append (hhead : stripChars head ≠ []) : stripChars (head ++ tail) =
    if tail.rdropWhile isSpace = [] then stripChars head
    else head.dropWhile isSpace ++ tail.rdropWhile isSpace := by
  have hdrop : head.dropWhile isSpace ≠ [] := by
    intro hnil
    rw [stripChars, hnil] at hhead
    exact hhead rfl
  have hleft : (head ++ tail).dropWhile isSpace = head.dropWhile isSpace ++ tail := by
    rw [List.dropWhile_append, if_neg (by rwa [List.isEmpty_iff])]
  rw [stripChars, hleft]
  split
  · rename_i hblank
    rw [List.rdropWhile_eq_nil_iff] at hblank
    rw [stripChars, List.rdropWhile, List.reverse_append, List.dropWhile_append_of_pos]
    · rfl
    · intro c hc
      exact hblank c (List.mem_reverse.mp hc)
  · rename_i hfilled
    rw [List.rdropWhile, List.reverse_append, List.dropWhile_append, if_neg]
    · rw [List.reverse_append, List.reverse_reverse]
      rfl
    · intro hempty
      rw [List.isEmpty_iff, List.dropWhile_eq_nil_iff] at hempty
      apply hfilled
      rw [List.rdropWhile_eq_nil_iff]
      intro c hc
      exact hempty c (List.mem_reverse.mpr hc)

/-- The first line that `task_state` reads has the number of the one that `head` prints. -/
theorem pyInt_firstLine (h : Tidy text) :
    (ProbedTask.firstLine text).bind pyInt = pyInt (text.takeWhile (· != '\n')) := by
  by_cases hblank : stripChars text = []
  · have hspaces := stripChars_eq_nil.mp hblank
    have hline : stripChars (text.takeWhile (· != '\n')) = [] :=
      stripChars_eq_nil.mpr fun c hc ↦ hspaces c ((List.takeWhile_prefix _).subset hc)
    rw [ProbedTask.firstLine, hblank, ← pyInt_stripChars, hline]
    rfl
  · have hfilled : stripChars (text.takeWhile (· != '\n')) ≠ [] :=
      h.filled.resolve_right hblank
    set head := text.takeWhile (· != '\n') with hhead
    set tail := text.dropWhile (· != '\n') with htail
    have htext : text = head ++ tail := (List.takeWhile_append_dropWhile).symm
    have hplain : ∀ c ∈ head.dropWhile isSpace, isLineEnd c = false := fun c hc ↦
      h.plain c ((List.dropWhile_suffix _).subset hc)
    rw [ProbedTask.firstLine, htext, stripChars_append hfilled]
    split
    · have hstripped : ∀ c ∈ stripChars head, isLineEnd c = false := fun c hc ↦
        hplain c ((List.rdropWhile_prefix _ _).subset hc)
      have hlines := linesAfter_plain hstripped [] []
      rw [List.append_nil, List.append_nil, linesAfter_nil, if_neg (by simpa using hfilled),
        List.reverse_reverse] at hlines
      rw [hlines]
      exact pyInt_stripChars head
    · rename_i hmore
      obtain ⟨more, hmore'⟩ : ∃ more, tail.rdropWhile isSpace = '\n' :: more := by
        obtain ⟨d, more, hd⟩ := List.exists_cons_of_ne_nil hmore
        obtain ⟨rest, hrest⟩ := List.rdropWhile_prefix isSpace tail
        rw [hd, List.cons_append] at hrest
        have hnewline : ¬ (d != '\n') = true := by
          have hne : tail ≠ [] := by
            rw [← hrest]
            exact List.cons_ne_nil _ _
          have hfirst := List.head_dropWhile_not (· != '\n') hne
          have hd' : (text.dropWhile (· != '\n')).head hne = d := by
            have hsome : (text.dropWhile (· != '\n')).head? = some d := by
              rw [← htail, ← hrest]
              rfl
            exact Option.some.inj ((List.head?_eq_some_head hne).symm.trans hsome)
          rw [hd'] at hfirst
          exact Bool.eq_false_iff.mp hfirst
        rw [bne_iff_ne, not_not] at hnewline
        exact ⟨more, by rw [hd, hnewline]⟩
      rw [hmore', linesAfter_plain hplain, linesAfter_newline]
      change pyInt _ = pyInt head
      rw [List.append_nil, List.reverse_reverse, ← pyInt_stripChars, ← pyInt_stripChars head]
      congr 1
      rw [stripChars, stripChars, List.dropWhile_idempotent]

end FirstLine

namespace ProbedTask

variable {task : ProbedTask} {scene : Scene}

def shown (task : ProbedTask) (scene : Scene) : List Char :=
  (task.found scene).takeWhile (· != '\n')

/-- The exit file of a task is no file, or a tidy one. -/
def TidyIn (scene : Scene) : Prop := ∀ text, scene.exitFile = some text → Tidy text

theorem takeWhile_headLine (text : List Char) :
    (headLine text).takeWhile (· != '\n') = text.takeWhile (· != '\n') := by
  have hkept : ∀ c ∈ text.takeWhile (· != '\n'), (c != '\n') = true :=
    fun c hc ↦ List.mem_takeWhile_imp (p := (· != '\n')) hc
  rw [headLine]
  split
  · rw [List.takeWhile_append_of_pos hkept]
    exact List.append_nil _
  · rfl

theorem shown_plain (h : TidyIn scene) : ∀ c ∈ task.shown scene, isLineEnd c = false := by
  rw [shown, found]
  cases hfile : scene.exitFile with
  | none =>
    have hword : ∀ word : List Char, (word.all fun c ↦ !isLineEnd c) = true →
        ∀ c ∈ word, isLineEnd c = false := by
      intro word hall c hc
      exact Bool.eq_false_iff.mpr fun hend ↦ by simpa [hend] using List.all_eq_true.mp hall c hc
    dsimp only
    split
    · exact hword _ rfl
    · exact hword _ rfl
  | some text =>
    dsimp only
    rw [takeWhile_headLine]
    exact (h text hfile).plain

theorem found_eq (task : ProbedTask) (scene : Scene) : task.found scene = task.shown scene ∨
    task.found scene = task.shown scene ++ ['\n'] := by
  rw [shown, found]
  cases scene.exitFile with
  | none =>
    dsimp only
    split
    · exact .inr rfl
    · exact .inr rfl
  | some text =>
    dsimp only
    rw [takeWhile_headLine, headLine]
    split
    · exact .inr rfl
    · rename_i hnone
      refine .inl (List.takeWhile_eq_self_iff.mpr fun c hc ↦ ?_).symm
      rw [bne_iff_ne]
      rintro rfl
      exact hnone hc

def line (task : ProbedTask) (scene : Scene) : List Char :=
  (toString task.id).toList ++ '|' :: task.shown scene

theorem isLineEnd_of_isDigit {c : Char} (h : c.isDigit = true) : isLineEnd c = false := by
  simp only [Char.isDigit, Bool.and_eq_true, decide_eq_true_eq] at h
  have hlow : 48 ≤ c.toNat := h.1
  have hhigh : c.toNat ≤ 57 := h.2
  simp only [isLineEnd, Bool.or_eq_false_iff, Bool.and_eq_false_iff, decide_eq_false_iff_not,
    beq_eq_false_iff_ne]
  omega

theorem line_plain (h : TidyIn scene) : ∀ c ∈ task.line scene, isLineEnd c = false := by
  intro c hc
  rcases List.mem_append.mp hc with hid | hrest
  · exact isLineEnd_of_isDigit (isDigit_of_mem_toString hid)
  · rcases List.mem_cons.mp hrest with rfl | hshown
    · decide
    · exact shown_plain h c hshown

theorem probeLine_line (task : ProbedTask) (scene : Scene) :
    probeLine (task.line scene) = some ((task.id : ℤ), stripChars (task.shown scene)) := by
  have hdigits : ∀ c ∈ (toString task.id).toList, (c != '|') = true := by
    intro c hc
    rw [bne_iff_ne]
    rintro rfl
    exact absurd (isDigit_of_mem_toString hc) (by decide)
  have hdrop : (task.line scene).dropWhile (· != '|') = '|' :: task.shown scene := by
    rw [line, List.dropWhile_append_of_pos hdigits]
    rfl
  have htake : (task.line scene).takeWhile (· != '|') = (toString task.id).toList := by
    rw [line, List.takeWhile_append_of_pos hdigits]
    exact List.append_nil _
  rw [probeLine, hdrop, htake, pyInt_toString]
  rfl

/-- A piece prints the line of its task, and a blank one behind it or none. -/
theorem probeLine_piece (h : TidyIn scene) (rest : List Char) :
    (linesAfter [] (task.piece scene ++ rest)).filterMap probeLine =
      ((task.id : ℤ), stripChars (task.shown scene)) ::
        (linesAfter [] rest).filterMap probeLine := by
  have hread : ∀ tail, (linesAfter [] (task.line scene ++ '\n' :: tail)).filterMap probeLine =
      ((task.id : ℤ), stripChars (task.shown scene)) ::
        (linesAfter [] tail).filterMap probeLine := by
    intro tail
    rw [linesAfter_plain (line_plain h), linesAfter_newline, List.append_nil, List.reverse_reverse,
      List.filterMap_cons_some (probeLine_line task scene)]
  have hpiece : task.piece scene = (toString task.id).toList ++ '|' :: (task.found scene ++ ['\n']) :=
    rfl
  rcases found_eq task scene with hfound | hfound
  · have htext : task.piece scene ++ rest = task.line scene ++ '\n' :: rest := by
      rw [hpiece, hfound, line]
      simp
    rw [htext, hread]
  · have htext : task.piece scene ++ rest = task.line scene ++ '\n' :: '\n' :: rest := by
      rw [hpiece, hfound, line]
      simp
    rw [htext, hread, linesAfter_newline]
    rfl

end ProbedTask

section Entries

variable {κ β : Type} [DecidableEq κ] {entries : List (κ × β)} {e : κ × β}

theorem entry_of_mem (hkeys : (entries.map Prod.fst).Nodup) (he : e ∈ entries) :
    entry e.1 entries = some e.2 := by
  rw [entry]
  induction entries with
  | nil => cases he
  | cons first entries ih =>
    rw [List.map_cons, List.nodup_cons] at hkeys
    rcases List.mem_cons.mp he with rfl | hrest
    · rw [List.find?_cons_of_pos (by simp)]
      rfl
    · have hne : first.1 ≠ e.1 := by
        intro heq
        exact hkeys.1 (heq ▸ List.mem_map_of_mem hrest)
      rw [List.find?_cons_of_neg (by simpa using hne)]
      exact ih hkeys.2 hrest

end Entries

section Chunks

variable {scenes : ℕ → Scene} {fails : List ProbedTask → Bool} {tasks chunk : List ProbedTask}

theorem parse_pieces (h : ∀ t ∈ chunk, ProbedTask.TidyIn (scenes t.id)) :
    parseTaskProbeOutput (chunk.flatMap fun t ↦ t.piece (scenes t.id)) =
      (chunk.map fun t ↦ ((t.id : ℤ), stripChars (t.shown (scenes t.id)))).reverse := by
  rw [parseTaskProbeOutput]
  congr 1
  induction chunk with
  | nil => rfl
  | cons t chunk ih =>
    rw [List.flatMap_cons, ProbedTask.probeLine_piece (h t List.mem_cons_self), List.map_cons,
      ih fun t' ht' ↦ h t' (List.mem_cons_of_mem t ht')]

theorem pyInt_shown {t : ProbedTask} {scene : Scene} (hpath : t.exitCodePath ≠ "")
    (h : ProbedTask.TidyIn scene) : verdict (pyInt (t.shown scene)) = t.singleProbe scene := by
  rw [ProbedTask.singleProbe_eq hpath, ProbedTask.shown, ProbedTask.found]
  cases hfile : scene.exitFile with
  | none =>
    dsimp only
    split
    · rfl
    · rfl
  | some text =>
    dsimp only
    rw [ProbedTask.takeWhile_headLine, ← pyInt_firstLine (h text hfile)]
    rfl

/-- The entries of a command, whether it returns an error or not -/
theorem mem_chunkProbes (hids : (chunk.map (·.id)).Nodup)
    (htidy : ∀ t ∈ chunk, ProbedTask.TidyIn (scenes t.id))
    (hpath : ∀ t ∈ chunk, t.exitCodePath ≠ "") {t : ProbedTask} (ht : t ∈ chunk) :
    (t.id, if fails chunk = true then { status := .running : TaskProbe }
      else t.singleProbe (scenes t.id)) ∈ chunkProbes scenes fails chunk := by
  refine List.mem_map.mpr ⟨t, ht, ?_⟩
  by_cases hfails : fails chunk = true
  · rw [if_pos hfails, if_pos hfails]
    rfl
  · rw [if_neg hfails, if_neg hfails]
    have hkeys : ((chunk.map fun t ↦ ((t.id : ℤ), stripChars (t.shown (scenes t.id)))).reverse.map
        Prod.fst).Nodup := by
      rw [List.map_reverse, List.nodup_reverse, List.map_map]
      have hcast := hids.map (Nat.cast_injective : Function.Injective (Nat.cast : ℕ → ℤ))
      rwa [List.map_map] at hcast
    have hentry := entry_of_mem hkeys (List.mem_reverse.mpr (List.mem_map_of_mem ht))
    rw [parse_pieces htidy, hentry, Option.getD_some, taskProbeFromValue_eq, pyInt_stripChars,
      pyInt_shown (hpath t ht) (htidy t ht)]

theorem keys_chunkProbes (chunk : List ProbedTask) :
    (chunkProbes scenes fails chunk).map Prod.fst = chunk.map (·.id) := by
  rw [chunkProbes, List.map_map]
  rfl

theorem keys_taskProbes (scenes : ℕ → Scene) (fails : List ProbedTask → Bool)
    (tasks : List ProbedTask) :
    ((taskProbes scenes fails tasks).map Prod.fst).Perm (tasks.map (·.id)) := by
  have hremote : ((slices 50 (remoteTasks tasks)).flatMap (chunkProbes scenes fails)).map Prod.fst =
      (remoteTasks tasks).map (·.id) := by
    rw [List.map_flatMap, List.flatMap_congr fun chunk _ ↦ keys_chunkProbes chunk]
    conv => rhs; rw [← flatten_slices (by decide : 0 < 50) (remoteTasks tasks), List.map_flatten]
    rfl
  have hboth : ((tasks.filter fun t ↦ t.exitCodePath = "") ++ remoteTasks tasks).Perm tasks := by
    have hperm := List.filter_append_perm (fun t : ProbedTask ↦ decide (t.exitCodePath = "")) tasks
    have hremote' : remoteTasks tasks = tasks.filter fun t ↦ !decide (t.exitCodePath = "") := by
      rw [remoteTasks]
      apply List.filter_congr
      intro t _
      rw [decide_not]
    rwa [hremote']
  rw [taskProbes, List.map_reverse]
  refine (List.reverse_perm _).trans ?_
  rw [List.map_append, hremote, List.map_map]
  have hids := hboth.map (·.id)
  rwa [List.map_append] at hids

/-- One command for fifty tasks tells of each what it would be told alone, or where the command
returns an error that it runs, and tells of no other task. -/
theorem task_probes_agree (scenes : ℕ → Scene) (fails : List ProbedTask → Bool)
    (tasks : List ProbedTask) (hids : (tasks.map (·.id)).Nodup)
    (htidy : ∀ t ∈ tasks, ProbedTask.TidyIn (scenes t.id)) :
    ((taskProbes scenes fails tasks).map Prod.fst).Perm (tasks.map (·.id)) ∧
      (∀ t ∈ tasks, t.exitCodePath = "" →
        entry t.id (taskProbes scenes fails tasks) = some (t.singleProbe (scenes t.id))) ∧
      ∀ chunk ∈ slices 50 (remoteTasks tasks), ∀ t ∈ chunk,
        entry t.id (taskProbes scenes fails tasks) =
          some (if fails chunk = true then { status := .running } else t.singleProbe (scenes t.id)) := by
  have hperm := keys_taskProbes scenes fails tasks
  have hkeys : ((taskProbes scenes fails tasks).map Prod.fst).Nodup := hperm.nodup_iff.mpr hids
  refine ⟨hperm, ?_, ?_⟩
  · intro t ht hpath
    have hsingle : t.singleProbe (scenes t.id) = { status := .running } := by
      rw [ProbedTask.singleProbe, ProbedTask.taskState, if_pos hpath]
      rfl
    rw [hsingle]
    refine entry_of_mem (e := (t.id, { status := .running })) hkeys ?_
    rw [taskProbes, List.mem_reverse]
    refine List.mem_append_left _ (List.mem_map.mpr ⟨t, ?_, rfl⟩)
    exact List.mem_filter.mpr ⟨ht, decide_eq_true hpath⟩
  · intro chunk hchunk t ht
    have hflatten := flatten_slices (by decide : 0 < 50) (remoteTasks tasks)
    have hsub : chunk.Sublist tasks := by
      have hinner : chunk.Sublist (remoteTasks tasks) :=
        hflatten ▸ List.sublist_flatten_of_mem hchunk
      exact hinner.trans List.filter_sublist
    have hpath : ∀ t ∈ chunk, t.exitCodePath ≠ "" := by
      intro t' ht'
      have hmem : t' ∈ remoteTasks tasks := hflatten ▸ List.mem_flatten.mpr ⟨chunk, hchunk, ht'⟩
      exact of_decide_eq_true (List.mem_filter.mp hmem).2
    refine entry_of_mem (e := (t.id, _)) hkeys ?_
    rw [taskProbes, List.mem_reverse]
    refine List.mem_append_right _ (List.mem_flatMap.mpr ⟨chunk, hchunk, ?_⟩)
    exact mem_chunkProbes ((hsub.map _).nodup hids) (fun t' ht' ↦ htidy t' (hsub.subset ht')) hpath ht

/-- A file that `echo $?` has opened and not yet written is tidy. -/
theorem tidy_nil : Tidy [] := ⟨fun _ hc ↦ (nomatch hc), .inr rfl⟩

theorem tidy_echo (exitCode : ℕ) : Tidy ((toString exitCode).toList ++ ['\n']) := by
  have hdigit : ∀ c ∈ (toString exitCode).toList, c.isDigit = true :=
    fun c ↦ isDigit_of_mem_toString
  have hline : ((toString exitCode).toList ++ ['\n']).takeWhile (· != '\n') =
      (toString exitCode).toList := by
    rw [List.takeWhile_append_of_pos]
    · exact List.append_nil _
    · intro c hc
      rw [bne_iff_ne]
      rintro rfl
      exact absurd (hdigit _ hc) (by decide)
  constructor
  · rw [hline]
    exact fun c hc ↦ ProbedTask.isLineEnd_of_isDigit (hdigit c hc)
  · left
    rw [hline, stripChars_of_isDigit hdigit]
    intro hnil
    have hnone := decimal_toString exitCode
    rw [hnil] at hnone
    cases hnone

/-- A task that has ended with a three, one whose file is not yet written and one without a file -/
def threeTasks : List ProbedTask := [⟨7, "runs/7/exit_code", "41"⟩, ⟨8, "runs/8/exit_code", "42"⟩, ⟨9, "", ""⟩]

def threeScenes (taskId : ℕ) : Scene where
  exitFile := if taskId = 7 then some "3\n".toList else some []
  alive _ := true

theorem task_probes_agree_three :
    entry 7 (taskProbes threeScenes (fun _ ↦ false) threeTasks) =
      some { status := .failed, exitCode := some 3 } := by
  have htidy : ∀ t ∈ threeTasks, ProbedTask.TidyIn (threeScenes t.id) := by
    intro t _ text htext
    rw [threeScenes] at htext
    dsimp only at htext
    split at htext
    · cases htext
      exact tidy_echo 3
    · cases htext
      exact tidy_nil
  have hchunk : threeTasks.take 2 ∈ slices 50 (remoteTasks threeTasks) := by
    have hslices : slices 50 (remoteTasks threeTasks) = [threeTasks.take 2] := by
      with_unfolding_all rfl
    rw [hslices]
    exact List.mem_cons_self
  exact (task_probes_agree threeScenes (fun _ ↦ false) threeTasks (by decide) htidy).2.2
    (threeTasks.take 2) hchunk _ List.mem_cons_self

end Chunks

end SlurmScheduler.Slurm
