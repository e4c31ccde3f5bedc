import SlurmScheduler.Retention.Pruning

namespace SlurmScheduler.Retention

open Posix Shell Slurm.Text Script
open Cleanup (Kept normpath normpath_eq normalNames normalNames_spec normalNames_spell
  isName_normalNames initialSlashes initialSlashes_le basename basename_spell spell_getLast)

def scanArgv (minutes : ℕ) (candidate : Text) : List Text :=
  ["find".toList, candidate, "-mmin".toList, ("-" ++ toString minutes).toList, "-print".toList,
    "-quit".toList]

def removeArgv (candidate : Text) : List Text :=
  ["rm".toList, "-rf".toList, "--".toList, candidate]

def Harmless (argv : List Text) : Prop :=
  ∃ name ∈ ["[", "printf", "find"], argv.head? = some name.toList

/-- At some time nothing was there, and at some time no link. -/
structure Missing (files : ℕ → Files) (start finish : ℕ) (name : List (List Char)) : Prop where
  absent : ∃ time, start ≤ time ∧ time < finish ∧ (files time name).any Entry.present = false
  unlinked : ∃ time, start ≤ time ∧ time < finish ∧ (files time name).any Entry.isLink = false

theorem Missing.mono {files : ℕ → Files} {start finish finish' : ℕ} {name : List (List Char)}
    (h : Missing files start finish name) (hle : finish ≤ finish') :
    Missing files start finish' name := by
  obtain ⟨⟨time, hstart, hlt, habsent⟩, ⟨time', hstart', hlt', hlink⟩⟩ := h
  exact ⟨⟨time, hstart, by omega, habsent⟩, ⟨time', hstart', by omega, hlink⟩⟩

section Runs

variable {home : List (List Char)} {files : ℕ → Files} {others : World} {minutes : ℕ}
  {plan : Text → List Text → Prop} {front events : List Event} {e : Event}

/-- The scan of the candidate has found nothing recent. -/
structure Scanned (others : World) (minutes : ℕ) (candidate : Text) (scan : ℕ)
    (events : List Event) : Prop where
  event : ⟨scan, scanArgv minutes candidate⟩ ∈ events
  status : (others scan (scanArgv minutes candidate)).status = 0
  nothing : chomped (others scan (scanArgv minutes candidate)).output = []

/-- A removal after a scan that has found nothing recent, since which each marker was looked for -/
def Removal (home : List (List Char)) (files : ℕ → Files) (others : World) (minutes : ℕ)
    (front : List Event) (candidate : Text) (markers : List Text) (e : Event) : Prop :=
  e.argv = removeArgv candidate ∧ ∃ scan < e.time, Scanned others minutes candidate scan front ∧
    ∀ marker ∈ markers, Missing files (scan + 1) e.time (resolve home marker)

def Prudent (home : List (List Char)) (files : ℕ → Files) (others : World) (minutes : ℕ)
    (plan : Text → List Text → Prop) (events : List Event) : Prop :=
  ∀ (front : List Event) (e : Event), front ++ [e] <+: events →
    Harmless e.argv ∨ ∃ (candidate : Text) (markers : List Text), plan candidate markers ∧
      Removal home files others minutes front candidate markers e

theorem prudent_nil : Prudent home files others minutes plan [] := by
  intro front e hbegins
  exact absurd (List.prefix_nil.mp hbegins) (by simp)

theorem Prudent.concat (h : Prudent home files others minutes plan events)
    (he : Harmless e.argv ∨ ∃ (candidate : Text) (markers : List Text), plan candidate markers ∧
      Removal home files others minutes events candidate markers e) :
    Prudent home files others minutes plan (events ++ [e]) := by
  intro front e' hbegins
  obtain heq | hbegins := List.prefix_concat_iff.mp hbegins
  · obtain ⟨hfront, hlast⟩ := List.append_inj' heq rfl
    cases hlast
    rw [hfront]
    exact he
  · exact h front e' hbegins

theorem Prudent.of_prefix {events' : List Event} (h : Prudent home files others minutes plan events)
    (hbegins : events' <+: events) : Prudent home files others minutes plan events' :=
  fun front e he ↦ h front e (he.trans hbegins)

theorem Prudent.harmless (h : Prudent home files others minutes plan events) (name : String)
    {args : List Text} {time : ℕ} (hname : name ∈ ["[", "printf", "find"]) :
    Prudent home files others minutes plan (events ++ [⟨time, name.toList :: args⟩]) :=
  h.concat (.inl ⟨name, hname, rfl⟩)

section Check

variable {B : State → Prop} {candidate : Text} {markers : List Text} {start : ℕ}

theorem triple_report (status : String) :
    Triple (machine home files others) false
      (fun s ↦ Prudent home files others minutes plan s.events) (report status)
      (fun s ↦ Prudent home files others minutes plan s.events) B := by
  apply triple_run
  intro s _ hs
  exact hs.harmless "printf" (by decide)

theorem triple_reportProtected :
    Triple (machine home files others) false
      (fun s ↦ Prudent home files others minutes plan s.events) reportProtected
      (fun s ↦ Prudent home files others minutes plan s.events) B := by
  apply triple_run
  intro s _ hs
  exact hs.harmless "printf" (by decide)

structure Checking (home : List (List Char)) (files : ℕ → Files) (others : World) (minutes : ℕ)
    (plan : Text → List Text → Prop) (candidate : Text) (start : ℕ) (done : List Text)
    (s : State) : Prop where
  prudent : Prudent home files others minutes plan s.events
  target : s.vars target = candidate
  begun : start ≤ s.time
  unprotected : s.vars protectedMarker = []
  missing : ∀ marker ∈ done, Missing files start s.time (resolve home marker)

theorem triple_markerTurn {done : List Text} {marker : Text} (hmarker : marker ≠ []) :
    Triple (machine home files others) false
      (fun s ↦ ∃ s₀ : State, s₀.leaving = .nothing ∧
        Checking home files others minutes plan candidate start done s₀ ∧
          s = s₀.set markerPath marker)
      (.ite (.either (.test [word "-e", markerPathWord]) (.test [word "-L", markerPathWord]))
        (.seq (.assign protectedMarker markerPathWord) .leave) .skip)
      (Checking home files others minutes plan candidate start (done ++ [marker]))
      fun s ↦ (s.leaving = .loop → Prudent home files others minutes plan s.events ∧
          s.vars target = candidate ∧ s.vars protectedMarker ≠ []) ∧
        (s.leaving = .script → False) := by
  apply triple_ite (M := fun s ↦
    Checking home files others minutes plan candidate start done s ∧ s.vars markerPath = marker ∧
      (s.status ≠ 0 → Missing files start s.time (resolve home marker)))
  · apply triple_either (M := fun s ↦
      Checking home files others minutes plan candidate start done s ∧
        s.vars markerPath = marker ∧ (s.status ≠ 0 → ∃ time, start ≤ time ∧ time < s.time ∧
          (files time (resolve home marker)).any Entry.present = false))
    · apply triple_test fun s ↦ (files s.time (resolve home marker)).any Entry.present
      · intro s hs
        obtain ⟨s₀, -, -, rfl⟩ := hs
        rw [List.map_cons, List.map_singleton, value_word, value_markerPath, State.set_vars_self]
        rfl
      · intro s hs
        obtain ⟨s₀, -, h, rfl⟩ := hs
        have htarget : (s₀.set markerPath marker).vars target = candidate := by
          rw [State.set_vars_of_ne _ _ (by decide)]
          exact h.target
        have hprotected : (s₀.set markerPath marker).vars protectedMarker = [] := by
          rw [State.set_vars_of_ne _ _ (by decide)]
          exact h.unprotected
        refine ⟨⟨h.prudent.harmless "[" (by decide), htarget,
          Nat.le_succ_of_le h.begun, hprotected, ?_⟩,
          State.set_vars_self s₀ markerPath marker, ?_⟩
        · exact fun m hm ↦ (h.missing m hm).mono (Nat.le_succ _)
        · intro hstatus
          refine ⟨s₀.time, h.begun, Nat.lt_succ_self _, ?_⟩
          by_contra hpresent
          exact hstatus (if_pos (Bool.eq_true_of_not_eq_false hpresent))
    · apply triple_test fun s ↦ (files s.time (resolve home marker)).any Entry.isLink
      · intro s hs
        rw [List.map_cons, List.map_singleton, value_word, value_markerPath, hs.1.2.1]
        rfl
      · intro s hs
        obtain ⟨⟨h, hpath, habsent⟩, hfailed⟩ := hs
        refine ⟨⟨h.prudent.harmless "[" (by decide), h.target,
          Nat.le_succ_of_le h.begun, h.unprotected, ?_⟩, hpath, ?_⟩
        · exact fun m hm ↦ (h.missing m hm).mono (Nat.le_succ _)
        · intro hstatus
          obtain ⟨time, hstart, hlt, hnone⟩ := habsent hfailed
          refine ⟨⟨time, hstart, Nat.lt_succ_of_lt hlt, hnone⟩,
            ⟨s.time, h.begun, Nat.lt_succ_self _, ?_⟩⟩
          by_contra hlink
          exact hstatus (if_pos (Bool.eq_true_of_not_eq_false hlink))
    · intro s hs hstatus
      exact ⟨hs.1, hs.2.1, fun hne ↦ absurd hstatus hne⟩
  · apply triple_seq (M := fun s ↦ Prudent home files others minutes plan s.events ∧
      s.vars target = candidate ∧ s.vars protectedMarker ≠ [])
    · apply triple_assign
      intro s hs
      obtain ⟨⟨h, hpath, -⟩, -⟩ := hs
      refine ⟨h.prudent, ?_, ?_⟩
      · rw [value_markerPath]
        exact (State.set_vars_of_ne s (s.vars markerPath) (by decide : target ≠ protectedMarker)).trans
          h.target
      · rw [value_markerPath, hpath]
        intro hnil
        exact hmarker ((State.set_vars_self s protectedMarker marker).symm.trans hnil)
    · exact triple_leave fun s hs ↦ ⟨fun _ ↦ hs, nofun⟩
  · apply triple_skip
    intro s hs
    obtain ⟨⟨h, -, hmissing⟩, hstatus⟩ := hs
    refine ⟨h.prudent, h.target, h.begun, h.unprotected, ?_⟩
    intro m hm
    obtain hdone | hlast := List.mem_append.mp hm
    · exact h.missing m hdone
    · rw [List.mem_singleton.mp hlast]
      exact hmissing hstatus

/-- Where the check leaves no marker behind, it has looked for every one. -/
theorem triple_markerCheck (hmarkers : ∀ marker ∈ markers, marker ≠ []) :
    Triple (machine home files others) false
      (fun s ↦ Prudent home files others minutes plan s.events ∧ s.vars target = candidate ∧
        start ≤ s.time)
      (markerCheck markers)
      (fun s ↦ Prudent home files others minutes plan s.events ∧ s.vars target = candidate ∧
        (s.vars protectedMarker = [] →
          ∀ marker ∈ markers, Missing files start s.time (resolve home marker)))
      fun _ ↦ False := by
  apply triple_seq (M := Checking home files others minutes plan candidate start [])
  · apply triple_assign
    intro s hs
    obtain ⟨hprudent, htarget, hstart⟩ := hs
    refine ⟨hprudent, ?_, hstart, State.set_vars_self s protectedMarker [], fun m hm ↦ by cases hm⟩
    exact (State.set_vars_of_ne s [] (by decide : target ≠ protectedMarker)).trans htarget
  · apply triple_forIn
      (Checking home files others minutes plan candidate start)
    · intro s _
      rw [List.map_map]
      apply List.map_id''
      intro marker
      exact Word.value_lit s.vars marker
    · exact fun s hs ↦ hs
    · intro done marker hbegins
      have hmem : marker ∈ markers := hbegins.subset (by simp)
      apply (triple_markerTurn (hmarkers marker hmem)).mono (fun s hs ↦ hs) fun s hs ↦ hs
      intro s hs
      refine ⟨fun hloop ↦ ?_, hs.2⟩
      obtain ⟨hprudent, htarget, hprotected⟩ := hs.1 hloop
      exact ⟨hprudent, htarget, fun hnil ↦ absurd hnil hprotected⟩
    · exact fun s hs ↦ ⟨hs.prudent, hs.target, fun _ ↦ hs.missing⟩

def Tested (P : State → Prop) : Prop :=
  ∀ (s : State) (args : List Text) (status : ℕ), P s →
    P { s with time := s.time + 1, status, events := s.events ++ [⟨s.time, "[".toList :: args⟩] }

theorem triple_ifFilled {P Q : State → Prop} {accepted refused : Command} {name : Text} {w : Word}
    (hw : ∀ vars, w.value vars = vars name) (hP : Tested P)
    (haccepted : Triple (machine home files others) false P accepted Q B)
    (hrefused : Triple (machine home files others) false (fun s ↦ P s ∧ s.vars name = []) refused
      Q B) :
    Triple (machine home files others) false P (.ite (.test [word "-n", w]) accepted refused)
      Q B := by
  apply triple_ite (M := fun s ↦ P s ∧ (s.status ≠ 0 → s.vars name = []))
  · apply triple_test fun s ↦ s.vars name != []
    · intro s _
      rw [List.map_cons, List.map_singleton, value_word, hw]
      rfl
    · intro s hs
      refine ⟨hP s _ _ hs, fun hstatus ↦ ?_⟩
      by_contra hne
      exact hstatus (if_pos (bne_iff_ne.mpr hne))
  · exact haccepted.mono (fun s hs ↦ hs.1.1) (fun s hs ↦ hs) fun s hs ↦ hs
  · exact hrefused.mono (fun s hs ↦ ⟨hs.1.1, hs.1.2 hs.2⟩) (fun s hs ↦ hs) fun s hs ↦ hs

structure Targeted (home : List (List Char)) (files : ℕ → Files) (others : World) (minutes : ℕ)
    (plan : Text → List Text → Prop) (candidate : Text) (s : State) : Prop where
  prudent : Prudent home files others minutes plan s.events
  named : s.vars target = candidate

theorem targeted_tested : Tested (Targeted home files others minutes plan candidate) :=
  fun _ _ _ h ↦ ⟨h.prudent.harmless "[" (by decide), h.named⟩

structure Looked (home : List (List Char)) (files : ℕ → Files) (others : World) (minutes : ℕ)
    (plan : Text → List Text → Prop) (candidate : Text) (scan : ℕ) (s : State) : Prop
    extends Targeted home files others minutes plan candidate s where
  event : ⟨scan, scanArgv minutes candidate⟩ ∈ s.events
  later : scan < s.time
  found : s.vars recent = chomped (others scan (scanArgv minutes candidate)).output

theorem looked_tested {scan : ℕ} :
    Tested (Looked home files others minutes plan candidate scan) :=
  fun s args status h ↦ ⟨targeted_tested s args status h.toTargeted,
    List.mem_append_left _ h.event, Nat.lt_succ_of_lt h.later, h.found⟩

theorem scan_value {vars : Vars} (h : vars target = candidate) :
    (scanWords minutes).map (·.value vars) = scanArgv minutes candidate := by
  simp only [scanWords, List.map_cons, List.map_nil, value_word, value_target, h]
  rfl

theorem scanArgv_head : (scanArgv minutes candidate).head? ≠ some "[".toList := by
  rw [scanArgv, List.head?_cons]
  decide

theorem triple_scan :
    Triple (machine home files others) false (Targeted home files others minutes plan candidate)
      (.capture recent (scanWords minutes))
      (fun s ↦ ∃ scan, Looked home files others minutes plan candidate scan s ∧
        s.status = (others scan (scanArgv minutes candidate)).status) B := by
  apply triple_capture
  intro s _ h
  have hreply : machine home files others s.time (scanArgv minutes candidate) =
      others s.time (scanArgv minutes candidate) := machine_other scanArgv_head
  refine ⟨s.time, ⟨⟨?_, ?_⟩, ?_, Nat.lt_succ_self _, ?_⟩, ?_⟩
  · rw [exec, scan_value h.named, State.set_events, State.call]
    exact h.prudent.harmless "find" (by decide)
  · rw [exec, State.set_vars_of_ne _ _ (by decide)]
    exact h.named
  · rw [exec, scan_value h.named, State.set_events, State.call]
    exact List.mem_append_right _ (List.mem_singleton_self _)
  · rw [exec, State.set_vars_self, scan_value h.named, hreply]
  · rw [exec, scan_value h.named, State.set_status, State.call, hreply]

theorem triple_keepStatus_scan {scan : ℕ} :
    Triple (machine home files others) false
      (fun s ↦ Looked home files others minutes plan candidate scan s ∧
        s.status = (others scan (scanArgv minutes candidate)).status)
      (.keepStatus findStatus)
      (fun s ↦ Looked home files others minutes plan candidate scan s ∧ s.vars findStatus =
        (toString (others scan (scanArgv minutes candidate)).status).toList) B := by
  apply triple_keepStatus
  intro s hs
  obtain ⟨h, hstatus⟩ := hs
  have hset := fun (name : Text) (hne : name ≠ findStatus) ↦
    State.set_vars_of_ne s (toString s.status).toList hne
  refine ⟨⟨⟨h.prudent, ?_⟩, h.event, h.later, ?_⟩, ?_⟩
  · exact (hset target (by decide)).trans h.named
  · exact (hset recent (by decide)).trans h.found
  · rw [← hstatus]
    exact State.set_vars_self s findStatus _

theorem toString_eq_zero {n : ℕ} (h : (toString n).toList = "0".toList) : n = 0 := by
  rw [Nat.toString_eq_ofList_toDigits, String.toList_ofList] at h
  rw [← Nat.ofDigitChars_ten_toDigits (n := n), h]
  decide

theorem triple_ifFailed {scan : ℕ} {Q : State → Prop} {accepted refused : Command}
    (haccepted : Triple (machine home files others) false
      (Looked home files others minutes plan candidate scan) accepted Q B)
    (hrefused : Triple (machine home files others) false
      (fun s ↦ Looked home files others minutes plan candidate scan s ∧
        (others scan (scanArgv minutes candidate)).status = 0) refused Q B) :
    Triple (machine home files others) false
      (fun s ↦ Looked home files others minutes plan candidate scan s ∧ s.vars findStatus =
        (toString (others scan (scanArgv minutes candidate)).status).toList)
      (.ite (.test [findStatusWord, word "-ne", word "0"]) accepted refused) Q B := by
  apply triple_ite (M := fun s ↦ Looked home files others minutes plan candidate scan s ∧
    (s.status ≠ 0 → (others scan (scanArgv minutes candidate)).status = 0))
  · apply triple_test fun s ↦ s.vars findStatus != "0".toList
    · intro s hs
      have hbang : s.vars findStatus ≠ "!".toList := by
        rw [hs.2]
        intro heq
        have hdigit : '!' ∈ (toString (others scan (scanArgv minutes candidate)).status).toList := by
          rw [heq]
          decide
        rw [Nat.toString_eq_ofList_toDigits, String.toList_ofList] at hdigit
        exact absurd (Nat.isDigit_of_mem_toDigits (by decide) (by decide) hdigit) (by decide)
      simp only [List.map_cons, List.map_nil, value_word, value_findStatus, Shell.test]
      rw [if_neg hbang, if_neg (by decide), if_pos trivial]
    · intro s hs
      refine ⟨looked_tested s _ _ hs.1, fun hstatus ↦ ?_⟩
      by_contra hne
      refine hstatus (if_pos (bne_iff_ne.mpr ?_))
      rw [hs.2]
      exact fun heq ↦ hne (toString_eq_zero heq)
  · exact haccepted.mono (fun s hs ↦ hs.1.1) (fun s hs ↦ hs) fun s hs ↦ hs
  · exact hrefused.mono (fun s hs ↦ ⟨hs.1.1, hs.1.2 hs.2⟩) (fun s hs ↦ hs) fun s hs ↦ hs

/-- The markers have been looked for after the scan. -/
structure Checked (home : List (List Char)) (files : ℕ → Files) (others : World) (minutes : ℕ)
    (plan : Text → List Text → Prop) (candidate : Text) (markers : List Text) (scan : ℕ)
    (s : State) : Prop extends Targeted home files others minutes plan candidate s where
  later : scan < s.time
  scanned : Scanned others minutes candidate scan s.events
  missing : s.vars protectedMarker = [] →
    ∀ marker ∈ markers, Missing files (scan + 1) s.time (resolve home marker)

theorem checked_tested {scan : ℕ} :
    Tested (Checked home files others minutes plan candidate markers scan) := by
  intro s args status h
  refine ⟨targeted_tested s args status h.toTargeted, Nat.lt_succ_of_lt h.later,
    ⟨List.mem_append_left _ h.scanned.event, h.scanned.status, h.scanned.nothing⟩, ?_⟩
  exact fun hnone m hm ↦ (h.missing hnone m hm).mono (Nat.le_succ _)

theorem triple_remove {scan : ℕ} (hplan : plan candidate markers) :
    Triple (machine home files others) false
      (fun s ↦ Targeted home files others minutes plan candidate s ∧
        (∀ marker ∈ markers, Missing files (scan + 1) s.time (resolve home marker)) ∧
        scan < s.time ∧ Scanned others minutes candidate scan s.events)
      (.run removeWords) (fun s ↦ Prudent home files others minutes plan s.events) B := by
  apply triple_run
  intro s _ hs
  obtain ⟨h, hmissing, hlater, hscanned⟩ := hs
  have hargv : removeWords.map (·.value s.vars) = removeArgv candidate := by
    simp only [removeWords, List.map_cons, List.map_nil, value_word, value_target, h.named]
    rfl
  rw [exec, hargv]
  exact h.prudent.concat (.inr ⟨candidate, markers, hplan, rfl, scan, hlater, hscanned, hmissing⟩)

theorem triple_pruneCandidate (hplan : plan candidate markers)
    (hmarkers : ∀ marker ∈ markers, marker ≠ []) :
    Triple (machine home files others) false
      (fun s ↦ Prudent home files others minutes plan s.events)
      (pruneCandidate minutes markers candidate)
      (fun s ↦ Prudent home files others minutes plan s.events) fun _ ↦ False := by
  have hreport : ∀ (status : String) {P : State → Prop},
      (∀ s, P s → Prudent home files others minutes plan s.events) →
      Triple (machine home files others) false P (report status)
        (fun s ↦ Prudent home files others minutes plan s.events) fun _ ↦ False :=
    fun status _ hP ↦ (triple_report status).mono hP (fun s hs ↦ hs) fun s hs ↦ hs
  have hprotected : ∀ {P : State → Prop},
      (∀ s, P s → Prudent home files others minutes plan s.events) →
      Triple (machine home files others) false P reportProtected
        (fun s ↦ Prudent home files others minutes plan s.events) fun _ ↦ False :=
    fun hP ↦ triple_reportProtected.mono hP (fun s hs ↦ hs) fun s hs ↦ hs
  apply triple_seq (M := fun s ↦ Prudent home files others minutes plan s.events ∧
    s.vars target = candidate ∧ 0 ≤ s.time)
  · apply triple_assign
    intro s hs
    rw [Word.value_lit]
    exact ⟨hs, State.set_vars_self s target candidate, Nat.zero_le _⟩
  apply triple_seq (M := Targeted home files others minutes plan candidate)
  · exact (triple_markerCheck hmarkers).mono (fun s hs ↦ hs) (fun s hs ↦ ⟨hs.1, hs.2.1⟩)
      fun s hs ↦ hs
  apply triple_ifFilled value_protectedMarker targeted_tested
  · exact hprotected fun s hs ↦ hs.prudent
  apply triple_ite (M := Targeted home files others minutes plan candidate)
  · have hgone : ∀ {P : State → Prop} (operator : String),
        (∀ s, P s → Targeted home files others minutes plan candidate s) →
        (∀ s : State, ∃ value, Shell.test (files s.time) home
          ([word "!", word operator, targetWord].map (·.value s.vars)) = some value) →
        Triple (machine home files others) false P
          (.test [word "!", word operator, targetWord])
          (Targeted home files others minutes plan candidate) fun _ ↦ False := by
      intro P operator hP hvalue
      choose value hvalue using hvalue
      exact triple_test value (fun s _ ↦ hvalue s) fun s hs ↦ targeted_tested s _ _ (hP s hs)
    apply triple_both (M := Targeted home files others minutes plan candidate)
    · apply hgone "-e" fun s hs ↦ hs.1
      intro s
      simp only [List.map_cons, List.map_nil, value_word]
      exact ⟨_, rfl⟩
    · apply hgone "-L" fun s hs ↦ hs.1
      intro s
      simp only [List.map_cons, List.map_nil, value_word]
      exact ⟨_, rfl⟩
    · exact fun s hs _ ↦ hs
  · exact hreport "M" fun s hs ↦ hs.1.prudent
  apply triple_seq (triple_scan.mono (fun s hs ↦ hs.1) (fun s hs ↦ hs) fun s hs ↦ hs)
  apply triple_exists
  intro scan
  apply triple_seq triple_keepStatus_scan
  apply triple_ifFailed
  · exact hreport "E" fun s hs ↦ hs.prudent
  apply triple_ifFilled value_recent
    (fun s args status hs ↦ ⟨looked_tested s args status hs.1, hs.2⟩)
  · exact hreport "R" fun s hs ↦ hs.1.prudent
  apply triple_seq (M := Checked home files others minutes plan candidate markers scan)
  · have hcheck := (@triple_markerCheck home files others minutes plan candidate markers (scan + 1)
      hmarkers).frame (F := fun s : State ↦
        scan < s.time ∧ Scanned others minutes candidate scan s.events) ?_
    · apply hcheck.mono
      · intro s hs
        obtain ⟨⟨h, hstatus⟩, hnothing⟩ := hs
        exact ⟨⟨h.prudent, h.named, h.later⟩, h.later, h.event, hstatus,
          h.found.symm.trans hnothing⟩
      · exact fun s hs ↦ ⟨⟨hs.1.1, hs.1.2.1⟩, hs.2.1, hs.2.2, hs.1.2.2⟩
      · exact fun s hs ↦ hs.1
    · intro s s' hextends hs
      obtain ⟨new, hnew, -⟩ := hextends.events
      refine ⟨Nat.lt_of_lt_of_le hs.1 hextends.time, ?_, hs.2.status, hs.2.nothing⟩
      rw [hnew]
      exact List.mem_append_left _ hs.2.event
  apply triple_ifFilled value_protectedMarker checked_tested
  · exact hprotected fun s hs ↦ hs.prudent
  apply triple_ite (M := fun s ↦ Prudent home files others minutes plan s.events)
  · exact (triple_remove hplan).mono (fun s hs ↦ ⟨hs.1.toTargeted, hs.1.missing hs.2, hs.1.later,
      hs.1.scanned⟩) (fun s hs ↦ hs) fun s hs ↦ hs
  · exact hreport "D" fun s hs ↦ hs.1
  · exact hreport "E" fun s hs ↦ hs.1

end Check

theorem Removal.mono {front' : List Event} {candidate : Text} {markers : List Text}
    (h : Removal home files others minutes front candidate markers e) (hsub : front ⊆ front') :
    Removal home files others minutes front' candidate markers e := by
  obtain ⟨hargv, scan, hlater, hscanned, hmissing⟩ := h
  exact ⟨hargv, scan, hlater, ⟨hsub hscanned.event, hscanned.status, hscanned.nothing⟩, hmissing⟩

theorem Prudent.append {events' : List Event}
    (h : Prudent home files others minutes plan events)
    (h' : Prudent home files others minutes plan events') :
    Prudent home files others minutes plan (events ++ events') := by
  induction events' using List.reverseRecOn with
  | nil =>
    rw [List.append_nil]
    exact h
  | append_singleton front e ih =>
    rw [← List.append_assoc]
    apply (ih (h'.of_prefix (List.prefix_append front [e]))).concat
    obtain hharmless | ⟨candidate, markers, hplan, hremoval⟩ := h' front e (List.prefix_refl _)
    · exact .inl hharmless
    · exact .inr ⟨candidate, markers, hplan,
        hremoval.mono (List.subset_append_right events front)⟩

def Planned (workspace : Text) (candidates : List Text) (candidate : Text) (markers : List Text) :
    Prop :=
  candidate ∈ candidates ∧ workspacePruneProtectionMarkerPaths workspace candidate = .ok markers

theorem marker_ne_nil {workspace candidate marker : Text} {markers : List Text}
    (h : workspacePruneProtectionMarkerPaths workspace candidate = .ok markers)
    (hmarker : marker ∈ markers) : marker ≠ [] := by
  obtain ⟨slashes, root, names, -, -, -, -, -, -, rfl⟩ :=
    ((marker_paths_exact workspace candidate).1 markers).mp h
  obtain ⟨dir, -, rfl⟩ := List.mem_map.mp hmarker
  intro hnil
  have hjoin : joinNames (dir ++ [pruneProtectionMarker]) = [] := (List.append_eq_nil_iff.mp hnil).2
  by_cases hdir : dir = []
  · rw [hdir, List.nil_append, joinNames_singleton] at hjoin
    exact absurd hjoin (by decide)
  · rw [joinNames_append hdir (List.cons_ne_nil _ _)] at hjoin
    exact absurd hjoin (by simp)

theorem mapM_ok {α β ε : Type} {f : α → Except ε β} {as : List α} {bs : List β}
    (h : as.mapM f = .ok bs) {b : β} (hb : b ∈ bs) : ∃ a ∈ as, f a = .ok b := by
  induction as generalizing bs with
  | nil =>
    cases h
    cases hb
  | cons a as ih =>
    rw [List.mapM_cons] at h
    cases hfirst : f a with
    | error e =>
      rw [hfirst] at h
      cases h
    | ok first =>
      rw [hfirst] at h
      cases hrest : as.mapM f with
      | error e =>
        rw [hrest] at h
        cases h
      | ok rest =>
        rw [hrest] at h
        cases h
        obtain rfl | hmem := List.mem_cons.mp hb
        · exact ⟨a, List.mem_cons_self, hfirst⟩
        · obtain ⟨a', ha', heq⟩ := ih hrest hmem
          exact ⟨a', List.mem_cons_of_mem a ha', heq⟩

/-- The script for some of the candidates is prudent, from the first to the last command. -/
theorem prudent_deleteCommand {workspace : Text} {candidates chunk : List Text} {command : Command}
    (hcommand : workspacePruneDeleteCommand workspace chunk minutes = .ok command)
    (hchunk : ∀ candidate ∈ chunk, candidate ∈ candidates) (time : ℕ) :
    Prudent home files others minutes (Planned workspace candidates)
      (exec (machine home files others) false command { time }).events := by
  rw [workspacePruneDeleteCommand] at hcommand
  cases hcommands : chunk.mapM (fun candidate ↦ do
      let markers ← workspacePruneProtectionMarkerPaths workspace candidate
      return Script.pruneCandidate minutes markers candidate) with
  | error e =>
    rw [hcommands] at hcommand
    cases hcommand
  | ok commands =>
    rw [hcommands] at hcommand
    cases hcommand
    have htriple : Triple (machine home files others) false
        (fun s ↦ Prudent home files others minutes (Planned workspace candidates) s.events)
        (.sequence commands)
        (fun s ↦ Prudent home files others minutes (Planned workspace candidates) s.events)
        fun _ ↦ False := by
      apply triple_sequence fun s hs ↦ hs
      intro c hc
      obtain ⟨candidate, hcandidate, heq⟩ := mapM_ok hcommands hc
      cases hmarkers : workspacePruneProtectionMarkerPaths workspace candidate with
      | error e =>
        rw [hmarkers] at heq
        cases heq
      | ok markers =>
        rw [hmarkers] at heq
        cases heq
        exact triple_pruneCandidate ⟨hchunk candidate hcandidate, hmarkers⟩
          fun marker hmarker ↦ marker_ne_nil hmarkers hmarker
    obtain ⟨hnormal, habrupt⟩ := htriple { time } rfl prudent_nil
    by_cases hl : (exec (machine home files others) false (.sequence commands)
        { time }).leaving = .nothing
    · exact hnormal hl
    · exact (habrupt hl).elim

theorem prudent_pruneSlices {cut : ℕ → Option ℕ} {workspace : Text} {candidates : List Text}
    (chunks : List (List Text)) (hchunks : ∀ chunk ∈ chunks, ∀ c ∈ chunk, c ∈ candidates)
    (i time : ℕ) : Prudent home files others minutes (Planned workspace candidates)
      (pruneSlices (machine home files others) cut workspace minutes i time chunks) := by
  induction chunks generalizing i time with
  | nil => exact prudent_nil
  | cons chunk chunks ih =>
    rw [pruneSlices]
    split
    · exact prudent_nil
    · rename_i command hcommand
      have hfirst := @prudent_deleteCommand home files others _ _ _ _ _
        hcommand (hchunks chunk List.mem_cons_self) time
      split
      · exact hfirst.of_prefix (List.take_prefix _ _)
      · exact hfirst.append
          (ih (fun c hc ↦ hchunks c (List.mem_cons_of_mem chunk hc)) (i + 1) _)

end Runs

theorem mem_slices {α : Type} {size n : ℕ} {xs chunk : List α} (h : chunk ∈ slicesOf size n xs)
    {x : α} (hx : x ∈ chunk) : x ∈ xs := by
  induction n generalizing xs with
  | zero => cases h
  | succ n ih =>
    cases xs with
    | nil => cases h
    | cons y ys =>
      rw [slicesOf] at h
      obtain rfl | hrest := List.mem_cons.mp h
      · exact List.mem_of_mem_take hx
      · exact List.mem_of_mem_drop (ih hrest)

theorem mem_pruneCandidates {fnmatch : Text → Text → Bool} {globs : List Text} {workspace : Text}
    {stdout : String} {candidate : Text}
    (h : candidate ∈ pruneCandidates fnmatch globs workspace stdout) :
    (∃ line ∈ splitLines stdout, candidate = normalizeRemotePath (stripChars line)) ∧
      ∃ glob ∈ globs, fnmatch (basename (candidate.rdropWhile (· == '/'))) glob = true := by
  have hfold : ∀ (lines : List (List Char)) (candidates : List Text)
      (P : Text → Prop) (f : List Text → List Char → List Text), (∀ c ∈ candidates, P c) →
      (∀ cs, ∀ line ∈ lines, ∀ c ∈ f cs line, c ∈ cs ∨ P c) →
      ∀ c ∈ lines.foldl f candidates, P c := by
    intro lines
    induction lines with
    | nil => exact fun candidates P f hstart _ ↦ hstart
    | cons line lines ih =>
      intro candidates P f hstart hstep
      rw [List.foldl_cons]
      apply ih (f candidates line) P f
      · intro c hc
        obtain hold | hnew := hstep candidates line List.mem_cons_self c hc
        · exact hstart c hold
        · exact hnew
      · exact fun cs l hl ↦ hstep cs l (List.mem_cons_of_mem line hl)
  refine hfold _ [] (fun c ↦ (∃ line ∈ splitLines stdout,
      c = normalizeRemotePath (stripChars line)) ∧
    ∃ glob ∈ globs, fnmatch (basename (c.rdropWhile (· == '/'))) glob = true) _
    (by intro c hc; cases hc) ?_ candidate h
  intro cs line hline c hc
  dsimp only at hc
  split at hc
  · exact .inl hc
  · rename_i hkeep
    obtain hold | hnew := List.mem_append.mp hc
    · exact .inl hold
    · rw [List.mem_singleton.mp hnew]
      simp only [not_or, not_not] at hkeep
      obtain ⟨glob, hglob, hmatch⟩ := List.any_eq_true.mp hkeep.2.2.1
      exact .inr ⟨⟨line, hline, rfl⟩, glob, hglob, hmatch⟩

section Directories

variable {workspace candidate : Text} {markers : List Text}

theorem ordinary_marker : IsName pruneProtectionMarker ∧ Ordinary pruneProtectionMarker := by
  refine ⟨⟨by decide, by decide⟩, by decide, by decide, by decide⟩

theorem ordinary_of_kept {slashes : ℕ} {names : List (List Char)}
    (h : Kept slashes names.reverse) (hback : dotDot ∉ names) : ∀ name ∈ names, Ordinary name := by
  intro name hname
  obtain ⟨hisName, hdot⟩ := h.names name (List.mem_reverse.mpr hname)
  exact ⟨hisName.1, hdot, fun heq ↦ hback (heq ▸ hname)⟩

theorem dotDot_notMem_below {slashes : ℕ} {root names : List (List Char)}
    (h : Kept slashes names.reverse) (hroot : dotDot ∉ root) (hbegins : root <+: names)
    (hslashes : root = [] → slashes ≠ 0) : dotDot ∉ names := by
  cases root with
  | nil => exact fun hmem ↦ h.rooted (hslashes rfl) (List.mem_reverse.mpr hmem)
  | cons first root =>
    obtain ⟨rest, hrest⟩ := hbegins
    have hfirst : first ≠ dotDot := fun heq ↦ hroot (heq ▸ List.mem_cons_self)
    have hreverse : names.reverse = (root ++ rest).reverse ++ first :: [] := by
      rw [← hrest, List.cons_append, List.reverse_cons]
    have hlower := h.front [] (root ++ rest).reverse first hreverse hfirst
    rw [← hrest, List.cons_append]
    intro hmem
    obtain heq | hmem := List.mem_cons.mp hmem
    · exact hfirst heq.symm
    · exact hlower (List.mem_reverse.mpr hmem)

theorem basename_normpath {path : Text} {last : List Char} {upper : List (List Char)}
    (h : normalNames (normpath path) = upper ++ [last]) :
    basename ((normpath path).rdropWhile (· == '/')) = last := by
  have hkept := (normalNames_spec path []).1
  have hnames : ∀ name ∈ normalNames path, IsName name := fun _ h ↦ isName_normalNames h
  rw [normpath_eq] at h ⊢
  split at h
  · rw [show normalNames dot = [] by decide] at h
    exact absurd h.symm (by simp)
  · rename_i hne
    rw [normalNames_spell (initialSlashes_le path) hkept] at h
    rw [if_neg hne, h]
    rw [h] at hnames
    have hstop : (spell (initialSlashes path) (upper ++ [last])).rdropWhile (· == '/') =
        spell (initialSlashes path) (upper ++ [last]) := by
      rw [List.rdropWhile_eq_self_iff]
      intro hpath hlast
      apply spell_getLast hnames (by simp)
      rw [List.getLast?_eq_some_getLast hpath, beq_iff_eq.mp hlast]
    rw [hstop, basename_spell (hnames last (by simp)).2]

theorem planned_below {path : Text} (hback : dotDot ∉ normalNames (stripChars workspace))
    (htidy : stripChars candidate = candidate) (hnormal : candidate = normpath path)
    (hmarkers : workspacePruneProtectionMarkerPaths workspace candidate = .ok markers)
    (home : List (List Char)) :
    resolve home (stripChars workspace) <+: resolve home candidate ∧
      resolve home (stripChars workspace) ≠ resolve home candidate ∧
      (resolve home candidate).getLast? =
        some (basename (candidate.rdropWhile (· == '/'))) ∧
      ∀ dir, resolve home (stripChars workspace) <+: dir → dir <+: resolve home candidate →
        ∃ marker ∈ markers, resolve home marker = dir ++ [pruneProtectionMarker] := by
  obtain ⟨slashes, root, names, hroot, hnames, hworkspace, hcandidate, hbegins, hne, rfl⟩ :=
    ((marker_paths_exact workspace candidate).1 markers).mp hmarkers
  obtain ⟨hleadRoot, hnormalRoot, -⟩ := resolve_remoteDir hworkspace hroot.isName home
  obtain ⟨hlead, hnormalNames, hslashes⟩ := resolve_remoteDir hcandidate hnames.isName home
  rw [htidy] at hlead hnormalNames hslashes
  have hkept : Kept (initialSlashes candidate) names.reverse := by
    rw [hnormalNames]
    exact (normalNames_spec candidate []).1
  have hbackRoot : dotDot ∉ root := hnormalRoot ▸ hback
  have hbackNames : dotDot ∉ names := by
    apply dotDot_notMem_below hkept hbackRoot hbegins
    intro hnil hzero
    exact absurd (hroot.root hnil) (by rw [hslashes.mp hzero]; decide)
  have hordinary := ordinary_of_kept hkept hbackNames
  have hordinaryRoot : ∀ name ∈ root, Ordinary name := fun name hname ↦
    hordinary name (hbegins.subset hname)
  rw [← hlead, ← hleadRoot, walk_ordinary hordinary, walk_ordinary hordinaryRoot]
  refine ⟨(List.prefix_append_right_inj _).mpr hbegins,
    fun heq ↦ hne (List.append_cancel_left heq), ?_, ?_⟩
  · have hnil : names ≠ [] := by
      intro hnil
      rw [hnil] at hbegins hne
      exact hne (List.prefix_nil.mp hbegins)
    obtain ⟨upper, last, hlast⟩ := List.eq_nil_or_concat names |>.resolve_left hnil
    rw [List.concat_eq_append] at hlast
    have hbase : basename (candidate.rdropWhile (· == '/')) = last := by
      rw [hnormal]
      apply basename_normpath
      rw [← hnormal, ← hnormalNames, hlast]
    rw [hbase, hlast, ← List.append_assoc, List.getLast?_concat]
  · intro dir habove hbelow
    obtain ⟨between, rfl⟩ := (List.prefix_append _ root).trans habove
    have hbetween : between ∈ ancestors root names := by
      rw [mem_ancestors hbegins]
      exact ⟨(List.prefix_append_right_inj _).mp habove, (List.prefix_append_right_inj _).mp hbelow⟩
    refine ⟨_, List.mem_map_of_mem hbetween, ?_⟩
    have hsub := ((mem_ancestors hbegins).mp hbetween).2.subset
    have hisName : ∀ name ∈ between ++ [pruneProtectionMarker], IsName name := by
      intro name hname
      obtain hold | hlast := List.mem_append.mp hname
      · exact hnames.isName name (hsub hold)
      · rw [List.mem_singleton.mp hlast]
        exact ordinary_marker.1
    have hwalk : ∀ name ∈ between ++ [pruneProtectionMarker], Ordinary name := by
      intro name hname
      obtain hold | hlast := List.mem_append.mp hname
      · exact hordinary name (hsub hold)
      · rw [List.mem_singleton.mp hlast]
        exact ordinary_marker.2
    rw [resolve_spell hisName, walk_ordinary hwalk, List.append_assoc]

end Directories

/-- Whatever the listing prints, wherever the connection breaks and however the files change
meanwhile, a pass runs tests, reports and scans, and it removes only artifacts below the workspace
that match a glob, whose scan has found nothing recent, and of which no directory up to the
workspace was found to hold a marker since. -/
theorem prune_removes {home : List (List Char)} {files : ℕ → Files} {others : World}
    {connection : Connection} {fnmatch : Text → Text → Bool} {globs : List Text}
    {remoteWorkspace : Text} {minutes : ℕ}
    (hback : dotDot ∉ normalNames (stripChars remoteWorkspace))
    (htidy : ∀ (status : ℕ) (stdout : String), connection.listing = some (status, stdout) →
      ∀ line ∈ splitLines stdout,
        stripChars (normalizeRemotePath (stripChars line)) = normalizeRemotePath (stripChars line))
    {e : Event} (he : e ∈ pruneWorkspaceArtifacts (machine home files others) connection fnmatch
      globs remoteWorkspace minutes) :
    Harmless e.argv ∨ ∃ (artifact : Text) (scan : ℕ), e.argv = removeArgv artifact ∧
      resolve home (stripChars remoteWorkspace) <+: resolve home artifact ∧
      resolve home (stripChars remoteWorkspace) ≠ resolve home artifact ∧
      (∃ glob ∈ globs, ∃ name, (resolve home artifact).getLast? = some name ∧
        fnmatch name glob = true) ∧
      scan < e.time ∧
      Scanned others minutes artifact scan (pruneWorkspaceArtifacts (machine home files others)
        connection fnmatch globs remoteWorkspace minutes) ∧
      ∀ dir, resolve home (stripChars remoteWorkspace) <+: dir → dir <+: resolve home artifact →
        Missing files (scan + 1) e.time (dir ++ [pruneProtectionMarker]) := by
  unfold pruneWorkspaceArtifacts at he ⊢
  by_cases hempty : stripChars remoteWorkspace = []
  · simp only [if_pos hempty] at he
    cases he
  · simp only [if_neg hempty] at he ⊢
    split at he
    · rename_i stdout hlisting
      have hprudent := @prudent_pruneSlices home files others minutes connection.cut
        (stripChars remoteWorkspace)
        (pruneCandidates fnmatch globs (stripChars remoteWorkspace) stdout)
        (slices 20 (pruneCandidates fnmatch globs (stripChars remoteWorkspace) stdout))
        (fun chunk hchunk c hc ↦ mem_slices hchunk hc) 0 0
      obtain ⟨front, rest, hsplit⟩ := List.append_of_mem he
      have hbegins : front ++ [e] <+: pruneSlices (machine home files others) connection.cut
          (stripChars remoteWorkspace) minutes 0 0 (slices 20
            (pruneCandidates fnmatch globs (stripChars remoteWorkspace) stdout)) :=
        ⟨rest, by rw [hsplit, List.append_assoc, List.singleton_append]⟩
      obtain hharmless | ⟨artifact, markers, hplan, hremoval⟩ := hprudent front e hbegins
      · exact .inl hharmless
      · obtain ⟨hargv, scan, hlater, hscanned, hmissing⟩ := hremoval
        obtain ⟨⟨line, hline, hartifact⟩, glob, hglob, hmatch⟩ := mem_pruneCandidates hplan.1
        have hartifactTidy : stripChars artifact = artifact := by
          rw [hartifact]
          exact htidy 0 stdout hlisting line hline
        have hws := stripChars_idem remoteWorkspace
        have hback' : dotDot ∉ normalNames (stripChars (stripChars remoteWorkspace)) := by
          rw [hws]
          exact hback
        obtain ⟨hbelow, hne, hlast, hmarkers⟩ :=
          planned_below hback' hartifactTidy hartifact hplan.2 home
        rw [hws] at hbelow hne hmarkers
        have hsub : front ⊆ front ++ [e] := List.subset_append_left front [e]
        refine .inr ⟨artifact, scan, hargv, hbelow, hne, ⟨glob, hglob, _, hlast, hmatch⟩, hlater,
          ⟨hbegins.subset (hsub hscanned.event), hscanned.status, hscanned.nothing⟩, ?_⟩
        intro dir habove hdir
        obtain ⟨marker, hmarker, heq⟩ := hmarkers dir habove hdir
        rw [← heq]
        exact hmissing marker hmarker
    · cases he

def unsealed : Files := fun name ↦
  if name = ["w".toList] ∨ name = ["w".toList, "a.x".toList] then some .directory else none

/-- The artifact is removed by the fifteenth command. -/
theorem prune_removes_unsealed : ∃ scan < 14, ∀ dir, ["w".toList] <+: dir →
    dir <+: ["w".toList, "a.x".toList] →
    Missing (fun _ ↦ unsealed) (scan + 1) 14 (dir ++ [pruneProtectionMarker]) := by
  have hevent : ⟨14, removeArgv "/w/a.x".toList⟩ ∈
      pruneWorkspaceArtifacts (machine [] (fun _ ↦ unsealed) fun _ _ ↦ {})
        { listing := some (0, "/w/a.x\n"), cut := fun _ ↦ none }
        (fun name glob ↦ glob.tail.isSuffixOf name) ["*.x".toList] "/w".toList 60 := by
    decide +kernel
  obtain hharmless | ⟨artifact, scan, hargv, -, -, -, hlater, -, hmissing⟩ :=
    prune_removes (by decide) (by
      intro status stdout hlisting line hline
      cases hlisting
      revert line
      decide) hevent
  · exact absurd hharmless (by
      intro h
      obtain ⟨name, hname, hhead⟩ := h
      revert name
      decide)
  · refine ⟨scan, hlater, ?_⟩
    have hartifact : "/w/a.x".toList = artifact := by
      injection hargv with _ hrest
      injection hrest with _ hrest
      injection hrest with _ hrest
      injection hrest
    rw [← hartifact] at hmissing
    exact hmissing

end SlurmScheduler.Retention
