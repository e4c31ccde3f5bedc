import Mathlib.Logic.Function.Basic
import SlurmScheduler.Shell.Words

namespace SlurmScheduler.Shell

def Part.Whole : Part → Prop
  | .char _ => True
  | .var _ quoted => quoted = true

instance (p : Part) : Decidable p.Whole :=
  match p with
  | .char _ => inferInstanceAs (Decidable True)
  | .var _ quoted => inferInstanceAs (Decidable (quoted = true))

structure Word where
  text : Text
  parts : List Part
  reads : Shell.parts text = some parts
  whole : ∀ p ∈ parts, p.Whole

abbrev Vars := Text → Text

def Part.content (vars : Vars) : Part → Text
  | .char c => [c]
  | .var name _ => vars name

theorem content_chars (vars : Vars) (text : Text) :
    (text.map Part.char).flatMap (Part.content vars) = text := by
  induction text with
  | nil => rfl
  | cons c text ih =>
    rw [List.map_cons, List.flatMap_cons, ih]
    rfl

namespace Word

def value (vars : Vars) (w : Word) : Text := w.parts.flatMap (Part.content vars)

def lit (text : Text) : Word where
  text := quote text
  parts := text.map .char
  reads := parts_quote text
  whole := by
    intro p hp
    obtain ⟨c, -, rfl⟩ := List.mem_map.mp hp
    trivial

def empty : Word where
  text := []
  parts := []
  reads := rfl
  whole := nofun

@[simp] theorem value_empty (vars : Vars) : empty.value vars = [] := rfl

@[simp] theorem value_lit (vars : Vars) (text : Text) : (lit text).value vars = text :=
  content_chars vars text

end Word

inductive Command
  | skip
  | run (argv : List Word)
  | assign (name : Text) (word : Word)
  /-- `name=$(argv)` -/
  | capture (name : Text) (argv : List Word)
  /-- `name=$?` -/
  | keepStatus (name : Text)
  | seq (first second : Command)
  | ite (condition accepted refused : Command)
  /-- `first && second` -/
  | both (first second : Command)
  /-- `first || second` -/
  | either (first second : Command)
  | forIn (name : Text) (words : List Word) (body : Command)
  /-- `break` -/
  | leave
  | exit (status : ℕ)

def Command.sequence : List Command → Command
  | [] => .skip
  | [c] => c
  | c :: d :: cs => .seq c (sequence (d :: cs))

structure Reply where
  status : ℕ := 0
  output : Text := []

/-- The replies to the commands, by the number of commands before and the arguments -/
abbrev World := ℕ → List Text → Reply

structure Event where
  time : ℕ
  argv : List Text
  deriving DecidableEq, Repr

inductive Leaving
  | nothing | loop | script
  deriving DecidableEq, Repr

structure State where
  vars : Vars := fun _ ↦ []
  time : ℕ := 0
  status : ℕ := 0
  output : Text := []
  events : List Event := []
  leaving : Leaving := .nothing

def chomped (output : Text) : Text := (output.reverse.dropWhile (· == '\n')).reverse

namespace State

def set (s : State) (name value : Text) : State :=
  { s with vars := Function.update s.vars name value }

@[simp] theorem set_time (s : State) (name value : Text) : (s.set name value).time = s.time := rfl

@[simp] theorem set_events (s : State) (name value : Text) :
    (s.set name value).events = s.events := rfl

@[simp] theorem set_leaving (s : State) (name value : Text) :
    (s.set name value).leaving = s.leaving := rfl

@[simp] theorem set_status (s : State) (name value : Text) :
    (s.set name value).status = s.status := rfl

@[simp] theorem set_vars_self (s : State) (name value : Text) :
    (s.set name value).vars name = value := Function.update_self ..

theorem set_vars_of_ne (s : State) {name other : Text} (value : Text) (h : other ≠ name) :
    (s.set name value).vars other = s.vars other := Function.update_of_ne h ..

/-- A command is called; with `set -e` its failure ends the script. -/
def call (world : World) (strict : Bool) (argv : List Text) (s : State) : State :=
  let status := (world s.time argv).status
  { s with
    time := s.time + 1, status, events := s.events ++ [⟨s.time, argv⟩]
    leaving := if strict && status != 0 then .script else s.leaving }

end State

def loop (name : Text) (body : State → State) : List Text → State → State
  | [], s => s
  | value :: values, s =>
      let s := body (s.set name value)
      match s.leaving with
      | .nothing => loop name body values s
      | .loop => { s with leaving := .nothing }
      | .script => s

/-- `strict` is whether the failure of a command ends the script where it stands. -/
def exec (world : World) : Bool → Command → State → State
  | _, .skip, s => { s with status := 0 }
  | strict, .run argv, s =>
      let argv := argv.map (·.value s.vars)
      { s.call world strict argv with output := s.output ++ (world s.time argv).output }
  | _, .assign name word, s => { s.set name (word.value s.vars) with status := 0 }
  | strict, .capture name argv, s =>
      let argv := argv.map (·.value s.vars)
      (s.call world strict argv).set name (chomped (world s.time argv).output)
  | _, .keepStatus name, s => { s.set name (toString s.status).toList with status := 0 }
  | strict, .seq first second, s =>
      let s := exec world strict first s
      if s.leaving = .nothing then exec world strict second s else s
  | strict, .ite condition accepted refused, s =>
      let s := exec world false condition s
      if s.leaving = .nothing then
        if s.status = 0 then exec world strict accepted s else exec world strict refused s
      else s
  | strict, .both first second, s =>
      let s := exec world false first s
      if s.leaving = .nothing ∧ s.status = 0 then exec world strict second s else s
  | strict, .either first second, s =>
      let s := exec world false first s
      if s.leaving = .nothing ∧ s.status ≠ 0 then exec world strict second s else s
  | strict, .forIn name words body, s =>
      loop name (exec world strict body) (words.map (·.value s.vars)) s
  | _, .leave, s => { s with leaving := .loop }
  | _, .exit status, s => { s with status, leaving := .script }

structure State.Extends (s s' : State) : Prop where
  time : s.time ≤ s'.time
  events : ∃ new, s'.events = s.events ++ new ∧ ∀ e ∈ new, s.time ≤ e.time ∧ e.time < s'.time

namespace State.Extends

variable {s s' s'' : State}

theorem of_same (htime : s'.time = s.time) (hevents : s'.events = s.events) : s.Extends s' :=
  ⟨Nat.le_of_eq htime.symm, [], by rw [hevents, List.append_nil], nofun⟩

theorem refl (s : State) : s.Extends s := of_same rfl rfl

theorem trans (h : s.Extends s') (h' : s'.Extends s'') : s.Extends s'' := by
  obtain ⟨new, hnew, htimes⟩ := h.events
  obtain ⟨new', hnew', htimes'⟩ := h'.events
  have hle := h.time
  have hle' := h'.time
  refine ⟨by omega, new ++ new', by rw [hnew', hnew, List.append_assoc], ?_⟩
  intro e he
  obtain he | he := List.mem_append.mp he
  · have hbounds := htimes e he
    omega
  · have hbounds := htimes' e he
    omega

theorem of_call (world : World) (strict : Bool) (argv : List Text)
    (htime : s'.time = (s.call world strict argv).time)
    (hevents : s'.events = (s.call world strict argv).events) : s.Extends s' := by
  have hsucc : s'.time = s.time + 1 := htime
  refine ⟨by omega, [⟨s.time, argv⟩], hevents, ?_⟩
  intro e he
  rw [List.mem_singleton.mp he]
  exact ⟨Nat.le_refl _, hsucc ▸ Nat.lt_succ_self _⟩

theorem of_loop {name : Text} {body : State → State} (h : ∀ s : State, s.Extends (body s))
    (values : List Text) (s : State) : s.Extends (loop name body values s) := by
  induction values generalizing s with
  | nil => exact refl s
  | cons value values ih =>
    have hset : s.Extends (s.set name value) := of_same rfl rfl
    have hbody := hset.trans (h (s.set name value))
    rw [loop]
    split
    · exact hbody.trans (ih _)
    · exact hbody.trans (of_same rfl rfl)
    · exact hbody

end State.Extends

theorem exec_extends (world : World) (strict : Bool) (c : Command) (s : State) :
    s.Extends (exec world strict c s) := by
  induction c generalizing strict s with
  | skip => exact .of_same rfl rfl
  | run argv => exact .of_call world strict _ rfl rfl
  | assign name word => exact .of_same rfl rfl
  | capture name argv => exact .of_call world strict _ rfl rfl
  | keepStatus name => exact .of_same rfl rfl
  | seq first second ihFirst ihSecond =>
    rw [exec]
    split
    · exact (ihFirst strict s).trans (ihSecond strict _)
    · exact ihFirst strict s
  | ite condition accepted refused ihCondition ihAccepted ihRefused =>
    rw [exec]
    split
    · split
      · exact (ihCondition false s).trans (ihAccepted strict _)
      · exact (ihCondition false s).trans (ihRefused strict _)
    · exact ihCondition false s
  | both first second ihFirst ihSecond =>
    rw [exec]
    split
    · exact (ihFirst false s).trans (ihSecond strict _)
    · exact ihFirst false s
  | either first second ihFirst ihSecond =>
    rw [exec]
    split
    · exact (ihFirst false s).trans (ihSecond strict _)
    · exact ihFirst false s
  | forIn name words body ih => exact .of_loop (ih strict) _ s
  | leave => exact .of_same rfl rfl
  | exit status => exact .of_same rfl rfl

structure RemoteRun where
  strict : Bool := false
  command : Command
  required : Bool := false

def sessionEvents (world : World) (vars : Vars) (cut : ℕ → Option ℕ) :
    ℕ → ℕ → List RemoteRun → List Event
  | _, _, [] => []
  | i, time, r :: rs =>
      let s := exec world r.strict r.command { vars, time }
      match cut i with
      | some n => s.events.take n
      | none =>
          if r.required ∧ s.status ≠ 0 then s.events
          else s.events ++ sessionEvents world vars cut (i + 1) s.time rs

theorem sessionEvents_all {world : World} {vars : Vars} {cut : ℕ → Option ℕ}
    (good : Event → Prop) {rs : List RemoteRun} (h : ∀ r ∈ rs, ∀ time : ℕ,
      ∀ e ∈ (exec world r.strict r.command { vars, time }).events, good e) (i time : ℕ) :
    ∀ e ∈ sessionEvents world vars cut i time rs, good e := by
  induction rs generalizing i time with
  | nil =>
    intro e he
    cases he
  | cons r rs ih =>
    have hfirst := h r List.mem_cons_self time
    have hrest := ih fun r hr ↦ h r (List.mem_cons_of_mem _ hr)
    intro e he
    rw [sessionEvents] at he
    split at he
    · exact hfirst e (List.mem_of_mem_take he)
    · split at he
      · exact hfirst e he
      · obtain he | he := List.mem_append.mp he
        · exact hfirst e he
        · exact hrest _ _ e he

/-- From the states of `P` the command ends in one of `Q`, or skips what follows in one of `B`. -/
def Triple (world : World) (strict : Bool) (P : State → Prop) (c : Command)
    (Q B : State → Prop) : Prop :=
  ∀ s, s.leaving = .nothing → P s →
    ((exec world strict c s).leaving = .nothing → Q (exec world strict c s)) ∧
      ((exec world strict c s).leaving ≠ .nothing → B (exec world strict c s))

section Rules

variable {world : World} {strict : Bool} {P P' Q Q' M B B' : State → Prop} {c first second : Command}
  {name : Text}

theorem Triple.mono (h : Triple world strict P c Q B) (hP : ∀ s, P' s → P s)
    (hQ : ∀ s, Q s → Q' s) (hB : ∀ s, B s → B' s) : Triple world strict P' c Q' B' := by
  intro s hs hp
  obtain ⟨hnormal, habrupt⟩ := h s hs (hP s hp)
  exact ⟨fun hl ↦ hQ _ (hnormal hl), fun hl ↦ hB _ (habrupt hl)⟩

theorem triple_skip (h : ∀ s, P s → Q { s with status := 0 }) :
    Triple world strict P .skip Q B :=
  fun s hs hp ↦ ⟨fun _ ↦ h s hp, fun hl ↦ absurd hs hl⟩

theorem triple_leave (h : ∀ s, P s → B { s with leaving := .loop }) :
    Triple world strict P .leave Q B :=
  fun s _ hp ↦ ⟨nofun, fun _ ↦ h s hp⟩

theorem triple_exit {status : ℕ} (h : ∀ s, P s → B { s with status, leaving := .script }) :
    Triple world strict P (.exit status) Q B :=
  fun s _ hp ↦ ⟨nofun, fun _ ↦ h s hp⟩

theorem triple_assign {word : Word}
    (h : ∀ s, P s → Q { s.set name (word.value s.vars) with status := 0 }) :
    Triple world strict P (.assign name word) Q B :=
  fun s hs hp ↦ ⟨fun _ ↦ h s hp, fun hl ↦ absurd hs hl⟩

theorem triple_keepStatus
    (h : ∀ s, P s → Q { s.set name (toString s.status).toList with status := 0 }) :
    Triple world strict P (.keepStatus name) Q B :=
  fun s hs hp ↦ ⟨fun _ ↦ h s hp, fun hl ↦ absurd hs hl⟩

theorem triple_run {argv : List Word} (h : ∀ s, s.leaving = .nothing → P s →
      Q (exec world false (.run argv) s)) : Triple world false P (.run argv) Q B := by
  intro s hs hp
  refine ⟨fun _ ↦ h s hs hp, fun hl ↦ ?_⟩
  exact absurd hs hl

theorem triple_capture {argv : List Word} (h : ∀ s, s.leaving = .nothing → P s →
      Q (exec world false (.capture name argv) s)) :
    Triple world false P (.capture name argv) Q B := by
  intro s hs hp
  refine ⟨fun _ ↦ h s hs hp, fun hl ↦ ?_⟩
  exact absurd hs hl

theorem triple_seq (hfirst : Triple world strict P first M B)
    (hsecond : Triple world strict M second Q B) :
    Triple world strict P (.seq first second) Q B := by
  intro s hs hp
  obtain ⟨hnormal, habrupt⟩ := hfirst s hs hp
  rw [exec]
  split
  · rename_i hl
    exact hsecond _ hl (hnormal hl)
  · rename_i hl
    exact ⟨fun h ↦ absurd h hl, fun _ ↦ habrupt hl⟩

theorem triple_ite {condition accepted refused : Command}
    (hcondition : Triple world false P condition M B)
    (haccepted : Triple world strict (fun s ↦ M s ∧ s.status = 0) accepted Q B)
    (hrefused : Triple world strict (fun s ↦ M s ∧ s.status ≠ 0) refused Q B) :
    Triple world strict P (.ite condition accepted refused) Q B := by
  intro s hs hp
  obtain ⟨hnormal, habrupt⟩ := hcondition s hs hp
  rw [exec]
  split
  · rename_i hl
    split
    · rename_i hstatus
      exact haccepted _ hl ⟨hnormal hl, hstatus⟩
    · rename_i hstatus
      exact hrefused _ hl ⟨hnormal hl, hstatus⟩
  · rename_i hl
    exact ⟨fun h ↦ absurd h hl, fun _ ↦ habrupt hl⟩

theorem triple_both (hfirst : Triple world false P first M B)
    (hsecond : Triple world strict (fun s ↦ M s ∧ s.status = 0) second Q B)
    (hfailed : ∀ s, M s → s.status ≠ 0 → Q s) :
    Triple world strict P (.both first second) Q B := by
  intro s hs hp
  obtain ⟨hnormal, habrupt⟩ := hfirst s hs hp
  rw [exec]
  split
  · rename_i hl
    exact hsecond _ hl.1 ⟨hnormal hl.1, hl.2⟩
  · rename_i hl
    refine ⟨fun h ↦ ?_, habrupt⟩
    exact hfailed _ (hnormal h) fun hstatus ↦ hl ⟨h, hstatus⟩

theorem triple_either (hfirst : Triple world false P first M B)
    (hsecond : Triple world strict (fun s ↦ M s ∧ s.status ≠ 0) second Q B)
    (hdone : ∀ s, M s → s.status = 0 → Q s) :
    Triple world strict P (.either first second) Q B := by
  intro s hs hp
  obtain ⟨hnormal, habrupt⟩ := hfirst s hs hp
  rw [exec]
  split
  · rename_i hl
    exact hsecond _ hl.1 ⟨hnormal hl.1, hl.2⟩
  · rename_i hl
    refine ⟨fun h ↦ ?_, habrupt⟩
    exact hdone _ (hnormal h) (not_not.mp fun hstatus ↦ hl ⟨h, hstatus⟩)

/-- The invariant of a loop is one of the values that are done. -/
theorem triple_forIn {words : List Word} {body : Command} {values : List Text}
    (inv : List Text → State → Prop) (hvalues : ∀ s, P s → words.map (·.value s.vars) = values)
    (hstart : ∀ s, P s → inv [] s)
    (hbody : ∀ done value, done ++ [value] <+: values → Triple world strict
      (fun s ↦ ∃ s₀ : State, s₀.leaving = .nothing ∧ inv done s₀ ∧ s = s₀.set name value) body
      (inv (done ++ [value]))
      fun s ↦ (s.leaving = .loop → Q { s with leaving := .nothing }) ∧
        (s.leaving = .script → B s))
    (hend : ∀ s, inv values s → Q s) : Triple world strict P (.forIn name words body) Q B := by
  have hloop : ∀ (rest done : List Text) (s : State), done ++ rest = values →
      s.leaving = .nothing → inv done s →
      ((loop name (exec world strict body) rest s).leaving = .nothing →
          Q (loop name (exec world strict body) rest s)) ∧
        ((loop name (exec world strict body) rest s).leaving ≠ .nothing →
          B (loop name (exec world strict body) rest s)) := by
    intro rest
    induction rest with
    | nil =>
      intro done s hdone hs hinv
      rw [List.append_nil] at hdone
      exact ⟨fun _ ↦ hend s (hdone ▸ hinv), fun hl ↦ absurd hs hl⟩
    | cons value rest ih =>
      intro done s hdone hs hinv
      have hprefix : done ++ [value] <+: values := ⟨rest, by rw [← hdone]; simp⟩
      obtain ⟨hnormal, habrupt⟩ :=
        hbody done value hprefix (s.set name value) hs ⟨s, hs, hinv, rfl⟩
      rw [loop]
      split
      · rename_i hl
        apply ih (done ++ [value]) _ _ hl (hnormal hl)
        rw [List.append_assoc, List.singleton_append, hdone]
      · rename_i hl
        have hq := (habrupt (by rw [hl]; decide)).1 hl
        exact ⟨fun _ ↦ hq, fun h ↦ absurd rfl h⟩
      · rename_i hl
        have hb := (habrupt (by rw [hl]; decide)).2 hl
        exact ⟨fun h ↦ absurd (hl.symm.trans h) (by decide), fun _ ↦ hb⟩
  intro s hs hp
  rw [exec, hvalues s hp]
  exact hloop values [] s (List.nil_append values) hs (hstart s hp)

theorem triple_exists {ι : Type} {p : ι → State → Prop}
    (h : ∀ i, Triple world strict (p i) c Q B) :
    Triple world strict (fun s ↦ ∃ i, p i s) c Q B := by
  intro s hs hp
  obtain ⟨i, hi⟩ := hp
  exact h i s hs hi

/-- What every later state has is kept beside anything else. -/
theorem Triple.frame {F : State → Prop} (h : Triple world strict P c Q B)
    (hF : ∀ s s' : State, s.Extends s' → F s → F s') :
    Triple world strict (fun s ↦ P s ∧ F s) c (fun s ↦ Q s ∧ F s) (fun s ↦ B s ∧ F s) := by
  intro s hs hp
  obtain ⟨hnormal, habrupt⟩ := h s hs hp.1
  have hkept := hF _ _ (exec_extends world strict c s) hp.2
  exact ⟨fun hl ↦ ⟨hnormal hl, hkept⟩, fun hl ↦ ⟨habrupt hl, hkept⟩⟩

/-- Commands one after another, each of which keeps the invariant -/
theorem triple_sequence {cs : List Command} {I : State → Prop}
    (hstatus : ∀ s : State, I s → I { s with status := 0 })
    (h : ∀ c ∈ cs, Triple world strict I c I B) :
    Triple world strict I (.sequence cs) I B := by
  induction cs with
  | nil => exact triple_skip hstatus
  | cons c cs ih =>
    have hc := h c List.mem_cons_self
    have hrest := ih fun d hd ↦ h d (List.mem_cons_of_mem c hd)
    cases cs with
    | nil => exact hc
    | cons d cs => exact triple_seq hc hrest

end Rules

end SlurmScheduler.Shell
