import SlurmScheduler.EnvSync.Records

namespace SlurmScheduler.EnvSync

open Concurrent

def TargetPhase.cleans : TargetPhase → Bool
  | .cleaning _ => true
  | _ => false

/-- No call of `cancel` writes a row whose thread has looked at the job for the last time, and no
cancelled target comes to the end of its installation. -/
def heeded (w : World) : Move → Bool
  | .cancelNext call =>
      match w.cancels[call]? with
      | some .seen => !w.jobPhase.writes
      | some (.marking (i :: _)) => w.targets[i]?.all fun t ↦ !t.phase.writes
      | _ => true
  | .target i ok => w.targets[i]?.all fun t ↦ !(ok && t.phase.cleans && t.status == .cancelled)
  | _ => true

def Target.replaces (had : Home) (t : Target) : Bool :=
  t.script.any fun s ↦ s.begun && had.completeAt s.target

/-- No call of `cancel` writes a row whose thread has looked at the job for the last time, and no
target is cancelled, fails or loses its connection once its script has begun with the environment
of the account.  A script whose target has ended does not begin with it, and no cancelled target
comes to the end of its installation. -/
def careful (homes : String → Home) (w : World) : Move → Bool
  | .cancelNext call =>
      match w.cancels[call]? with
      | some .seen => !w.jobPhase.writes
      | some (.marking (i :: _)) =>
          w.targets[i]?.all fun t ↦ !t.phase.writes && !t.replaces (homes t.account)
      | _ => true
  | .target i ok =>
      w.targets[i]?.all fun t ↦
        if ok then !(t.phase.cleans && t.status == .cancelled) else !t.replaces (homes t.account)
  | .script i o =>
      w.targets[i]?.all fun t ↦ t.script.all fun s ↦
        !(s.begins o (w.homes t.account) && (homes t.account).completeAt s.target) ||
          (t.phase == .installing && t.status == .running && !s.fails o (w.homes t.account))
  | _ => true

theorem heeded_of_careful {homes : String → Home} {w : World} {m : Move}
    (h : careful homes w m = true) : heeded w m = true := by
  cases m with
  | cancelNext call =>
    simp only [careful] at h
    simp only [heeded]
    split
    · rename_i hcall
      rw [hcall] at h
      exact h
    · rename_i i rest hcall
      rw [hcall] at h
      cases ht : w.targets[i]? with
      | none => rfl
      | some t =>
        simp only [ht, Option.all_some, Bool.and_eq_true] at h ⊢
        exact h.1
    · rfl
  | target i ok =>
    simp only [careful] at h
    simp only [heeded]
    cases ht : w.targets[i]? with
    | none => rfl
    | some t =>
      rw [ht] at h
      cases ok with
      | true => simpa using h
      | false => rfl
  | cancel => rfl
  | job ok => rfl
  | script i o => rfl

def TargetPhase.statuses : TargetPhase → List SyncStatus
  | .waiting | .started => [.queued, .cancelled]
  | .checked => [.queued]
  | .preparing | .uploading | .installing | .readingPrefix | .cleaning _ | .raised =>
      [.running, .cancelled]
  | .installed _ | .recorded | .failing => [.running]
  | .completed => [.completed, .cancelled]
  | .ended => [.queued, .running, .failed, .cancelled]

structure Target.Settled (id : ℕ) (job : SyncStatus) (had home : Home)
    (hadOverlay overlay : Option Overlay) (t : Target) : Prop
    extends t.Follows id had home hadOverlay overlay where
  status : t.status ∈ t.phase.statuses
  cancelled : t.status = .cancelled → job = .cancelled

structure Target.Sound (id : ℕ) (job : SyncStatus) (had home : Home)
    (hadOverlay overlay : Option Overlay) (t : Target) : Prop
    extends t.Settled id job had home hadOverlay overlay where
  kept : ∀ path, had.registered = some path → had.tree path = .previous →
    t.replaces had = false → home.tree path = .previous
  replaces : t.replaces had = true →
    ((t.phase = .installing ∨ t.phase.late = true) ∧ t.status ≠ .cancelled) ∧
      ∀ s, t.script = some s → s.failed = false

section OneTarget

variable {env : String} {id : ℕ} {job : SyncStatus} {had home home' : Home}
variable {hadOverlay overlay overlay' : Option Overlay} {t t' : Target} {ok : Bool}

theorem Target.settled_waiting (account : String) :
    Target.Settled id job had had hadOverlay hadOverlay { account } :=
  { Target.follows_waiting account with
    status := List.mem_cons_self
    cancelled := nofun }

namespace Target.Settled

/-- A step that changes the place of the thread and the status -/
theorem go (hs : t.Settled id job had home hadOverlay overlay) {phase : TargetPhase}
    {status : SyncStatus}
    (hfollows : ({ t with status, phase } : Target).Follows id had home hadOverlay overlay')
    (hstatus : status ∈ phase.statuses) (hcancelled : status = .cancelled → t.status = .cancelled) :
    ({ t with status, phase } : Target).Settled id job had home hadOverlay overlay' :=
  { hfollows with
    status := hstatus
    cancelled := fun h ↦ hs.cancelled (hcancelled h) }

/-- The thread ends where it reads that the job is cancelled, and goes on if the row is not. -/
theorem status_heeded (hs : t.Settled id job had home hadOverlay overlay) {status : SyncStatus}
    {phase : TargetPhase} (hstatus : t.status ∈ [status, .cancelled])
    (hphase : phase.statuses = [status]) (hended : status ∈ TargetPhase.ended.statuses) :
    t.status ∈ (if job = .cancelled then TargetPhase.ended else phase).statuses := by
  rw [List.mem_pair] at hstatus
  by_cases hjob : job = .cancelled
  · rw [if_pos hjob]
    obtain heq | heq := hstatus
    · rw [heq]
      exact hended
    · rw [heq]
      decide
  · rw [if_neg hjob, hphase, List.mem_singleton]
    exact hstatus.resolve_right fun h ↦ hjob (hs.cancelled h)

theorem next (hs : t.Settled id job had home hadOverlay overlay)
    (hheeded : (!(ok && t.phase.cleans && t.status == .cancelled)) = true)
    (hnext : t.next id job ok overlay = some (t', overlay')) :
    t'.Settled id job had home hadOverlay overlay' := by
  have hfollows := hs.toFollows.next hnext
  have hstatus := hs.status
  cases hphase : t.phase
  all_goals
    have hmove := hnext
    rw [Target.next, hphase] at hmove
    rw [hphase] at hstatus
  case waiting => cases hmove
  case started =>
    obtain ⟨rfl, rfl⟩ := Prod.ext_iff.mp (Option.some.inj hmove)
    exact hs.go hfollows (hs.status_heeded hstatus rfl (by decide)) fun h ↦ h
  case checked =>
    obtain ⟨rfl, rfl⟩ := Prod.ext_iff.mp (Option.some.inj hmove)
    exact hs.go hfollows (by decide) fun h ↦ by cases h
  case preparing =>
    obtain ⟨rfl, rfl⟩ := Prod.ext_iff.mp (Option.some.inj hmove)
    refine hs.go hfollows ?_ fun h ↦ h
    cases ok
    all_goals exact hstatus
  case uploading =>
    cases ok with
    | true =>
      obtain ⟨rfl, rfl⟩ := Prod.ext_iff.mp (Option.some.inj hmove)
      exact { hfollows with
        status := hstatus
        cancelled := hs.cancelled }
    | false =>
      obtain ⟨rfl, rfl⟩ := Prod.ext_iff.mp (Option.some.inj hmove)
      exact hs.go hfollows hstatus fun h ↦ h
  case installing =>
    obtain ⟨rfl, s, -, ⟨-, rfl⟩ | ⟨-, rfl⟩⟩ := Target.next_installing hphase hnext
    all_goals exact hs.go hfollows hstatus fun h ↦ h
  case readingPrefix =>
    obtain ⟨rfl, s, -, rfl⟩ := Target.next_readingPrefix hphase hnext
    cases ok
    all_goals exact hs.go hfollows hstatus fun h ↦ h
  case cleaning installedPrefix =>
    obtain ⟨rfl, rfl⟩ := Prod.ext_iff.mp (Option.some.inj hmove)
    cases ok with
    | true =>
      rw [hphase] at hheeded
      have hrunning : t.status = .running := by
        simp only [TargetPhase.statuses, List.mem_cons, List.not_mem_nil, or_false] at hstatus
        exact hstatus.resolve_right (by simpa [TargetPhase.cleans] using hheeded)
      exact hs.go hfollows (List.mem_singleton.mpr hrunning) fun h ↦ h
    | false => exact hs.go hfollows hstatus fun h ↦ h
  case installed installedPrefix =>
    obtain ⟨rfl, rfl⟩ := Prod.ext_iff.mp (Option.some.inj hmove)
    exact hs.go hfollows hstatus fun h ↦ h
  case recorded =>
    obtain ⟨rfl, rfl⟩ := Prod.ext_iff.mp (Option.some.inj hmove)
    exact hs.go hfollows (by decide) fun h ↦ by cases h
  case completed => cases hmove
  case raised =>
    obtain ⟨rfl, rfl⟩ := Prod.ext_iff.mp (Option.some.inj hmove)
    exact hs.go hfollows (hs.status_heeded hstatus rfl (by decide)) fun h ↦ h
  case failing =>
    obtain ⟨rfl, rfl⟩ := Prod.ext_iff.mp (Option.some.inj hmove)
    exact hs.go hfollows (by decide) fun h ↦ by cases h
  case ended => cases hmove

theorem scriptNext {s s' : Script} {o : Outcome}
    (hs : t.Settled id job had home hadOverlay overlay) (hscript : t.script = some s)
    (hnext : s.next env o home = some (s', home')) :
    ({ t with script := some s' } : Target).Settled id job had home' hadOverlay overlay :=
  ⟨hs.toFollows.scriptNext hscript hnext, hs.status, hs.cancelled⟩

/-- A cancelled row stays cancelled while its thread goes on. -/
theorem cancelled_next (hs : t.Settled id job had home hadOverlay overlay)
    (hnext : t.next id job ok overlay = some (t', overlay')) (h : t.status = .cancelled) :
    t'.status = .cancelled := by
  have hstatus := hs.status
  cases hphase : t.phase
  all_goals
    rw [hphase, h] at hstatus
    have hmove := hnext
    rw [Target.next, hphase] at hmove
  case installing =>
    obtain ⟨-, s, -, ⟨-, rfl⟩ | ⟨-, rfl⟩⟩ := Target.next_installing hphase hnext
    all_goals exact h
  case readingPrefix =>
    obtain ⟨-, s, -, rfl⟩ := Target.next_readingPrefix hphase hnext
    exact h
  case uploading =>
    cases ok
    all_goals
      obtain ⟨rfl, -⟩ := Prod.ext_iff.mp (Option.some.inj hmove)
      exact h
  case waiting => cases hmove
  case completed => cases hmove
  case ended => cases hmove
  case checked => exact absurd hstatus (by decide)
  case recorded => exact absurd hstatus (by decide)
  case failing => exact absurd hstatus (by decide)
  all_goals
    obtain ⟨rfl, -⟩ := Prod.ext_iff.mp (Option.some.inj hmove)
    exact h

theorem cancel (hs : t.Settled id job had home hadOverlay overlay) (hjob : job = .cancelled)
    (hwrites : t.phase.writes = false) :
    ({ t with status := .cancelled } : Target).Settled id job had home hadOverlay overlay := by
  refine ⟨hs.toFollows.cancel, ?_, fun _ ↦ hjob⟩
  change SyncStatus.cancelled ∈ t.phase.statuses
  revert hwrites
  cases t.phase
  all_goals simp [TargetPhase.writes, TargetPhase.statuses]

theorem launch (hs : t.Settled id job had home hadOverlay overlay) (hphase : t.phase = .waiting) :
    ({ t with phase := .started } : Target).Settled id job had home hadOverlay overlay := by
  have hstatus := hs.status
  rw [hphase] at hstatus
  exact hs.go (hs.toFollows.launch hphase) hstatus fun h ↦ h

theorem ofJob {job' : SyncStatus} (hs : t.Settled id job had home hadOverlay overlay)
    (hjob : job = .cancelled → job' = .cancelled) :
    t.Settled id job' had home hadOverlay overlay :=
  { hs with cancelled := fun h ↦ hjob (hs.cancelled h) }

end Target.Settled

theorem Target.sound_waiting (account : String) :
    Target.Sound id job had had hadOverlay hadOverlay { account } :=
  { Target.settled_waiting account with
    kept := fun _ _ htree _ ↦ htree
    replaces := nofun }

namespace Target.Sound

/-- Before the script is launched, and after the target has failed, nothing is replaced. -/
theorem keeps_of_phase (hs : t.Sound id job had home hadOverlay overlay)
    (hinstalling : t.phase ≠ .installing) (hlate : t.phase.late = false) :
    t.replaces had = false := by
  by_contra h
  obtain hphase | hphase := (hs.replaces (by simpa using h)).1.1
  · exact hinstalling hphase
  · rw [hlate] at hphase
    cases hphase

/-- A step that changes the place of the thread and the status -/
theorem go (hs : t.Sound id job had home hadOverlay overlay) {phase : TargetPhase}
    {status : SyncStatus}
    (hsettled : ({ t with status, phase } : Target).Settled id job had home hadOverlay overlay')
    (hcancelled : status = .cancelled → t.status = .cancelled)
    (hreplaces : t.replaces had = true → phase.late = true) :
    ({ t with status, phase } : Target).Sound id job had home hadOverlay overlay' :=
  { hsettled with
    kept := hs.kept
    replaces := fun h ↦
      ⟨⟨.inr (hreplaces h), fun hst ↦ (hs.replaces h).1.2 (hcancelled hst)⟩, (hs.replaces h).2⟩ }

theorem next (hs : t.Sound id job had home hadOverlay overlay)
    (hallowed : (if ok then !(t.phase.cleans && t.status == .cancelled)
      else !t.replaces had) = true)
    (hnext : t.next id job ok overlay = some (t', overlay')) :
    t'.Sound id job had home hadOverlay overlay' := by
  have hsettled := hs.toSettled.next (by cases ok <;> simp_all) hnext
  have hkeeps := hs.keeps_of_phase
  have hlost : ok = false → t.replaces had = false := by
    intro hok
    rw [hok] at hallowed
    simpa using hallowed
  -- a step that leaves the script without a result has nothing replaced
  have hnone (h : t.replaces had = false) (phase : TargetPhase) :
      t.replaces had = true → phase.late = true := by
    intro hreplaces
    rw [h] at hreplaces
    cases hreplaces
  cases hphase : t.phase
  all_goals
    have hmove := hnext
    rw [Target.next, hphase] at hmove
    rw [hphase] at hkeeps
  case waiting => cases hmove
  case started =>
    obtain ⟨rfl, rfl⟩ := Prod.ext_iff.mp (Option.some.inj hmove)
    exact hs.go hsettled (fun h ↦ h) (hnone (hkeeps (fun h ↦ by cases h) rfl) _)
  case checked =>
    obtain ⟨rfl, rfl⟩ := Prod.ext_iff.mp (Option.some.inj hmove)
    exact hs.go hsettled (fun h ↦ by cases h) (hnone (hkeeps (fun h ↦ by cases h) rfl) _)
  case preparing =>
    obtain ⟨rfl, rfl⟩ := Prod.ext_iff.mp (Option.some.inj hmove)
    exact hs.go hsettled (fun h ↦ h) (hnone (hkeeps (fun h ↦ by cases h) rfl) _)
  case uploading =>
    have hno := hkeeps (fun h ↦ by cases h) rfl
    cases ok with
    | true =>
      obtain ⟨rfl, rfl⟩ := Prod.ext_iff.mp (Option.some.inj hmove)
      exact { hsettled with
        kept := fun path hpath htree _ ↦ hs.kept path hpath htree hno
        replaces := fun h ↦ by cases h }
    | false =>
      obtain ⟨rfl, rfl⟩ := Prod.ext_iff.mp (Option.some.inj hmove)
      exact hs.go hsettled (fun h ↦ h) (hnone hno _)
  case installing =>
    obtain ⟨rfl, s, hscript, ⟨hlast, rfl⟩ | ⟨hended, rfl⟩⟩ := Target.next_installing hphase hnext
    · refine hs.go hsettled (fun h ↦ h) (hnone ?_ _)
      obtain hok | hfailed := hlast
      · exact hlost hok
      · by_contra h
        have hok := (hs.replaces (by simpa using h)).2 s hscript
        rw [hfailed] at hok
        cases hok
    · exact hs.go hsettled (fun h ↦ h) fun _ ↦ rfl
  case readingPrefix =>
    obtain ⟨rfl, s, hscript, rfl⟩ := Target.next_readingPrefix hphase hnext
    cases ok with
    | true => exact hs.go hsettled (fun h ↦ h) fun _ ↦ rfl
    | false => exact hs.go hsettled (fun h ↦ h) (hnone (hlost rfl) _)
  case cleaning installedPrefix =>
    obtain ⟨rfl, rfl⟩ := Prod.ext_iff.mp (Option.some.inj hmove)
    cases ok with
    | true => exact hs.go hsettled (fun h ↦ h) fun _ ↦ rfl
    | false => exact hs.go hsettled (fun h ↦ h) (hnone (hlost rfl) _)
  case installed installedPrefix =>
    obtain ⟨rfl, rfl⟩ := Prod.ext_iff.mp (Option.some.inj hmove)
    exact hs.go hsettled (fun h ↦ h) fun _ ↦ rfl
  case recorded =>
    obtain ⟨rfl, rfl⟩ := Prod.ext_iff.mp (Option.some.inj hmove)
    exact hs.go hsettled (fun h ↦ by cases h) fun _ ↦ rfl
  case completed => cases hmove
  case raised =>
    obtain ⟨rfl, rfl⟩ := Prod.ext_iff.mp (Option.some.inj hmove)
    exact hs.go hsettled (fun h ↦ h) (hnone (hkeeps (fun h ↦ by cases h) rfl) _)
  case failing =>
    obtain ⟨rfl, rfl⟩ := Prod.ext_iff.mp (Option.some.inj hmove)
    exact hs.go hsettled (fun h ↦ by cases h) (hnone (hkeeps (fun h ↦ by cases h) rfl) _)
  case ended => cases hmove

theorem scriptNext {s s' : Script} {o : Outcome}
    (hs : t.Sound id job had home hadOverlay overlay) (hscript : t.script = some s)
    (hallowed : (!(s.begins o home && had.completeAt s.target) ||
      (t.phase == .installing && t.status == .running && !s.fails o home)) = true)
    (hnext : s.next env o home = some (s', home')) :
    ({ t with script := some s' } : Target).Sound id job had home' hadOverlay overlay := by
  have hsound := hs.script s hscript
  have hbegun := Script.begun_next hsound hnext
  have htarget := Script.target_next hsound hnext
  refine ⟨hs.toSettled.scriptNext hscript hnext, ?_, ?_⟩
  · intro path hpath htree hno
    refine Script.next_keeps hsound hnext (hs.kept path hpath htree ?_) ?_
    · by_contra h
      rw [Bool.not_eq_false, Target.replaces, hscript, Option.any_some, Bool.and_eq_true] at h
      obtain ⟨hbefore, hcomplete⟩ := h
      have hbegins : s.begins o home = true := by rw [Script.begins, hbefore, Bool.true_or]
      have hnow : ({ t with script := some s' } : Target).replaces had = true := by
        rw [Target.replaces, Option.any_some, hbegun, hbegins, htarget hbegins, Bool.true_and]
        exact hcomplete
      rw [hnow] at hno
      cases hno
    · intro hbegins heq
      have hnow : ({ t with script := some s' } : Target).replaces had = true := by
        simp [Target.replaces, hbegins, heq, Home.completeAt, hpath, htree]
      rw [hnow] at hno
      cases hno
  · intro hreplaces
    rw [Target.replaces, Option.any_some, Bool.and_eq_true, hbegun] at hreplaces
    obtain ⟨hbegins, hcomplete⟩ := hreplaces
    rw [htarget hbegins] at hcomplete
    rw [hbegins, hcomplete] at hallowed
    simp only [Bool.and_true, Bool.not_true, Bool.false_or, Bool.and_eq_true, beq_iff_eq,
      Bool.not_eq_true'] at hallowed
    obtain ⟨⟨hphase, hstatus⟩, hok⟩ := hallowed
    refine ⟨⟨.inl hphase, by simp [hstatus]⟩, ?_⟩
    intro s₁ hs₁
    cases hs₁
    rw [Script.failed_next hnext, hok]

theorem cancel (hs : t.Sound id job had home hadOverlay overlay) (hjob : job = .cancelled)
    (hwrites : t.phase.writes = false) (hno : t.replaces had = false) :
    ({ t with status := .cancelled } : Target).Sound id job had home hadOverlay overlay := by
  refine ⟨hs.toSettled.cancel hjob hwrites, hs.kept, ?_⟩
  intro h
  change t.replaces had = true at h
  rw [hno] at h
  cases h

theorem launch (hs : t.Sound id job had home hadOverlay overlay) (hphase : t.phase = .waiting) :
    ({ t with phase := .started } : Target).Sound id job had home hadOverlay overlay := by
  refine hs.go (hs.toSettled.launch hphase) (fun h ↦ h) ?_
  intro h
  rw [hs.keeps_of_phase (by rw [hphase]; nofun) (by rw [hphase]; rfl)] at h
  cases h

theorem ofJob {job' : SyncStatus} (hs : t.Sound id job had home hadOverlay overlay)
    (hjob : job = .cancelled → job' = .cancelled) :
    t.Sound id job' had home hadOverlay overlay :=
  { hs with cancelled := fun h ↦ hjob (hs.cancelled h) }

end Target.Sound

end OneTarget

end SlurmScheduler.EnvSync
