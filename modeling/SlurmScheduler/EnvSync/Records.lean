import SlurmScheduler.EnvSync.Manager

namespace SlurmScheduler.EnvSync

open Concurrent
open Slurm.Text (strip)

namespace TargetPhase

def early : TargetPhase → Bool
  | .waiting | .started | .checked | .preparing | .uploading => true
  | _ => false

def late : TargetPhase → Bool
  | .readingPrefix | .cleaning _ | .installed _ | .recorded | .completed => true
  | _ => false

def hasRecorded : TargetPhase → Bool
  | .recorded | .completed => true
  | _ => false

theorem late_of_hasRecorded (phase : TargetPhase) (h : phase.hasRecorded = true) :
    phase.late = true := by
  cases phase
  case recorded => rfl
  case completed => rfl
  all_goals cases h

end TargetPhase

def Target.Finished (t : Target) : Prop :=
  ∃ s, t.script = some s ∧ s.lines = [] ∧ s.failed = false

section OneTarget

variable {env : String} {id : ℕ} {job : SyncStatus} {had home home' : Home}
variable {hadOverlay overlay overlay' : Option Overlay} {t t' : Target} {ok : Bool}

/-- While the script runs, the thread waits for its exit status or the connection is lost. -/
theorem Target.next_installing (hphase : t.phase = .installing)
    (hnext : t.next id job ok overlay = some (t', overlay')) :
    overlay' = overlay ∧ ∃ s, t.script = some s ∧
      (((ok = false ∨ s.failed = true) ∧ t' = { t with phase := .raised }) ∨
        ((s.lines = [] ∧ s.failed = false) ∧ t' = { t with phase := .readingPrefix })) := by
  obtain ⟨account, status, phase, script⟩ := t
  cases hphase
  cases script with
  | none => cases hnext
  | some s =>
    dsimp only [Target.next] at hnext
    split at hnext
    · rename_i hok
      obtain ⟨rfl, rfl⟩ := Prod.ext_iff.mp (Option.some.inj hnext)
      exact ⟨rfl, s, rfl, .inl ⟨.inl (by simpa using hok), rfl⟩⟩
    · split at hnext
      · rename_i hexited
        obtain ⟨rfl, rfl⟩ := Prod.ext_iff.mp (Option.some.inj hnext)
        refine ⟨rfl, s, rfl, ?_⟩
        cases hfailed : s.failed with
        | true => exact .inl ⟨.inr rfl, rfl⟩
        | false => exact .inr ⟨⟨by simpa [Script.exited, hfailed] using hexited, rfl⟩, rfl⟩
      · cases hnext

theorem Target.next_readingPrefix (hphase : t.phase = .readingPrefix)
    (hnext : t.next id job ok overlay = some (t', overlay')) :
    overlay' = overlay ∧ ∃ s, t.script = some s ∧
      t' = { t with phase := if ok then .cleaning (strip s.target) else .raised } := by
  obtain ⟨account, status, phase, script⟩ := t
  cases hphase
  cases script with
  | none => cases hnext
  | some s =>
    obtain ⟨rfl, rfl⟩ := Prod.ext_iff.mp (Option.some.inj hnext)
    exact ⟨rfl, s, rfl, rfl⟩

theorem Target.next_account (hnext : t.next id job ok overlay = some (t', overlay')) :
    t'.account = t.account := by
  cases hphase : t.phase
  all_goals
    have hmove := hnext
    rw [Target.next, hphase] at hmove
  case installing =>
    obtain ⟨-, s, -, ⟨-, rfl⟩ | ⟨-, rfl⟩⟩ := Target.next_installing hphase hnext
    all_goals rfl
  case readingPrefix =>
    obtain ⟨-, s, -, rfl⟩ := Target.next_readingPrefix hphase hnext
    rfl
  case uploading =>
    cases ok
    all_goals
      obtain ⟨rfl, -⟩ := Prod.ext_iff.mp (Option.some.inj hmove)
      rfl
  case waiting => cases hmove
  case completed => cases hmove
  case ended => cases hmove
  all_goals
    obtain ⟨rfl, -⟩ := Prod.ext_iff.mp (Option.some.inj hmove)
    rfl

theorem Target.next_script (hnext : t.next id job ok overlay = some (t', overlay')) :
    t'.script = t.script ∨ (t.phase = .uploading ∧ t'.script = some {}) := by
  cases hphase : t.phase
  all_goals
    have hmove := hnext
    rw [Target.next, hphase] at hmove
  case installing =>
    obtain ⟨-, s, -, ⟨-, rfl⟩ | ⟨-, rfl⟩⟩ := Target.next_installing hphase hnext
    all_goals exact .inl rfl
  case readingPrefix =>
    obtain ⟨-, s, -, rfl⟩ := Target.next_readingPrefix hphase hnext
    exact .inl rfl
  case uploading =>
    cases ok with
    | true =>
      obtain ⟨rfl, -⟩ := Prod.ext_iff.mp (Option.some.inj hmove)
      exact .inr ⟨rfl, rfl⟩
    | false =>
      obtain ⟨rfl, -⟩ := Prod.ext_iff.mp (Option.some.inj hmove)
      exact .inl rfl
  case waiting => cases hmove
  case completed => cases hmove
  case ended => cases hmove
  all_goals
    obtain ⟨rfl, -⟩ := Prod.ext_iff.mp (Option.some.inj hmove)
    exact .inl rfl

structure Target.Follows (id : ℕ) (had home : Home) (hadOverlay overlay : Option Overlay)
    (t : Target) : Prop where
  early : t.phase.early = true → t.script = none
  late : t.phase.late = true → t.Finished
  completed : t.status = .completed → t.phase = .completed
  script : ∀ s, t.script = some s → s.Sound home
  registered : home.registered = had.registered
  prefixes : ∀ installedPrefix,
    t.phase = .cleaning installedPrefix ∨ t.phase = .installed installedPrefix →
      ∃ s, t.script = some s ∧ installedPrefix = strip s.target
  changed : overlay ≠ hadOverlay → t.phase.hasRecorded = true
  recorded : t.phase.hasRecorded = true →
    ∃ s, t.script = some s ∧ overlay = some ⟨strip s.target, id⟩

theorem Target.follows_waiting (account : String) :
    Target.Follows id had had hadOverlay hadOverlay { account } where
  early _ := rfl
  late hlate := by cases hlate
  completed hcompleted := by cases hcompleted
  script s hs := by cases hs
  registered := rfl
  prefixes _ hphase := hphase.elim nofun nofun
  changed hne := absurd rfl hne
  recorded hrecorded := by cases hrecorded

namespace Target.Follows

/-- Without the overlay written, a row is not completed and the overlay is as it was. -/
theorem unrecorded (hs : t.Follows id had home hadOverlay overlay)
    (hrecorded : t.phase.hasRecorded = false) : t.status ≠ .completed ∧ overlay = hadOverlay := by
  refine ⟨?_, ?_⟩
  · intro h
    rw [hs.completed h] at hrecorded
    cases hrecorded
  · by_contra h
    rw [hs.changed h] at hrecorded
    cases hrecorded

/-- A step up to the overlay, by which at most the place of the thread and the status change -/
theorem go (hs : t.Follows id had home hadOverlay overlay) {phase : TargetPhase}
    {status : SyncStatus} (hstatus : status ≠ .completed)
    (hrecorded : t.phase.hasRecorded = false ∧ phase.hasRecorded = false)
    (hearly : phase.early = true → t.script = none) (hlate : phase.late = true → t.Finished)
    (hprefixes : ∀ installedPrefix,
      phase = .cleaning installedPrefix ∨ phase = .installed installedPrefix →
        ∃ s, t.script = some s ∧ installedPrefix = strip s.target) :
    ({ t with status, phase } : Target).Follows id had home hadOverlay overlay where
  early := hearly
  late := hlate
  completed h := absurd h hstatus
  script := hs.script
  registered := hs.registered
  prefixes := hprefixes
  changed hne := absurd (hs.unrecorded hrecorded.1).2 hne
  recorded h := by
    change phase.hasRecorded = true at h
    rw [hrecorded.2] at h
    cases h

theorem next (hs : t.Follows id had home hadOverlay overlay)
    (hnext : t.next id job ok overlay = some (t', overlay')) :
    t'.Follows id had home hadOverlay overlay' := by
  have hearly := hs.early
  have hlate := hs.late
  have hprefixes := hs.prefixes
  have hunrecorded := hs.unrecorded
  cases hphase : t.phase
  all_goals
    have hmove := hnext
    rw [Target.next, hphase] at hmove
    have hrecorded := congrArg TargetPhase.hasRecorded hphase
    rw [hphase] at hearly hlate hprefixes hunrecorded
  case waiting => cases hmove
  case started =>
    obtain ⟨rfl, rfl⟩ := Prod.ext_iff.mp (Option.some.inj hmove)
    split
    · exact hs.go (hunrecorded rfl).1 ⟨hrecorded, rfl⟩ nofun nofun fun p h ↦ h.elim nofun nofun
    · exact hs.go (hunrecorded rfl).1 ⟨hrecorded, rfl⟩ (fun _ ↦ hearly rfl) nofun
        fun p h ↦ h.elim nofun nofun
  case checked =>
    obtain ⟨rfl, rfl⟩ := Prod.ext_iff.mp (Option.some.inj hmove)
    exact hs.go nofun ⟨hrecorded, rfl⟩ (fun _ ↦ hearly rfl) nofun fun p h ↦ h.elim nofun nofun
  case preparing =>
    obtain ⟨rfl, rfl⟩ := Prod.ext_iff.mp (Option.some.inj hmove)
    split
    · exact hs.go (hunrecorded rfl).1 ⟨hrecorded, rfl⟩ (fun _ ↦ hearly rfl) nofun
        fun p h ↦ h.elim nofun nofun
    · exact hs.go (hunrecorded rfl).1 ⟨hrecorded, rfl⟩ nofun nofun fun p h ↦ h.elim nofun nofun
  case uploading =>
    cases ok with
    | true =>
      obtain ⟨rfl, rfl⟩ := Prod.ext_iff.mp (Option.some.inj hmove)
      constructor
      · nofun
      · nofun
      · exact fun h ↦ absurd h (hunrecorded rfl).1
      · intro s hscript
        cases hscript
        exact Script.sound_start _
      · exact hs.registered
      · exact fun p h ↦ h.elim nofun nofun
      · exact fun hne ↦ absurd (hunrecorded rfl).2 hne
      · nofun
    | false =>
      obtain ⟨rfl, rfl⟩ := Prod.ext_iff.mp (Option.some.inj hmove)
      exact hs.go (hunrecorded rfl).1 ⟨hrecorded, rfl⟩ nofun nofun fun p h ↦ h.elim nofun nofun
  case installing =>
    obtain ⟨rfl, s, hscript, ⟨-, rfl⟩ | ⟨hended, rfl⟩⟩ := Target.next_installing hphase hnext
    · exact hs.go (hunrecorded rfl).1 ⟨hrecorded, rfl⟩ nofun nofun fun p h ↦ h.elim nofun nofun
    · exact hs.go (hunrecorded rfl).1 ⟨hrecorded, rfl⟩ nofun (fun _ ↦ ⟨s, hscript, hended⟩)
        fun p h ↦ h.elim nofun nofun
  case readingPrefix =>
    obtain ⟨rfl, s, hscript, rfl⟩ := Target.next_readingPrefix hphase hnext
    cases ok with
    | true =>
      refine hs.go (hunrecorded rfl).1 ⟨hrecorded, rfl⟩ nofun hlate ?_
      intro p h
      obtain h | h := h
      · cases h
        exact ⟨s, hscript, rfl⟩
      · cases h
    | false =>
      exact hs.go (hunrecorded rfl).1 ⟨hrecorded, rfl⟩ nofun nofun fun p h ↦ h.elim nofun nofun
  case cleaning installedPrefix =>
    obtain ⟨rfl, rfl⟩ := Prod.ext_iff.mp (Option.some.inj hmove)
    cases ok with
    | true =>
      refine hs.go (hunrecorded rfl).1 ⟨hrecorded, rfl⟩ nofun hlate ?_
      intro p h
      obtain h | h := h
      · cases h
      · cases h
        exact hprefixes _ (.inl rfl)
    | false =>
      exact hs.go (hunrecorded rfl).1 ⟨hrecorded, rfl⟩ nofun nofun fun p h ↦ h.elim nofun nofun
  case installed installedPrefix =>
    obtain ⟨rfl, rfl⟩ := Prod.ext_iff.mp (Option.some.inj hmove)
    obtain ⟨s, hscript, hbegins⟩ := hprefixes installedPrefix (.inr rfl)
    constructor
    · nofun
    · exact hlate
    · exact fun h ↦ absurd h (hunrecorded rfl).1
    · exact hs.script
    · exact hs.registered
    · exact fun p h ↦ h.elim nofun nofun
    · exact fun _ ↦ rfl
    · exact fun _ ↦ ⟨s, hscript, by rw [hbegins]⟩
  case recorded =>
    obtain ⟨rfl, rfl⟩ := Prod.ext_iff.mp (Option.some.inj hmove)
    constructor
    · nofun
    · exact hlate
    · exact fun _ ↦ rfl
    · exact hs.script
    · exact hs.registered
    · exact fun p h ↦ h.elim nofun nofun
    · exact fun _ ↦ rfl
    · exact fun _ ↦ hs.recorded hrecorded
  case completed => cases hmove
  case raised =>
    obtain ⟨rfl, rfl⟩ := Prod.ext_iff.mp (Option.some.inj hmove)
    split
    all_goals
      exact hs.go (hunrecorded rfl).1 ⟨hrecorded, rfl⟩ nofun nofun fun p h ↦ h.elim nofun nofun
  case failing =>
    obtain ⟨rfl, rfl⟩ := Prod.ext_iff.mp (Option.some.inj hmove)
    exact hs.go nofun ⟨hrecorded, rfl⟩ nofun nofun fun p h ↦ h.elim nofun nofun
  case ended => cases hmove

/-- While the script goes on, its thread waits for it or has given up. -/
theorem phase_of_next {s : Script} {r : Script × Home} {o : Outcome}
    (hs : t.Follows id had home hadOverlay overlay) (hscript : t.script = some s)
    (hnext : s.next env o home = some r) :
    t.phase.early = false ∧ t.phase.late = false := by
  obtain ⟨-, line, rest, hlines, -⟩ := Script.next_eq_some hnext
  refine ⟨?_, ?_⟩
  · by_contra h
    rw [hs.early (by simpa using h)] at hscript
    cases hscript
  · by_contra h
    obtain ⟨s₁, hs₁, hnil, -⟩ := hs.late (by simpa using h)
    rw [hscript] at hs₁
    cases hs₁
    rw [hlines] at hnil
    cases hnil

theorem scriptNext {s s' : Script} {o : Outcome}
    (hs : t.Follows id had home hadOverlay overlay) (hscript : t.script = some s)
    (hnext : s.next env o home = some (s', home')) :
    ({ t with script := some s' } : Target).Follows id had home' hadOverlay overlay := by
  obtain ⟨hearly, hlate⟩ := hs.phase_of_next hscript hnext
  have hrecorded : t.phase.hasRecorded = false := by
    by_contra h
    rw [t.phase.late_of_hasRecorded (by simpa using h)] at hlate
    cases hlate
  constructor
  · intro h
    rw [hearly] at h
    cases h
  · intro h
    rw [hlate] at h
    cases h
  · exact hs.completed
  · intro s₁ hs₁
    cases hs₁
    exact (hs.script s hscript).next hnext
  · rw [Script.next_registered hnext, hs.registered]
  · intro p h
    change t.phase = _ ∨ t.phase = _ at h
    obtain h | h := h
    all_goals
      rw [h] at hlate
      cases hlate
  · exact hs.changed
  · intro h
    rw [hrecorded] at h
    cases h

theorem cancel (hs : t.Follows id had home hadOverlay overlay) :
    ({ t with status := .cancelled } : Target).Follows id had home hadOverlay overlay :=
  { hs with completed := nofun }

theorem launch (hs : t.Follows id had home hadOverlay overlay) (hphase : t.phase = .waiting) :
    ({ t with phase := .started } : Target).Follows id had home hadOverlay overlay := by
  have hrecorded := congrArg TargetPhase.hasRecorded hphase
  exact hs.go (hs.unrecorded hrecorded).1 ⟨hrecorded, rfl⟩
    (fun _ ↦ hs.early (by rw [hphase]; rfl)) nofun fun p h ↦ h.elim nofun nofun

end Target.Follows

end OneTarget

end SlurmScheduler.EnvSync
