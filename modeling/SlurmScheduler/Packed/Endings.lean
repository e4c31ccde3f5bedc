import SlurmScheduler.Packed.Runs

namespace SlurmScheduler.Packed

open Batch (Steps)
open Capacity (PestatNode)

namespace Job

variable (job : Job)

theorem one_le_simCount : 1 ≤ job.simCount := le_max_left _ _

theorem one_le_initialLimit : 1 ≤ job.initialLimit := le_max_left _ _

theorem initialLimit_le_maxLimit : job.initialLimit ≤ job.maxLimit := le_max_left _ _

theorem sound_start (now : ℚ) : job.script.Sound (job.script.start now) where
  steps := .refl
  started := rfl
  orderly := ⟨fun _ _ h ↦ (nomatch h), fun _ _ _ h ↦ (nomatch h)⟩
  one_le_limit := job.one_le_initialLimit
  limit_le := job.initialLimit_le_maxLimit
  running_le := by
    have hone := job.one_le_initialLimit
    have hle := job.initialLimit_le_maxLimit
    change (0 : ℤ) ≤ job.maxLimit
    omega

end Job

section Runs

variable {s : Script} {job : Job} {now : ℚ} {readings : ℕ → Readings} {n : ℕ} {r r' : Runner}
  {e : Exit}

theorem run_succ_ok (h : s.run now readings (n + 1) = .ok r') :
    ∃ r, s.run now readings n = .ok r ∧ s.pass (readings n) r = .ok r' := by
  rw [Script.run] at h
  cases hrun : s.run now readings n with
  | error e => rw [hrun] at h; cases h
  | ok r =>
    rw [hrun] at h
    exact ⟨r, rfl, h⟩

theorem run_error (h : s.run now readings n = .error e) :
    ∃ m r, m < n ∧ s.run now readings m = .ok r ∧ s.pass (readings m) r = .error e := by
  induction n with
  | zero => cases h
  | succ n ih =>
    rw [Script.run] at h
    cases hrun : s.run now readings n with
    | error e' =>
      rw [hrun] at h
      cases h
      obtain ⟨m, r, hlt, hm⟩ := ih hrun
      exact ⟨m, r, by omega, hm⟩
    | ok r =>
      rw [hrun] at h
      exact ⟨n, r, by omega, hrun, h⟩

theorem sound_run (h : job.script.run now readings n = .ok r) : job.script.Sound r := by
  induction n generalizing r with
  | zero =>
    cases h
    exact job.sound_start now
  | succ n ih =>
    obtain ⟨r₀, hrun, hpass⟩ := run_succ_ok h
    exact sound_pass (ih hrun) hpass

end Runs

def outcome : Except Exit Runner → Runner
  | .ok r => r
  | .error e => e.runner

structure Script.Reports (s : Script) (printed : List Line) : Prop where
  started : startedIds printed <+: s.simulations
  finished : (finishedIds printed : Multiset ℤ) ≤ startedIds printed
  within : ∀ simId running limit, .started simId running limit ∈ printed →
    running ≤ limit ∧ limit ≤ s.maxLimit

/-- Every simulation is reported once, and with a zero. -/
def Script.AllDone (s : Script) (printed : List Line) : Prop :=
  (finishedIds printed).Perm s.simulations ∧
    ∀ simId rc, .finished simId rc ∈ printed → rc = 0

section Reports

variable {s : Script} {p : Readings} {r r₁ : Runner} {e : Exit}

theorem started_eq {pending : List ℤ} {running : Multiset ℤ} {printed : List Line}
    (hsteps : Steps (⟨s.simulations, 0, 0⟩ : Batch ℤ) ⟨pending, running, finishedIds printed⟩)
    (hstarted : startedIds printed ++ pending = s.simulations) :
    running + (finishedIds printed : Multiset ℤ) = startedIds printed := by
  have htotal : (pending : Multiset ℤ) + running + (finishedIds printed : Multiset ℤ) =
      (s.simulations : Multiset ℤ) + 0 + 0 := hsteps.total_eq
  rw [add_zero, add_zero, ← hstarted, ← Multiset.coe_add, add_assoc, add_comm] at htotal
  exact add_right_cancel htotal

theorem reports_of {pending : List ℤ} {running : Multiset ℤ} {printed : List Line}
    (hsteps : Steps (⟨s.simulations, 0, 0⟩ : Batch ℤ) ⟨pending, running, finishedIds printed⟩)
    (hstarted : startedIds printed ++ pending = s.simulations) (horderly : s.Orderly printed) :
    s.Reports printed where
  started := ⟨pending, hstarted⟩
  finished := by
    rw [← started_eq hsteps hstarted]
    exact Multiset.le_add_left _ _
  within := horderly.within

theorem reports_of_sound (h : s.Sound r) : s.Reports r.printed :=
  reports_of h.steps h.started h.orderly

/-- A line behind the reports says which simulation of those that are running has failed. -/
theorem reports_failed {pending : List ℤ} {others : List Worker} {w : Worker} {rc : ℤ}
    {printed : List Line}
    (hsteps : Steps (⟨s.simulations, 0, 0⟩ : Batch ℤ)
      ⟨pending, Worker.ids (w :: others), finishedIds printed⟩)
    (hstarted : startedIds printed ++ pending = s.simulations) (horderly : s.Orderly printed) :
    s.Reports (printed ++ [.finished w.simId rc]) where
  started := by
    rw [startedIds_append_finished]
    exact ⟨pending, hstarted⟩
  finished := by
    have heq := started_eq hsteps hstarted
    rw [startedIds_append_finished, finishedIds_append_finished, ← heq, ← Multiset.coe_add,
      add_comm]
    apply add_le_add_left
    exact Multiset.coe_le.mpr (List.Sublist.subperm (List.singleton_sublist.mpr List.mem_cons_self))
  within simId running limit hline := by
    rcases List.mem_append.mp hline with hold | hnew
    · exact horderly.within simId running limit hold
    · cases List.mem_singleton.mp hnew

inductive Ends (s : Script) (p : Readings) : Exit → Prop
  | completed (r : Runner) (hall : s.AllDone r.printed) : Ends s p (.completed r)
  | failed (simId rc : ℤ) (r : Runner) (hpoll : p.poll simId = some rc) (hrc : rc ≠ 0)
      (hline : .finished simId rc ∈ r.printed) : Ends s p (.failed simId rc r)
  | raised (simId : ℤ) (r : Runner) (hraise : p.launches simId = false)
      (hsim : simId ∈ s.simulations) (hnot : simId ∉ finishedIds r.printed) :
      Ends s p (.raised simId r)

theorem ends_of_pass (hsound : s.Sound r) (h : s.pass p r = .error e) :
    s.Reports e.runner.printed ∧ Ends s p e := by
  rcases pass_error h with ⟨rfl, hpending, hrunning⟩ |
    ⟨simId, rest, r₁, rfl, hpending, hlaunched, hraise⟩ | ⟨r₁, hlaunched, hpoll⟩
  · refine ⟨reports_of_sound hsound, .completed r ⟨?_, hsound.orderly.clean⟩⟩
    have hcomplete : r.batch.Complete := by
      refine ⟨hpending, ?_⟩
      rw [Runner.batch, hrunning]
      rfl
    exact Multiset.coe_eq_coe.mp (hsound.steps.done_complete rfl hcomplete)
  · have hsteps := hsound.steps.trans hlaunched.steps
    have hstarted : startedIds r₁.printed ++ r₁.pending = s.simulations :=
      hlaunched.started.trans hsound.started
    have hreports := reports_of hsteps hstarted
      (orderly_launched hsound.orderly hlaunched hsound.limit_le)
    have hnodup : (startedIds r₁.printed ++ simId :: rest).Nodup := by
      rw [← hpending, hstarted]
      exact nodup_pyRange _ _
    refine ⟨hreports, .raised _ _ hraise ?_ ?_⟩
    · rw [← hstarted, hpending]
      exact List.mem_append_right _ List.mem_cons_self
    · intro hmem
      have hmem' : simId ∈ startedIds r₁.printed :=
        Multiset.mem_coe.mp (Multiset.mem_of_le hreports.finished (Multiset.mem_coe.mpr hmem))
      exact (List.nodup_append.mp hnodup).2.2 simId hmem' simId List.mem_cons_self rfl
  · obtain ⟨w, rc, others, polled, hrc, hne, rfl, hsteps, hstarted, hprinted⟩ := poll_failed hpoll
    rw [List.nil_append] at hsteps
    have horderly := orderly_polled
      (orderly_launched hsound.orderly hlaunched hsound.limit_le) hprinted
    have hreports : s.Reports (polled ++ [.finished w.simId rc]) :=
      reports_failed ((hsound.steps.trans hlaunched.steps).trans hsteps)
        (by rw [hstarted, hlaunched.started, hsound.started]) horderly
    exact ⟨hreports, .failed _ _ _ hrc hne (List.mem_append_right _ List.mem_cons_self)⟩

def Readings.Waits (p : Readings) : Prop :=
  ∀ simId rc, p.poll simId = some rc → -256 < rc ∧ rc < 256

theorem Ends.status_iff (hwaits : p.Waits) (h : Ends s p e) :
    e.status = 0 ↔ s.AllDone e.runner.printed := by
  cases h with
  | completed r hall => exact ⟨fun _ ↦ hall, fun _ ↦ rfl⟩
  | failed simId rc r hpoll hrc hline =>
    constructor
    · intro hzero
      have hbyte := hwaits simId rc hpoll
      have hmod : rc % 256 = 0 := hzero
      omega
    · intro hall
      exact absurd (hall.2 simId rc hline) hrc
  | raised simId r hraise hsim hnot =>
    constructor
    · intro hzero
      cases hzero
    · intro hall
      exact absurd (hall.1.mem_iff.mpr hsim) hnot

end Reports

section Ended

variable {job : Job} {now : ℚ} {readings : ℕ → Readings} {n : ℕ} {e : Exit}

theorem ends_of_run (h : job.script.run now readings n = .error e) :
    job.script.Reports e.runner.printed ∧ ∃ m < n, Ends job.script (readings m) e := by
  obtain ⟨m, r, hlt, hrun, hpass⟩ := run_error h
  obtain ⟨hreports, hends⟩ := ends_of_pass (sound_run hrun) hpass
  exact ⟨hreports, m, hlt, hends⟩

/-- At every moment the simulations of a job have started in their order and none of them twice,
within the limit, and the status of the job is zero only if all of them are done. -/
theorem run_reports (job : Job) (now : ℚ) (readings : ℕ → Readings)
    (hwaits : ∀ m, (readings m).Waits) (n : ℕ) :
    job.script.Reports (outcome (job.script.run now readings n)).printed ∧
      ∀ e, job.script.run now readings n = .error e →
        (e.status = 0 ↔ job.script.AllDone e.runner.printed) := by
  constructor
  · cases hrun : job.script.run now readings n with
    | ok r => exact reports_of_sound (sound_run hrun)
    | error e => exact (ends_of_run hrun).1
  · intro e he
    obtain ⟨m, -, hends⟩ := (ends_of_run he).2
    exact hends.status_iff (hwaits m)

def smooth : Readings where
  launches _ := true
  clock _ := 0
  poll _ := some 0
  now := 0
  load5 := 0
  freeMem := 0

theorem smooth_waits : smooth.Waits := by
  intro simId rc hrc
  cases hrc
  decide

def pairJob : Job := JobForm.batchJob { cpus := 2, totalSimulations := 2, simulationsPerJob := 2 } 0

end Ended

section Progress

variable {s : Script} {p : Readings} {r r' : Runner}

theorem card_ids (running : List Worker) : Multiset.card (Worker.ids running : Multiset ℤ) =
    running.length := by
  rw [Multiset.coe_card, Worker.ids, List.length_map]

/-- A pass that changes nothing has nothing running, or nothing of it has come to an end. -/
theorem pass_moves (hsound : s.Sound r) (h : s.pass p r = .ok r') (hsame : r'.batch = r.batch)
    (hopen : ¬ r.batch.Complete) :
    r.running ≠ [] ∧ ∀ w ∈ r.running, p.poll w.simId = none := by
  obtain ⟨r₁, r₂, hlaunched, hfull, hpolled, rfl⟩ := pass_ok h
  have hramped := ramped s p r₂
  have hbatch : (s.maybeRamp p r₂).batch = r₂.batch := by
    rw [Runner.batch, Runner.batch, hramped.pending, hramped.running, hramped.finished]
  have hpoll := hpolled.steps
  rw [List.nil_append] at hpoll
  -- the launches and the polls of the pass have changed nothing either
  rw [hbatch] at hsame
  have hlaunch : r₁.batch = r.batch := by
    apply Steps.eq_of_back hlaunched.steps
    have hback : Steps r₁.batch r₂.batch := hpoll
    rw [hsame] at hback
    exact hback
  have hpolls : r₂.batch = r₁.batch := hsame.trans hlaunch.symm
  have hids : (Worker.ids r₁.running : Multiset ℤ) = Worker.ids r.running :=
    congrArg Batch.busy hlaunch
  have hcard : r₁.running.length = r.running.length := by
    rw [← card_ids, ← card_ids, hids]
  constructor
  · intro hempty
    have hpending : r₁.pending = r.pending := congrArg Batch.waiting hlaunch
    rcases hfull with hnone | hlimit
    · refine hopen ⟨hpending.symm.trans hnone, ?_⟩
      rw [Runner.batch, hempty]
      rfl
    · have hone := hsound.one_le_limit
      rw [hcard, hempty, List.length_nil] at hlimit
      omega
  · intro w hw
    by_contra hpoll'
    have hw₁ := hlaunched.runs w hw
    have hshort : r₂.running.length < r₁.running.length := by
      rw [hpolled.runs, List.nil_append]
      apply List.length_filter_lt_length_iff_exists.mpr
      refine ⟨w, hw₁, ?_⟩
      rwa [Option.isNone_iff_eq_none]
    have hsame₂ : r₂.running.length = r₁.running.length := by
      rw [← card_ids, ← card_ids]
      exact congrArg (fun b : Batch ℤ ↦ Multiset.card b.busy) hpolls
    omega

/-- Each simulation that runs comes to an end, with any status. -/
def Script.Terminates (s : Script) (now : ℚ) (readings : ℕ → Readings) : Prop :=
  ∀ n r, s.run now readings n = .ok r → ∀ w ∈ r.running,
    ∃ m, n ≤ m ∧ (readings m).poll w.simId ≠ none

/-- The program has an end when its simulations have one, whatever the load and the memory of the
node are, and it is a good one where nothing fails. -/
theorem packed_job_ends (job : Job) (now : ℚ) (readings : ℕ → Readings)
    (hterminates : job.script.Terminates now readings) :
    ∃ n e, job.script.run now readings n = .error e ∧
      ((∀ m simId, (readings m).launches simId = true) →
        (∀ m simId rc, (readings m).poll simId = some rc → rc = 0) →
          e.status = 0 ∧ job.script.AllDone e.runner.printed) := by
  have hend : ∃ n e, job.script.run now readings n = .error e := by
    by_contra hnever
    have hruns : ∀ n, ∃ r, job.script.run now readings n = .ok r := by
      intro n
      cases hrun : job.script.run now readings n with
      | ok r => exact ⟨r, rfl⟩
      | error e => exact absurd ⟨n, e, hrun⟩ hnever
    choose r hr using hruns
    have hpass : ∀ n, job.script.pass (readings n) (r n) = .ok (r (n + 1)) := by
      intro n
      obtain ⟨r₀, hrun, hok⟩ := run_succ_ok (hr (n + 1))
      rw [hr n] at hrun
      cases hrun
      exact hok
    have hmoves : ∀ n, ¬ (r n).batch.Complete → ∃ m, n ≤ m ∧ (r m).batch ≠ (r n).batch := by
      intro n hopen
      by_contra hstuck
      have hsame : ∀ m, n ≤ m → (r m).batch = (r n).batch := by
        intro m hle
        by_contra hne
        exact hstuck ⟨m, hle, hne⟩
      obtain ⟨hrunning, -⟩ := pass_moves (sound_run (hr n)) (hpass n) (hsame (n + 1) (by omega)) hopen
      obtain ⟨w, hw⟩ := List.exists_mem_of_ne_nil _ hrunning
      obtain ⟨m, hle, hpoll⟩ := hterminates n (r n) (hr n) w hw
      -- the simulation that ends at this pass still runs before it
      have hids : (Worker.ids (r m).running : Multiset ℤ) = Worker.ids (r n).running :=
        congrArg Batch.busy (hsame m hle)
      have hmem : w.simId ∈ Worker.ids (r m).running := by
        rw [← Multiset.mem_coe, hids, Multiset.mem_coe]
        exact List.mem_map_of_mem hw
      obtain ⟨w', hw', hid⟩ := List.mem_map.mp hmem
      have hback : (r (m + 1)).batch = (r m).batch := by
        rw [hsame (m + 1) (by omega), hsame m hle]
      have hnone := (pass_moves (sound_run (hr m)) (hpass m) hback
        (by rw [hsame m hle]; exact hopen)).2 w' hw'
      rw [hid] at hnone
      exact hpoll hnone
    obtain ⟨n, hcomplete⟩ := Batch.eventually_complete (fun n ↦ (r n).batch)
      (fun n ↦ pass_steps (hpass n)) hmoves
    have hempty : (r n).running = [] := by
      have hids : (Worker.ids (r n).running : Multiset ℤ) = 0 := hcomplete.2
      exact List.map_eq_nil_iff.mp (Multiset.coe_eq_zero _ |>.mp hids)
    have hstop := hpass n
    rw [Script.pass, if_pos ⟨hcomplete.1, List.isEmpty_iff.mpr hempty⟩] at hstop
    cases hstop
  obtain ⟨n, e, he⟩ := hend
  refine ⟨n, e, he, fun hlaunches hzero ↦ ?_⟩
  obtain ⟨m, -, hends⟩ := (ends_of_run he).2
  cases hends with
  | completed r hall => exact ⟨rfl, hall⟩
  | failed simId rc r hpoll hrc => exact absurd (hzero m simId rc hpoll) hrc
  | raised simId r hraise =>
    rw [hlaunches m simId] at hraise
    cases hraise

theorem packed_job_ends_pair : ∃ n e, pairJob.script.run 0 (fun _ ↦ smooth) n = .error e ∧ e.status = 0 ∧
    pairJob.script.AllDone e.runner.printed := by
  obtain ⟨n, e, he, hgood⟩ := packed_job_ends pairJob 0 (fun _ ↦ smooth)
    fun n r _ w _ ↦ ⟨n, le_rfl, Option.some_ne_none 0⟩
  exact ⟨n, e, he, hgood (fun _ _ ↦ rfl) fun _ _ _ hrc ↦ (Option.some.inj hrc).symm⟩

end Progress

section Pace

variable {s : Script} {p : Readings} {r r' : Runner}

theorem truncated_le {x : ℚ} {z : ℤ} (h : x ≤ z) : truncated x ≤ z := by
  rw [truncated]
  split
  · exact Int.cast_le.mp ((Int.floor_le x).trans h)
  · exact Int.ceil_le.mpr h

theorem truncated_pos {x : ℚ} (h : 0 < truncated x) : (truncated x : ℚ) ≤ x := by
  rw [truncated] at h ⊢
  split at h
  · rw [if_pos ‹_›]
    exact Int.floor_le x
  · rename_i hneg
    have hceil : ⌈x⌉ ≤ 0 := Int.ceil_le.mpr (by push_cast; exact (not_le.mp hneg).le)
    omega

theorem rampStep_le : s.rampStep p r ≤ max 1 r.limit :=
  truncated_le (min_le_right _ _)

def Script.Paced (s : Script) (now : ℚ) (r : Runner) : Prop :=
  ∃ k : ℕ, 60 * k ≤ r.lastRamp - now ∧ r.limit ≤ s.initialLimit * 2 ^ k

theorem paced_pass {now : ℚ} (hsound : s.Sound r) (hpaced : s.Paced now r)
    (h : s.pass p r = .ok r') : s.Paced now r' := by
  obtain ⟨k, htime, hle⟩ := hpaced
  obtain ⟨r₁, r₂, hlaunched, -, hpolled, rfl⟩ := pass_ok h
  have hlimit : r₂.limit = r.limit := hpolled.limit.trans hlaunched.limit
  have hramp : r₂.lastRamp = r.lastRamp := hpolled.lastRamp.trans hlaunched.lastRamp
  have hone := hsound.one_le_limit
  rcases maybeRamp_cases s p r₂ with ⟨-, heq⟩ | ⟨hdue, limit, lines, hkind, heq⟩
  · rw [heq]
    exact ⟨k, by rwa [hramp], by rwa [hlimit]⟩
  · rw [heq]
    refine ⟨k + 1, ?_, ?_⟩
    · rw [hramp] at hdue
      dsimp only
      push_cast
      linarith
    · have hdouble : limit ≤ 2 * r.limit := by
        cases hkind with
        | keep => omega
        | increase =>
          have hstep := rampStep_le (s := s) (p := p) (r := r₂)
          omega
        | reduce => omega
      calc limit ≤ 2 * r.limit := hdouble
        _ ≤ 2 * (s.initialLimit * 2 ^ k) := by omega
        _ = s.initialLimit * 2 ^ (k + 1) := by ring

theorem paced_run {job : Job} {now : ℚ} {readings : ℕ → Readings} {n : ℕ}
    (h : job.script.run now readings n = .ok r) : job.script.Paced now r := by
  induction n generalizing r with
  | zero =>
    cases h
    refine ⟨0, ?_, ?_⟩
    · change 60 * ((0 : ℕ) : ℚ) ≤ now - now
      norm_num
    · change job.initialLimit ≤ job.initialLimit * 2 ^ 0
      omega
  | succ n ih =>
    obtain ⟨r₀, hrun, hpass⟩ := run_succ_ok h
    exact paced_pass (sound_run hrun) (ih hrun) hpass

/-- Room for the workers that a raise lets in, beside the full footprint of the young ones -/
structure Script.Room (s : Script) (p : Readings) (r : Runner) (extra : ℤ) : Prop where
  cpus : p.load5 + (s.young p r + extra) * s.cpusPerSim ≤ s.allocatedCpus * s.loadTarget
  memory : (s.young p r + 1 + extra) * (s.memPerSimGb * (5 / 4)) ≤ p.freeMem

theorem room_of_step {step extra : ℤ} (hstep : step = s.rampStep p r) (hextra : 0 < extra)
    (hle : extra ≤ step) : s.Room p r extra := by
  have htruncated : (step : ℚ) ≤ min (min (s.cpuHeadroom p r) (s.memHeadroom p r)) (max 1 r.limit : ℤ) := by
    rw [hstep]
    exact truncated_pos (by rw [← Script.rampStep, ← hstep]; omega)
  have hextra' : (0 : ℚ) ≤ extra := by exact_mod_cast hextra.le
  have hcpu : (extra : ℚ) ≤ s.cpuHeadroom p r := by
    have hle' : (extra : ℚ) ≤ step := by exact_mod_cast hle
    exact hle'.trans (htruncated.trans ((min_le_left _ _).trans (min_le_left _ _)))
  have hmem : (extra : ℚ) ≤ s.memHeadroom p r := by
    have hle' : (extra : ℚ) ≤ step := by exact_mod_cast hle
    exact hle'.trans (htruncated.trans ((min_le_left _ _).trans (min_le_right _ _)))
  constructor
  · rw [Script.cpuHeadroom, le_div_iff₀ (lt_max_of_lt_left one_pos)] at hcpu
    have hcost : (extra : ℚ) * s.cpusPerSim ≤ extra * max 1 (s.cpusPerSim : ℚ) :=
      mul_le_mul_of_nonneg_left (le_max_right _ _) hextra'
    linarith
  · rw [Script.memHeadroom, le_div_iff₀ (lt_max_of_lt_left (by norm_num))] at hmem
    have hcost : (extra : ℚ) * (s.memPerSimGb * (5 / 4)) ≤
        extra * max (1 / 10) (s.memPerSimGb * (5 / 4)) :=
      mul_le_mul_of_nonneg_left (le_max_right _ _) hextra'
    linarith

theorem room_of_raise (h : s.pass p r = .ok r') (hraise : r.limit < r'.limit) :
    s.Room p r' (r'.limit - r.limit) := by
  obtain ⟨r₁, r₂, hlaunched, -, hpolled, rfl⟩ := pass_ok h
  have hlimit : r₂.limit = r.limit := hpolled.limit.trans hlaunched.limit
  have hyoung : s.young p (s.maybeRamp p r₂) = s.young p r₂ := by
    rw [Script.young, Script.young, (ramped s p r₂).running]
  have hroom : s.Room p r₂ ((s.maybeRamp p r₂).limit - r.limit) := by
    rcases maybeRamp_cases s p r₂ with ⟨-, heq⟩ | ⟨-, limit, lines, hkind, heq⟩
    · rw [heq, hlimit] at hraise
      exact absurd hraise (lt_irrefl _)
    · rw [heq] at hraise ⊢
      dsimp only at hraise ⊢
      cases hkind with
      | keep => omega
      | increase => exact room_of_step rfl (by omega) (by omega)
      | reduce => omega
  exact ⟨hyoung ▸ hroom.cpus, hyoung ▸ hroom.memory⟩

/-- The limit goes up no faster than it doubles each minute, and by no more workers than the node
has room for beside the full footprint of the young ones. -/
theorem limit_paced (job : Job) (now : ℚ) (readings : ℕ → Readings) (n : ℕ) (r : Runner)
    (h : job.script.run now readings n = .ok r) :
    (1 ≤ r.limit ∧ r.limit ≤ job.script.maxLimit ∧
      r.limit ≤ job.script.initialLimit * 2 ^ ⌊(r.lastRamp - now) / 60⌋₊) ∧
    ∀ r', job.script.pass (readings n) r = .ok r' → r.limit < r'.limit →
      job.script.Room (readings n) r' (r'.limit - r.limit) := by
  have hsound := sound_run h
  refine ⟨⟨hsound.one_le_limit, hsound.limit_le, ?_⟩, fun r' hpass hraise ↦ room_of_raise hpass hraise⟩
  obtain ⟨k, htime, hle⟩ := paced_run h
  have hk : k ≤ ⌊(r.lastRamp - now) / 60⌋₊ := by
    apply Nat.le_floor
    rw [le_div_iff₀ (by norm_num)]
    linarith
  calc r.limit ≤ job.script.initialLimit * 2 ^ k := hle
    _ ≤ job.script.initialLimit * 2 ^ ⌊(r.lastRamp - now) / 60⌋₊ :=
      mul_le_mul_of_nonneg_left (pow_le_pow_right₀ (by norm_num) hk)
        (le_trans zero_le_one job.one_le_initialLimit)

def later : Readings := { smooth with poll := fun _ ↦ none, now := 60, freeMem := 100 }

def slowJob : Job := { pairJob with initialWorkers := 1, cpus := 4 }

theorem limit_paced_slow : ∃ r', slowJob.script.pass later (slowJob.script.start 0) = .ok r' ∧
    r'.limit = 2 ∧ slowJob.script.Room later r' 1 := by
  refine ⟨⟨[2], [⟨1, 0⟩], 2, 60, [.started 1 1 1, .increased 2 0 100 1]⟩, by with_unfolding_all rfl, rfl, ?_⟩
  exact (limit_paced slowJob 0 (fun _ ↦ later) 0 (slowJob.script.start 0) rfl).2 _ (by with_unfolding_all rfl) (by decide)

end Pace

end SlurmScheduler.Packed
