import SlurmScheduler.Packed.Runner
import SlurmScheduler.Batch.Workers

namespace SlurmScheduler.Packed

open Batch (Steps)

def Line.startedId : Line → Option ℤ
  | .started simId _ _ => some simId
  | _ => none

def Line.finishedId : Line → Option ℤ
  | .finished simId _ => some simId
  | _ => none

def startedIds (printed : List Line) : List ℤ := printed.filterMap Line.startedId

def finishedIds (printed : List Line) : List ℤ := printed.filterMap Line.finishedId

def Worker.ids (running : List Worker) : List ℤ := running.map Worker.simId

def Runner.batch (r : Runner) : Batch ℤ := ⟨r.pending, Worker.ids r.running, finishedIds r.printed⟩

namespace Script

variable (s : Script)

def simulations : List ℤ := pyRange s.simStart (s.simStart + s.simCount)

structure Orderly (printed : List Line) : Prop where
  clean : ∀ simId rc, .finished simId rc ∈ printed → rc = 0
  within : ∀ simId running limit, .started simId running limit ∈ printed →
    running ≤ limit ∧ limit ≤ s.maxLimit

structure Sound (r : Runner) : Prop where
  steps : Steps (⟨s.simulations, 0, 0⟩ : Batch ℤ) r.batch
  started : startedIds r.printed ++ r.pending = s.simulations
  orderly : s.Orderly r.printed
  one_le_limit : 1 ≤ r.limit
  limit_le : r.limit ≤ s.maxLimit
  running_le : (r.running.length : ℤ) ≤ s.maxLimit

end Script

section Launches

variable {p : Readings} {pending : List ℤ} {r r' : Runner} {e : Exit}

structure Launched (pending : List ℤ) (r r' : Runner) : Prop where
  steps : Steps ⟨pending, Worker.ids r.running, finishedIds r.printed⟩ r'.batch
  limit : r'.limit = r.limit
  lastRamp : r'.lastRamp = r.lastRamp
  started : startedIds r'.printed ++ r'.pending = startedIds r.printed ++ pending
  printed : ∀ line ∈ r'.printed, line ∈ r.printed ∨
    ∃ simId running, line = .started simId running r.limit ∧ running ≤ r.limit
  running_le : (r'.running.length : ℤ) ≤ max ↑r.running.length r.limit
  runs : ∀ w ∈ r.running, w ∈ r'.running

theorem launched_none (pending : List ℤ) (r : Runner) :
    Launched pending r { r with pending := pending } where
  steps := .refl
  limit := rfl
  lastRamp := rfl
  started := rfl
  printed := fun _ hline ↦ .inl hline
  running_le := le_max_left _ _
  runs := fun _ hw ↦ hw

theorem launched_cons {simId : ℤ} (hroom : (r.running.length : ℤ) < r.limit)
    (h : Launched pending (p.launch simId r) r') : Launched (simId :: pending) r r' := by
  have hids : (Worker.ids (p.launch simId r).running : Multiset ℤ) =
      simId ::ₘ (Worker.ids r.running : Multiset ℤ) := by
    rw [Readings.launch, Worker.ids, List.map_append, ← Multiset.coe_add, add_comm]
    rfl
  have hfinished : finishedIds (p.launch simId r).printed = finishedIds r.printed := by
    rw [Readings.launch, finishedIds, List.filterMap_append]
    exact List.append_nil _
  have hstarted : startedIds (p.launch simId r).printed = startedIds r.printed ++ [simId] := by
    rw [Readings.launch, startedIds, List.filterMap_append]
    rfl
  refine ⟨?_, h.limit, h.lastRamp, ?_, ?_, ?_, ?_⟩
  · refine .head ?_ h.steps
    rw [hids, hfinished]
    exact .start simId pending _ _
  · rw [h.started, hstarted, List.append_assoc, List.singleton_append]
  · intro line hline
    rcases h.printed line hline with hold | hnew
    · rcases List.mem_append.mp hold with hold | hnew
      · exact .inl hold
      · rw [List.mem_singleton] at hnew
        exact .inr ⟨simId, _, hnew, by omega⟩
    · exact .inr hnew
  · have hle := h.running_le
    rw [Readings.launch, List.length_append, List.length_singleton] at hle
    push_cast at hle
    omega
  · intro w hw
    exact h.runs w (List.mem_append_left _ hw)

theorem launched (h : p.launchPending pending r = .ok r') :
    Launched pending r r' ∧ (r'.pending = [] ∨ r.limit ≤ r'.running.length) := by
  induction pending generalizing r with
  | nil =>
    cases h
    exact ⟨launched_none [] r, .inl rfl⟩
  | cons simId rest ih =>
    rw [Readings.launchPending] at h
    split at h
    · rename_i hroom
      split at h
      · exact ⟨launched_cons hroom (ih h).1, (ih h).2⟩
      · cases h
    · rename_i hfull
      cases h
      exact ⟨launched_none _ r, .inr (not_lt.mp hfull)⟩

/-- What is launched before a launch that raises is launched all the same. -/
theorem launch_raised (h : p.launchPending pending r = .error e) :
    ∃ simId rest r₁, e = .raised simId { r₁ with pending := rest } ∧
      r₁.pending = simId :: rest ∧ Launched pending r r₁ ∧ p.launches simId = false := by
  induction pending generalizing r with
  | nil => cases h
  | cons simId rest ih =>
    rw [Readings.launchPending] at h
    split at h
    · rename_i hroom
      split at h
      · obtain ⟨simId', rest', r₁, he, hpending, hlaunched, hraise⟩ := ih h
        exact ⟨simId', rest', r₁, he, hpending, launched_cons hroom hlaunched, hraise⟩
      · rename_i hraise
        cases h
        exact ⟨simId, rest, { r with pending := simId :: rest }, rfl, rfl, launched_none _ r,
          Bool.not_eq_true _ ▸ hraise⟩
    · cases h

end Launches

section Polls

variable {p : Readings} {rest still : List Worker} {printed : List Line} {r r' : Runner} {e : Exit}

structure Polled (p : Readings) (rest still : List Worker) (printed : List Line) (r r' : Runner) :
    Prop where
  steps : Steps ⟨r.pending, Worker.ids (still ++ rest), finishedIds printed⟩ r'.batch
  pending : r'.pending = r.pending
  limit : r'.limit = r.limit
  lastRamp : r'.lastRamp = r.lastRamp
  started : startedIds r'.printed = startedIds printed
  printed : ∀ line ∈ r'.printed, line ∈ printed ∨ ∃ simId, line = .finished simId 0
  runs : r'.running = still ++ rest.filter (fun w ↦ (p.poll w.simId).isNone)

theorem finishedIds_append_finished (printed : List Line) (simId rc : ℤ) :
    finishedIds (printed ++ [.finished simId rc]) = finishedIds printed ++ [simId] := by
  rw [finishedIds, List.filterMap_append]
  rfl

theorem startedIds_append_finished (printed : List Line) (simId rc : ℤ) :
    startedIds (printed ++ [.finished simId rc]) = startedIds printed := by
  rw [startedIds, List.filterMap_append]
  exact List.append_nil _

theorem finish_step (pending : List ℤ) (still rest : List Worker) (w : Worker)
    (printed : List Line) :
    Batch.Step ⟨pending, Worker.ids (still ++ w :: rest), finishedIds printed⟩
      ⟨pending, Worker.ids (still ++ rest), finishedIds (printed ++ [.finished w.simId 0])⟩ := by
  have hids : (Worker.ids (still ++ w :: rest) : Multiset ℤ) =
      w.simId ::ₘ (Worker.ids (still ++ rest) : Multiset ℤ) := by
    rw [Worker.ids, Worker.ids, Multiset.cons_coe, Multiset.coe_eq_coe, ← List.map_cons]
    exact List.perm_middle.map _
  have hfinished : (finishedIds (printed ++ [.finished w.simId 0]) : Multiset ℤ) =
      w.simId ::ₘ (finishedIds printed : Multiset ℤ) := by
    rw [finishedIds_append_finished, ← Multiset.coe_add, add_comm]
    rfl
  rw [hids, hfinished]
  exact .finish w.simId pending _ _

theorem polled (h : p.pollRunning r rest still printed = .ok r') :
    Polled p rest still printed r r' := by
  induction rest generalizing still printed with
  | nil =>
    cases h
    refine ⟨?_, rfl, rfl, rfl, rfl, fun line hline ↦ .inl hline, ?_⟩
    · rw [List.append_nil]
      exact .refl
    · rw [List.filter_nil, List.append_nil]
  | cons w rest ih =>
    rw [Readings.pollRunning] at h
    cases hpoll : p.poll w.simId with
    | none =>
      rw [hpoll] at h
      have hrest := ih h
      have hruns : r'.running =
          still ++ (w :: rest).filter (fun w ↦ (p.poll w.simId).isNone) := by
        rw [hrest.runs, List.filter_cons_of_pos (by rw [hpoll]; rfl), List.append_assoc,
          List.singleton_append]
      have hsteps := hrest.steps
      rw [List.append_assoc, List.singleton_append] at hsteps
      exact ⟨hsteps, hrest.pending, hrest.limit, hrest.lastRamp, hrest.started, hrest.printed, hruns⟩
    | some rc =>
      rw [hpoll] at h
      dsimp only at h
      split at h
      · rename_i hrc
        subst hrc
        have hrest := ih h
        refine ⟨.head (finish_step _ _ _ _ _) hrest.steps, hrest.pending, hrest.limit,
          hrest.lastRamp, ?_, ?_, ?_⟩
        · rw [hrest.started, startedIds_append_finished]
        · intro line hline
          rcases hrest.printed line hline with hold | hnew
          · rcases List.mem_append.mp hold with hold | hnew
            · exact .inl hold
            · exact .inr ⟨w.simId, List.mem_singleton.mp hnew⟩
          · exact .inr hnew
        · rw [hrest.runs, List.filter_cons_of_neg (by rw [hpoll]; exact Bool.false_ne_true)]
      · cases h

/-- The polls end the program at the first simulation that has failed. -/
theorem poll_failed (h : p.pollRunning r rest still printed = .error e) :
    ∃ w rc others polled, p.poll w.simId = some rc ∧ rc ≠ 0 ∧
      e = .failed w.simId rc { r with printed := polled ++ [.finished w.simId rc] } ∧
      Steps ⟨r.pending, Worker.ids (still ++ rest), finishedIds printed⟩
        ⟨r.pending, Worker.ids (w :: others), finishedIds polled⟩ ∧
      startedIds polled = startedIds printed ∧
      ∀ line ∈ polled, line ∈ printed ∨ ∃ simId, line = .finished simId 0 := by
  induction rest generalizing still printed with
  | nil => cases h
  | cons w rest ih =>
    rw [Readings.pollRunning] at h
    cases hpoll : p.poll w.simId with
    | none =>
      rw [hpoll] at h
      have hrest := ih h
      rwa [List.append_assoc, List.singleton_append] at hrest
    | some rc =>
      rw [hpoll] at h
      dsimp only at h
      split at h
      · rename_i hrc
        subst hrc
        obtain ⟨w', rc', others, polled, hpoll', hrc', he, hsteps, hstarted, hprinted⟩ := ih h
        refine ⟨w', rc', others, polled, hpoll', hrc', he,
          .head (finish_step _ _ _ _ _) hsteps, ?_, ?_⟩
        · rw [hstarted, startedIds_append_finished]
        · intro line hline
          rcases hprinted line hline with hold | hnew
          · rcases List.mem_append.mp hold with hold | hnew
            · exact .inl hold
            · exact .inr ⟨w.simId, List.mem_singleton.mp hnew⟩
          · exact .inr hnew
      · rename_i hrc
        have hmiddle : (Worker.ids (still ++ w :: rest) : Multiset ℤ) =
            Worker.ids (w :: (still ++ rest)) := by
          rw [Multiset.coe_eq_coe]
          exact List.perm_middle.map _
        refine ⟨w, rc, still ++ rest, printed, hpoll, hrc, (Except.error.inj h).symm, ?_, rfl,
          fun line hline ↦ .inl hline⟩
        rw [hmiddle]

end Polls

section Ramps

variable (s : Script) (p : Readings) (r : Runner)

inductive Ramp : ℤ → List Line → Prop
  | keep : Ramp r.limit []
  | increase (hstep : 0 < s.rampStep p r) (hlimit : r.limit < s.maxLimit) :
      Ramp (min s.maxLimit (r.limit + s.rampStep p r))
        [.increased (min s.maxLimit (r.limit + s.rampStep p r)) p.load5 p.freeMem (s.young p r)]
  | reduce (hlimit : 1 < r.limit) (hover : s.overloaded p = true) :
      Ramp (max 1 (r.limit - 1)) [.reduced (max 1 (r.limit - 1)) p.load5 p.freeMem]

theorem maybeRamp_cases :
    (p.now - r.lastRamp < 60 ∧ s.maybeRamp p r = r) ∨
      (60 ≤ p.now - r.lastRamp ∧ ∃ limit lines, Ramp s p r limit lines ∧
        s.maybeRamp p r =
          { r with lastRamp := p.now, limit := limit, printed := r.printed ++ lines }) := by
  rw [Script.maybeRamp]
  split
  · rename_i hearly
    exact .inl ⟨hearly, rfl⟩
  · rename_i hdue
    refine .inr ⟨not_lt.mp hdue, ?_⟩
    dsimp only
    split
    · rename_i hincrease
      exact ⟨_, _, .increase hincrease.1 hincrease.2, rfl⟩
    · split
      · rename_i hreduce
        exact ⟨_, _, .reduce hreduce.1 hreduce.2, rfl⟩
      · refine ⟨_, _, .keep, ?_⟩
        rw [List.append_nil]

variable {s p r}

theorem Ramp.quiet {limit : ℤ} {lines : List Line} (h : Ramp s p r limit lines) :
    ∀ line ∈ lines, line.startedId = none ∧ line.finishedId = none := by
  intro line hline
  cases h with
  | keep => cases hline
  | increase =>
    rw [List.mem_singleton.mp hline]
    exact ⟨rfl, rfl⟩
  | reduce =>
    rw [List.mem_singleton.mp hline]
    exact ⟨rfl, rfl⟩

theorem Ramp.limit_mem {limit : ℤ} {lines : List Line} (h : Ramp s p r limit lines)
    (hone : 1 ≤ r.limit) (hmax : r.limit ≤ s.maxLimit) : 1 ≤ limit ∧ limit ≤ s.maxLimit := by
  cases h with
  | keep => exact ⟨hone, hmax⟩
  | increase hstep hlimit => exact ⟨by omega, min_le_left _ _⟩
  | reduce hlimit => exact ⟨le_max_left _ _, by omega⟩

structure Ramped (r r' : Runner) : Prop where
  pending : r'.pending = r.pending
  running : r'.running = r.running
  started : startedIds r'.printed = startedIds r.printed
  finished : finishedIds r'.printed = finishedIds r.printed
  printed : ∀ line ∈ r'.printed, line ∈ r.printed ∨
    line.startedId = none ∧ line.finishedId = none

theorem ramped (s : Script) (p : Readings) (r : Runner) : Ramped r (s.maybeRamp p r) := by
  rcases maybeRamp_cases s p r with ⟨-, heq⟩ | ⟨-, limit, lines, hramp, heq⟩
  · rw [heq]
    exact ⟨rfl, rfl, rfl, rfl, fun line hline ↦ .inl hline⟩
  · have hstarted : startedIds lines = [] :=
      List.filterMap_eq_nil_iff.mpr fun line hline ↦ (hramp.quiet line hline).1
    have hfinished : finishedIds lines = [] :=
      List.filterMap_eq_nil_iff.mpr fun line hline ↦ (hramp.quiet line hline).2
    rw [heq]
    refine ⟨rfl, rfl, ?_, ?_, ?_⟩
    · change startedIds (r.printed ++ lines) = startedIds r.printed
      rw [startedIds, List.filterMap_append]
      exact (congrArg _ hstarted).trans (List.append_nil _)
    · change finishedIds (r.printed ++ lines) = finishedIds r.printed
      rw [finishedIds, List.filterMap_append]
      exact (congrArg _ hfinished).trans (List.append_nil _)
    · intro line hline
      rcases List.mem_append.mp hline with hold | hnew
      · exact .inl hold
      · exact .inr (hramp.quiet line hnew)

theorem ramped_limit (s : Script) (p : Readings) (r : Runner) (hone : 1 ≤ r.limit)
    (hmax : r.limit ≤ s.maxLimit) :
    1 ≤ (s.maybeRamp p r).limit ∧ (s.maybeRamp p r).limit ≤ s.maxLimit := by
  rcases maybeRamp_cases s p r with ⟨-, heq⟩ | ⟨-, limit, lines, hramp, heq⟩
  · rw [heq]
    exact ⟨hone, hmax⟩
  · rw [heq]
    exact hramp.limit_mem hone hmax

end Ramps

section Passes

variable {s : Script} {p : Readings} {r r' : Runner} {e : Exit}

theorem pass_ok (h : s.pass p r = .ok r') :
    ∃ r₁ r₂, Launched r.pending r r₁ ∧ (r₁.pending = [] ∨ r.limit ≤ r₁.running.length) ∧
      Polled p r₁.running [] r₁.printed r₁ r₂ ∧ r' = s.maybeRamp p r₂ := by
  rw [Script.pass] at h
  split at h
  · cases h
  · cases hlaunch : p.launchPending r.pending r with
    | error e => rw [hlaunch] at h; cases h
    | ok r₁ =>
      rw [hlaunch] at h
      cases hpoll : p.pollRunning r₁ r₁.running [] r₁.printed with
      | error e =>
        have h' : (p.pollRunning r₁ r₁.running [] r₁.printed >>= fun r ↦
          pure (s.maybeRamp p r)) = Except.ok r' := h
        rw [hpoll] at h'
        cases h'
      | ok r₂ =>
        have h' : (p.pollRunning r₁ r₁.running [] r₁.printed >>= fun r ↦
          pure (s.maybeRamp p r)) = Except.ok r' := h
        rw [hpoll] at h'
        exact ⟨r₁, r₂, (launched hlaunch).1, (launched hlaunch).2, polled hpoll,
          (Except.ok.inj h').symm⟩

theorem pass_error (h : s.pass p r = .error e) :
    (e = .completed r ∧ r.pending = [] ∧ r.running = []) ∨
      (∃ simId rest r₁, e = .raised simId { r₁ with pending := rest } ∧
        r₁.pending = simId :: rest ∧ Launched r.pending r r₁ ∧ p.launches simId = false) ∨
      ∃ r₁, Launched r.pending r r₁ ∧ p.pollRunning r₁ r₁.running [] r₁.printed = .error e := by
  rw [Script.pass] at h
  split at h
  · rename_i hover
    exact .inl ⟨(Except.error.inj h).symm, hover.1, List.isEmpty_iff.mp hover.2⟩
  · cases hlaunch : p.launchPending r.pending r with
    | error e' =>
      rw [hlaunch] at h
      cases h
      exact .inr (.inl (launch_raised hlaunch))
    | ok r₁ =>
      rw [hlaunch] at h
      have h' : (p.pollRunning r₁ r₁.running [] r₁.printed >>= fun r ↦
        pure (s.maybeRamp p r)) = Except.error e := h
      cases hpoll : p.pollRunning r₁ r₁.running [] r₁.printed with
      | error e' =>
        rw [hpoll] at h'
        cases h'
        exact .inr (.inr ⟨r₁, (launched hlaunch).1, hpoll⟩)
      | ok r₂ => rw [hpoll] at h'; cases h'

theorem pass_steps (h : s.pass p r = .ok r') : Steps r.batch r'.batch := by
  obtain ⟨r₁, r₂, hlaunched, -, hpolled, rfl⟩ := pass_ok h
  have hramped := ramped s p r₂
  have hbatch : (s.maybeRamp p r₂).batch = r₂.batch := by
    rw [Runner.batch, Runner.batch, hramped.pending, hramped.running, hramped.finished]
  have hsteps := hpolled.steps
  rw [List.nil_append] at hsteps
  rw [hbatch]
  exact hlaunched.steps.trans hsteps

theorem orderly_launched {pending : List ℤ} (h : s.Orderly r.printed)
    (hlaunched : Launched pending r r') (hlimit : r.limit ≤ s.maxLimit) : s.Orderly r'.printed where
  clean simId rc hline := by
    rcases hlaunched.printed _ hline with hold | ⟨_, _, hnew, -⟩
    · exact h.clean simId rc hold
    · cases hnew
  within simId running limit hline := by
    rcases hlaunched.printed _ hline with hold | ⟨_, _, hnew, hle⟩
    · exact h.within simId running limit hold
    · cases hnew
      exact ⟨hle, hlimit⟩

theorem orderly_polled {printed printed' : List Line} (h : s.Orderly printed)
    (hpolled : ∀ line ∈ printed', line ∈ printed ∨ ∃ simId, line = .finished simId 0) :
    s.Orderly printed' where
  clean simId rc hline := by
    rcases hpolled _ hline with hold | ⟨_, hnew⟩
    · exact h.clean simId rc hold
    · cases hnew
      rfl
  within simId running limit hline := by
    rcases hpolled _ hline with hold | ⟨_, hnew⟩
    · exact h.within simId running limit hold
    · cases hnew

theorem orderly_ramped (h : s.Orderly r.printed) (hramped : Ramped r r') : s.Orderly r'.printed where
  clean simId rc hline := by
    rcases hramped.printed _ hline with hold | hnew
    · exact h.clean simId rc hold
    · cases hnew.2
  within simId running limit hline := by
    rcases hramped.printed _ hline with hold | hnew
    · exact h.within simId running limit hold
    · cases hnew.1

theorem sound_pass (hsound : s.Sound r) (h : s.pass p r = .ok r') : s.Sound r' := by
  have hsteps := pass_steps h
  obtain ⟨r₁, r₂, hlaunched, -, hpolled, rfl⟩ := pass_ok h
  have hramped := ramped s p r₂
  have hlimit₂ : r₂.limit = r.limit := hpolled.limit.trans hlaunched.limit
  have hlimit := ramped_limit s p r₂ (by rw [hlimit₂]; exact hsound.one_le_limit)
    (by rw [hlimit₂]; exact hsound.limit_le)
  have horderly₁ := orderly_launched hsound.orderly hlaunched hsound.limit_le
  have hrunning : r₂.running.length ≤ r₁.running.length := by
    rw [hpolled.runs, List.nil_append]
    exact List.length_filter_le _ _
  exact {
    steps := hsound.steps.trans hsteps
    started := by
      rw [hramped.started, hramped.pending, hpolled.started, hpolled.pending, hlaunched.started,
        hsound.started]
    orderly := orderly_ramped (orderly_polled horderly₁ hpolled.printed) hramped
    one_le_limit := hlimit.1
    limit_le := hlimit.2
    running_le := by
      have hmax := hlaunched.running_le
      have hold := hsound.running_le
      have hle := hsound.limit_le
      rw [hramped.running]
      omega }

end Passes

end SlurmScheduler.Packed
