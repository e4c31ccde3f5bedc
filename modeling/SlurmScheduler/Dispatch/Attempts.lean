import SlurmScheduler.Dispatch.Pieces

namespace SlurmScheduler.Dispatch

open Relational Concurrent
open Pool (TaskStatus)

/-- The row that a write of a task was decided on, and what it writes. -/
def Write.snapshot? : Write → Option (Task × TaskChange)
  | updateTask seen c | updateTaskIfStatus seen _ c => some (seen, c)
  | updateTaskIfAttachClaim seen _ _ c | updatePooledTaskIfReservedCapacity seen _ c =>
      some (seen, c)
  | _ => none

/-- The row is in a status on which the change is decided, and unless the change begins an attempt
it belongs to the attempt of the snapshot. -/
def SameAttempt (t seen : Task) (c : TaskChange) : Prop :=
  t.status ∈ c.expects ∧ (c.kind ≠ .claim → t.attachToken = seen.attachToken)

/-- A write that does not compare its row with the attempt of its snapshot meets the attempt. -/
def Current (s : State) : Write → Prop
  | .updateTask seen c => ∀ t ∈ s.tasks, t.id = seen.id → SameAttempt t seen c
  | .updateTaskIfStatus seen _ c => c.kind ≠ .claim → ∀ t ∈ s.tasks, t.id = seen.id →
      t.attachToken = seen.attachToken
  | _ => True

/-- A timed out attempt that the process keeps in memory is still the one of its row. -/
def TracksAttempts (s : State) : Prop := ∀ t ∈ s.timedOutTasks, t.tokenShown s = true

/-- No write has given the row another token, and for `update_task` another status, since the
thread last saw it as its snapshot has it. -/
def Unmixed (d : Decision State Write Lock) : Write → Prop
  | .updateTask seen _ =>
      d.Undisturbed (·.attempt? seen.id) (·.all (· == (seen.status, seen.attachToken)))
  | .updateTaskIfStatus seen _ c => c.kind ≠ .claim →
      d.Undisturbed (·.attachToken? seen.id) (·.all (· == seen.attachToken))
  | .trackTimedOut seen =>
      d.Undisturbed (·.attachToken? seen.id) (·.all (· == seen.attachToken))
  | _ => True

/-- Nothing comes between a snapshot and its write: neither between the thread's look and its
write nor, for a timed out attempt, while the process keeps it in memory. -/
structure AttemptStands (d : Decision State Write Lock) : Prop where
  unmixed : Unmixed d d.write
  tracked : ∀ t ∈ d.before.timedOutTasks,
    d.after.attachToken? t.id = d.before.attachToken? t.id

instance (t seen : Task) (c : TaskChange) : Decidable (SameAttempt t seen c) :=
  inferInstanceAs (Decidable (_ ∧ _))

instance (s : State) : Decidable (TracksAttempts s) := inferInstanceAs (Decidable (∀ t ∈ _, _))

instance (d : Decision State Write Lock) (w : Write) : Decidable (Unmixed d w) := by
  induction w using Write.casesOn <;> (unfold Unmixed; infer_instance)

instance (d : Decision State Write Lock) : Decidable (AttemptStands d) :=
  decidable_of_iff (Unmixed d d.write ∧ ∀ t ∈ d.before.timedOutTasks,
    d.after.attachToken? t.id = d.before.attachToken? t.id)
    ⟨fun h ↦ ⟨h.1, h.2⟩, fun h ↦ ⟨h.1, h.2⟩⟩

theorem attaching_mem_expects {c : TaskChange} (h : c.ofAttempt = true) :
    TaskStatus.attaching ∈ c.expects := by
  cases c <;> first | exact List.mem_singleton.mpr rfl | cases h

/-- The statuses that a guarded write compares with are those it is decided on. -/
theorem mem_expects_of_expected {site : Site} {held : Lock → Bool} {seen : Task}
    {expected : List TaskStatus} {c : TaskChange}
    (hfoot : Footprint site held (.updateTaskIfStatus seen expected c)) {status : TaskStatus}
    (h : status ∈ expected) : status ∈ c.expects := by
  rcases hfoot with ⟨aid, account, token, rfl, rfl, -, -⟩ | ⟨message, rfl, rfl⟩ |
    ⟨rfl, rfl, hcancellable⟩
  · exact h
  · exact h
  · exact List.mem_singleton.mp h ▸ hcancellable

theorem queued_of_reservedCapacity {s : State} {claim : PooledClaim} {t : Task}
    (h : s.reservedCapacity claim t = true) : t.status = .queued := by
  simp only [State.reservedCapacity, Bool.and_eq_true, beq_iff_eq] at h
  exact h.1.1.1.1.1

/-- One write of a task changes a row of the attempt that it is about, or none. -/
theorem attempt_step {site : Site} {held : Lock → Bool} {s : State} {w : Write} {t t' : Task}
    (hfoot : Footprint site held w) (hcurrent : Current s w) (ht : t ∈ s.tasks)
    (hstep : TaskStep s t t' w) {seen : Task} {c : TaskChange}
    (hw : w.snapshot? = some (seen, c)) : t' = t ∨ SameAttempt t seen c := by
  cases hstep with
  | same _ h => exact .inl h
  | key seen' c' hid _ =>
      obtain ⟨rfl, rfl⟩ := Prod.mk.inj (Option.some.inj hw)
      exact .inr (hcurrent t ht hid)
  | status seen' expected c' hid hstatus _ =>
      obtain ⟨rfl, rfl⟩ := Prod.mk.inj (Option.some.inj hw)
      exact .inr ⟨mem_expects_of_expected hfoot hstatus, fun hclaim ↦ hcurrent hclaim t ht hid⟩
  | attempt seen' token b c' hclaim _ =>
      obtain ⟨rfl, rfl⟩ := Prod.mk.inj (Option.some.inj hw)
      obtain ⟨htoken, hattempt⟩ := hfoot
      simp only [Task.attachClaim, Bool.and_eq_true, beq_iff_eq] at hclaim
      refine .inr ⟨?_, fun _ ↦ hclaim.1.2.trans htoken⟩
      rw [hclaim.1.1.2]
      exact attaching_mem_expects hattempt
  | pooled seen' claim c' _ hreserved _ =>
      obtain ⟨rfl, rfl⟩ := Prod.mk.inj (Option.some.inj hw)
      obtain ⟨⟨aid, account, token, rfl⟩, -, -⟩ := hfoot
      refine .inr ⟨?_, fun h ↦ absurd rfl h⟩
      exact List.mem_singleton.mpr (queued_of_reservedCapacity hreserved)
  | pool w u _ _ => cases hw

/-- A change that is decided on terminal rows too writes a terminal status. -/
theorem terminal_stamp {c : TaskChange} {t : Task} {now : ℕ} (h : t.status ∈ c.expects)
    (hterminal : t.status.terminal = true) : (c.stamp now t).status.terminal = true := by
  have hnot : ∀ statuses ⊆ cancellable, t.status ∉ statuses := fun statuses hsub hmem ↦ by
    have := hsub hmem
    revert this hterminal
    cases t.status <;> simp [cancellable, TaskStatus.terminal]
  cases c with
  | hostFailed message => rfl
  | _ => exact absurd h (hnot _ (by simp [claiming, cancellable]))

theorem terminal_step {site : Site} {held : Lock → Bool} {s : State} {w : Write} {t t' : Task}
    (hfoot : Footprint site held w) (hcurrent : Current s w) (ht : t ∈ s.tasks)
    (hstep : TaskStep s t t' w) (hterminal : t.status.terminal = true) :
    t'.status.terminal = true := by
  have hscoped : ∀ seen c, w.snapshot? = some (seen, c) → t' = c.stamp s.clock t →
      t'.status.terminal = true := by
    intro seen c hw h
    rcases attempt_step hfoot hcurrent ht hstep hw with hsame | hattempt
    · rw [hsame]
      exact hterminal
    · rw [h]
      exact terminal_stamp hattempt.1 hterminal
  cases hstep with
  | same _ h => rw [h]; exact hterminal
  | key seen c _ h => exact hscoped seen c rfl h
  | status seen expected c _ _ h => exact hscoped seen c rfl h
  | attempt seen token b c _ h => exact hscoped seen c rfl h
  | pooled seen claim c _ _ h => exact hscoped seen c rfl h
  | pool w u hkept h =>
      have hnot : t.status ≠ .queued := fun hq ↦ by rw [hq] at hterminal; cases hterminal
      rw [h, hkept.same hnot]
      exact hterminal

theorem shown_row {s : State} {seen t : Task} (h : seen.shown s = true) (ht : t ∈ s.tasks)
    (hid : t.id = seen.id) : t.status = seen.status ∧ t.attachToken = seen.attachToken := by
  simpa [Task.shown, State.attempt?, ← hid, task?_of_mem ht] using h

theorem tokenShown_row {s : State} {seen t : Task} (h : seen.tokenShown s = true)
    (ht : t ∈ s.tasks) (hid : t.id = seen.id) : t.attachToken = seen.attachToken := by
  simpa [Task.tokenShown, State.attachToken?, ← hid, task?_of_mem ht] using h

/-- A thread that has found a timed out attempt in memory has found its row with the token. -/
theorem tokenShown_of_found {found : State → Prop} {seen : Task} (h : seen.AttemptFoundIn found)
    (htracks : ∀ s, found s → TracksAttempts s) : ∃ s, found s ∧ seen.tokenShown s = true := by
  obtain ⟨s, hs, hshown | hmem⟩ := h
  · exact ⟨s, hs, hshown⟩
  · exact ⟨s, hs, htracks s hs seen hmem⟩

/-- A write before which nothing has come since its thread's look meets its attempt. -/
theorem current_of_stands {site : Site} {d : Decision State Write Lock}
    (hlooks : ∀ x ∈ d.looks, x.LeadsTo d.before) (hfoot : Footprint site d.held d.write)
    (hgrounds : Grounds site d.Seen d.write) (htracks : ∀ s, d.Seen s → TracksAttempts s)
    (hunmixed : Unmixed d d.write) : Current d.before d.write := by
  obtain ⟨⟨⟨⟨s, w⟩, held⟩, looks⟩, rfl⟩ : ∃ d', d = d' := ⟨d, rfl⟩
  dsimp only at hlooks hfoot hgrounds hunmixed ⊢
  cases w with
  | updateTask seen c =>
      have hundisturbed : Decision.Undisturbed ⟨⟨⟨s, .updateTask seen c⟩, held⟩, looks⟩
          (fun t : State ↦ t.attempt? seen.id) (·.all (· == (seen.status, seen.attachToken))) :=
        hunmixed
      have hshown : seen.shown s = true := hundisturbed.still hlooks hgrounds
      intro t ht hid
      obtain ⟨hstatus, htoken⟩ := shown_row hshown ht hid
      exact ⟨hstatus ▸ hfoot.1, fun _ ↦ htoken⟩
  | updateTaskIfStatus seen expected c =>
      intro hclaim t ht hid
      have hshown : seen.tokenShown s = true :=
        (hunmixed hclaim).still hlooks (tokenShown_of_found (hgrounds hclaim) htracks)
      exact tokenShown_row hshown ht hid
  | _ => trivial

theorem mem_timedOutTasks {s : State} {w : Write} {t : Task}
    (h : t ∈ (w.exec s).timedOutTasks) : t ∈ s.timedOutTasks ∨ w = .trackTimedOut t := by
  cases w with
  | trackTimedOut task =>
      rw [State.timedOutTasks, List.mem_map] at h
      obtain ⟨e, he, rfl⟩ := h
      rcases List.mem_append.mp he with he | he
      · exact .inl (List.mem_map_of_mem he)
      · exact .inr (by rw [List.mem_singleton.mp he])
  | timedOutReturned task returned =>
      rw [State.timedOutTasks, List.mem_map] at h
      obtain ⟨e, he, rfl⟩ := h
      obtain ⟨e₀, he₀, rfl⟩ := List.mem_map.mp he
      refine .inl (List.mem_map.mpr ⟨e₀, he₀, ?_⟩)
      split <;> rfl
  | forgetTimedOut taskId =>
      rw [State.timedOutTasks, List.mem_map] at h
      obtain ⟨e, he, rfl⟩ := h
      exact .inl (List.mem_map_of_mem (List.mem_of_mem_filter he))
  | _ => exact .inl h

theorem tracksAttempts_exec {site : Site} {d : Decision State Write Lock}
    (hlooks : ∀ x ∈ d.looks, x.LeadsTo d.before) (hgrounds : Grounds site d.Seen d.write)
    (hs : TracksAttempts d.before) (hstands : AttemptStands d) : TracksAttempts (d.write.exec d.before) := by
  obtain ⟨⟨⟨⟨s, w⟩, held⟩, looks⟩, rfl⟩ : ∃ d', d = d' := ⟨d, rfl⟩
  obtain ⟨hunmixed, htracked⟩ := hstands
  dsimp only at hlooks hgrounds hs hunmixed htracked ⊢
  intro t ht
  rcases mem_timedOutTasks ht with hold | rfl
  · have hsame : (w.exec s).attachToken? t.id = s.attachToken? t.id := htracked t hold
    rw [Task.tokenShown, hsame]
    exact hs t hold
  · have hundisturbed : Decision.Undisturbed ⟨⟨⟨s, .trackTimedOut t⟩, held⟩, looks⟩
        (fun u : State ↦ u.attachToken? t.id) (·.all (· == t.attachToken)) := hunmixed
    obtain ⟨u, hu, hshown⟩ := hgrounds
    exact hundisturbed.still hlooks ⟨u, hu, tokenShown_of_shown hshown⟩

/-- In every run in which no write comes between a snapshot of a task and the write that is decided
on it, every write of a task changes the row of its own attempt only, and a task that has ended is
never moved back. -/
theorem outcomes_scoped_to_attempt (site : Site) (s : State) (htracks : TracksAttempts s)
    (ms ms' : List (Move Call Question Question.Answer))
    (hstands : ∀ d ∈ (system site).decisions (.idle s) (ms ++ ms'), AttemptStands d) :
    (∀ d ∈ (system site).decisions (.idle s) (ms ++ ms'), ∀ seen c,
      d.write.snapshot? = some (seen, c) → ∀ t ∈ d.before.tasks,
        ∀ t' ∈ d.after.tasks, t'.id = t.id → t' = t ∨ SameAttempt t seen c) ∧
    (∀ t ∈ ((system site).after { state := s } ms).state.tasks, t.status.terminal = true →
      ∀ t' ∈ ((system site).after { state := s } (ms ++ ms')).state.tasks, t'.id = t.id →
        t'.status.terminal = true) := by
  have hidle : (Watch.idle s : Watch State Write Lock Call Question Question.Answer).Holds
      TracksAttempts := ⟨htracks, fun _ ↦ List.forall_mem_nil _⟩
  have hseen : ∀ d ∈ (system site).decisions (.idle s) (ms ++ ms'), ∀ u, d.Seen u → TracksAttempts u :=
    (hidle.run (S := system site) (fun _ _ ↦ List.forall_mem_nil _) _ fun d hd hseen ↦
      tracksAttempts_exec (decisions_leadTo hd) (decisions_grounds hd) (hseen _ (.inl rfl))
        (hstands d hd)).1
  have hcurrent : ∀ d ∈ (system site).decisions (.idle s) (ms ++ ms'),
      Current d.before d.write := fun d hd ↦
    current_of_stands (decisions_leadTo hd) (decisions_footprint hd) (decisions_grounds hd)
      (hseen d hd) (hstands d hd).unmixed
  constructor
  · intro d hd seen c hw t ht t' ht' hid
    exact attempt_step (decisions_footprint hd) (hcurrent d hd) ht (taskStep_of_mem ht ht' hid) hw
  · intro t ht hterminal t' ht' hid
    have hkept : ∀ d ∈ (system site).decisions (.idle s) (ms ++ ms'),
        (∃ u ∈ d.before.tasks, u.id = t.id ∧ u.status.terminal = true) →
          ∃ u ∈ d.after.tasks, u.id = t.id ∧ u.status.terminal = true := by
      intro d hd hbefore
      obtain ⟨u, hu, huid, huterminal⟩ := hbefore
      obtain ⟨u', hrow, hstep⟩ := exists_taskStep d.write hu
      exact ⟨u', (mem_of_task? hrow).1, hstep.id_eq.trans huid,
        terminal_step (decisions_footprint hd) (hcurrent d hd) hu hstep huterminal⟩
    obtain ⟨u, hu, huid, huterminal⟩ := System.decisions_stay (S := system site)
      (P := fun s : State ↦ ∃ u ∈ s.tasks, u.id = t.id ∧ u.status.terminal = true)
      (fun _ hu ↦ hu) hkept ⟨t, ht, rfl, hterminal⟩
    rwa [Table.eq_of_key_eq ht' hu (hid.trans huid.symm)]

def workerState : State where
  allocations := Table.empty.insert fun id ↦
    { id, accountName := "alpha", slurmJobId := "77", state := .active }
  tasks := Table.empty.insert fun id ↦
    { id, status := .running, allocationId := 1, accountName := some "alpha"
      attachToken := "token", schedulingProfile := .feaBursty, launchStartedAt := some 0 }
  memory := { started := true }

def workerAnswers : (q : Question) → q.Answer :=
  Function.update (Function.update sampleAnswers .rows [1]) .decision false

def reclaimMoves (legs : List (ℕ × ℕ)) : List (Move Call Question Question.Answer) :=
  let calls : List (Move Call Question Question.Answer) :=
    [.call .tick, .call (.requestCancelTask 1 cancellable)]
  calls ++ (system sampleSite).turns workerAnswers legs
    ((system sampleSite).after { state := workerState } calls)

/-- The user is first. -/
theorem outcomes_scoped_to_attempt_cancelled :
    TracksAttempts workerState ∧
    (∀ d ∈ (system sampleSite).decisions (.idle workerState)
      (reclaimMoves [(1, 20)] ++ (system sampleSite).turns workerAnswers [(0, 80)]
        ((system sampleSite).after { state := workerState } (reclaimMoves [(1, 20)]))),
      AttemptStands d) ∧
    ∀ t ∈ ((system sampleSite).after { state := workerState }
      (reclaimMoves [(1, 20)] ++ (system sampleSite).turns workerAnswers [(0, 80)]
        ((system sampleSite).after { state := workerState } (reclaimMoves [(1, 20)])))
      ).state.tasks, t.id = 1 → t.status.terminal = true := by
  have htracks : TracksAttempts workerState := by decide
  have hstands : ∀ d ∈ (system sampleSite).decisions (.idle workerState)
      (reclaimMoves [(1, 20)] ++ (system sampleSite).turns workerAnswers [(0, 80)]
        ((system sampleSite).after { state := workerState } (reclaimMoves [(1, 20)]))),
      AttemptStands d := by
    decide
  refine ⟨htracks, hstands, ?_⟩
  intro t ht hid
  have hstays := (outcomes_scoped_to_attempt sampleSite workerState htracks _ _ hstands).2
  obtain ⟨u, hu, huid, hterminal⟩ : ∃ u ∈ ((system sampleSite).after { state := workerState }
      (reclaimMoves [(1, 20)])).state.tasks, u.id = 1 ∧ u.status.terminal = true := by
    decide
  exact hstays u hu hterminal t ht (hid.trans huid.symm)

/-- The tick has chosen the task and is about to cancel its worker when the user cancels it. -/
theorem cancelled_task_requeued :
    (((system sampleSite).after { state := workerState }
      (reclaimMoves [(0, 42), (1, 20)])).state.task? 1).map (·.status) = some .cancelled ∧
    (((system sampleSite).after { state := workerState }
      (reclaimMoves [(0, 42), (1, 20), (0, 3)])).state.task? 1).map (·.status) =
        some .queued := by
  decide +kernel

end SlurmScheduler.Dispatch
