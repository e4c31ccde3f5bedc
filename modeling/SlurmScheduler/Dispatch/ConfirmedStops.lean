import SlurmScheduler.Dispatch.Attempts

namespace SlurmScheduler.Dispatch

open Relational Concurrent Proc Discipline Statement
open Pool (TaskStatus)

/-- `cancel_task` for the attempt has returned without raising. -/
def Stopped (s : State) (t : Task) : Prop := .cancelledTask t.id t.attachToken ∈ s.remote

/-- `cancel_task` for the attempt has come back, with or without an exception. -/
def Called (s : State) (t : Task) : Prop :=
  Stopped s t ∨ .cancelTaskRaised t.id t.attachToken ∈ s.remote

def Task.launched (t : Task) : Bool := claiming.contains t.status && t.launchStartedAt.isSome

def TaskChange.releases : TaskChange → Bool
  | timedOut .. | strictRejected .. | strictRetryRejected .. => true
  | pressureFailed .. | pressureRequeued .. | rebalanced .. | sameNodeFailed .. => true
  | _ => false

/-- The row is still of the attempt of the snapshot, whose account is configured, and `cancel_task`
has not only raised for it. -/
def Answered (site : Site) (s : State) (t seen : Task) : Prop :=
  t.attachToken = seen.attachToken ∧ site.hasAccount seen.accountName = true ∧
    (.cancelTaskRaised seen.id seen.attachToken ∈ s.remote → Stopped s seen)

def TaskChange.Answered (site : Site) (s : State) (t seen : Task) : TaskChange → Prop
  | timedOut .. | pressureFailed .. | pressureRequeued .. | rebalanced .. =>
      Dispatch.Answered site s t seen
  | sameNodeFailed .. => False
  | _ => True

/-- A decision that does not wait for its cancellation meets no launched row but an answered
one. -/
def Waits (site : Site) (s : State) (w : Write) : Prop :=
  ∀ p ∈ w.snapshot?, ∀ t ∈ s.tasks, t.id = p.1.id → t.launched = true →
    p.2.Answered site s t p.1

instance (s : State) (t : Task) : Decidable (Stopped s t) := inferInstanceAs (Decidable (_ ∈ _))

instance (site : Site) (s : State) (t seen : Task) (c : TaskChange) :
    Decidable (c.Answered site s t seen) := by
  cases c <;> first
    | exact isTrue trivial
    | exact isFalse id
    | exact inferInstanceAs (Decidable (_ ∧ _ ∧ (_ → _)))

instance (site : Site) (s : State) (w : Write) : Decidable (Waits site s w) :=
  inferInstanceAs (Decidable (∀ p ∈ w.snapshot?, ∀ t ∈ s.tasks, _ → _ → _))

def Asked (site : Site) (s : State) : Write → Prop
  | .timedOutReturned task _ => Called s task
  | .updateTaskIfStatus seen _ c =>
      c.kind = .timedOut → site.hasAccount seen.accountName = true → Called s seen
  | .updateTask seen c =>
      c.kind = .reclaim → site.hasAccount seen.accountName = true → Called s seen
  | .updateTaskIfAttachClaim seen token _ c =>
      c.kind = .strictRejected → .cancelledTask seen.id token ∈ s.remote
  | _ => True

def Tracked (s : State) : Prop :=
  ∀ e ∈ s.memory.timedOutTaskCancellations, e.1 = e.2.task.id ∧
    (e.2.returned.isSome = true → Called s e.2.task)

def stopRules (site : Site) : Rules where
  inv := Tracked
  cond := Waits site
  may held s w := Footprint site held w ∧ Asked site s w
  rely _ s s' := s.remote ⊆ s'.remote
  pre _ _ := True

theorem remote_subset (s : State) (w : Write) : s.remote ⊆ (w.exec s).remote := by
  rw [exec_remote]
  exact List.subset_append_left _ _

theorem Stopped.mono {s s' : State} {t : Task} (h : s.remote ⊆ s'.remote) (ht : Stopped s t) :
    Stopped s' t := h ht

theorem Called.mono {s s' : State} {t : Task} (h : s.remote ⊆ s'.remote) (ht : Called s t) :
    Called s' t := ht.imp (fun hs ↦ h hs) fun hr ↦ h hr

theorem tracked_exec {site : Site} {s : State} {w : Write} (hs : Tracked s)
    (hw : Asked site s w) : Tracked (w.exec s) := by
  have hsame : (w.exec s).memory.timedOutTaskCancellations = s.memory.timedOutTaskCancellations →
      Tracked (w.exec s) := by
    intro h e he
    rw [h] at he
    exact ⟨(hs e he).1, fun hr ↦ ((hs e he).2 hr).mono (remote_subset s w)⟩
  cases w with
  | trackTimedOut task =>
      intro e he
      rcases List.mem_append.mp he with he | he
      · exact hs e he
      · rw [List.mem_singleton.mp he]
        exact ⟨rfl, fun h ↦ by cases h⟩
  | timedOutReturned task returned =>
      intro e he
      obtain ⟨e₀, he₀, rfl⟩ := List.mem_map.mp he
      obtain ⟨hid, hcalled⟩ := hs e₀ he₀
      split
      · rename_i hmatch
        rw [Bool.and_eq_true, beq_iff_eq, beq_iff_eq] at hmatch
        refine ⟨hid, fun _ ↦ ?_⟩
        have hcalled : Called s task := hw
        unfold Called Stopped at hcalled ⊢
        rw [← hid, hmatch.1, hmatch.2]
        exact hcalled
      · exact ⟨hid, hcalled⟩
  | forgetTimedOut taskId => exact fun e he ↦ hs e (List.mem_of_mem_filter he)
  | _ => exact hsame rfl

theorem stopRules_coherent (site : Site) : (stopRules site).Coherent where
  refl _ _ := List.Subset.refl _
  trans _ _ _ _ h h' := List.Subset.trans h h'
  anti _ _ _ _ _ h := h
  compatible _ _ s w _ _ _ _ := remote_subset s w
  keep _ _ _ hs hw _ := tracked_exec hs hw.2

variable {site : Site} {held : Lock → Bool} {task : Task}

theorem called_respected (task : Task) : (stopRules site).Respected fun s ↦ Called s task :=
  fun _ _ h hs ↦ hs.mono h

/-- The account is configured only if the cancellation has been called. -/
theorem asked_respected (task : Task) : (stopRules site).Respected fun s ↦
    site.hasAccount task.accountName = true → Called s task :=
  fun _ _ h hs ha ↦ (hs ha).mono h

theorem stopped_respected (task : Task) : (stopRules site).Respected fun s ↦ Stopped s task :=
  fun _ _ h hs ↦ hs.mono h

/-- The kinds of writes of which the discipline asks nothing. -/
theorem asked_of_kind {s : State} {w : Write}
    (h : w.kind ∉ [Kind.timedOut, .tracking, .reclaim, .strictRejected]) : Asked site s w := by
  cases w with
  | updateTask seen c => exact fun hc ↦ absurd (show c.kind ∈ _ by rw [hc]; decide) h
  | updateTaskIfStatus seen expected c =>
      exact fun hc ↦ absurd (show c.kind ∈ _ by rw [hc]; decide) h
  | updateTaskIfAttachClaim seen token b c =>
      exact fun hc ↦ absurd (show c.kind ∈ _ by rw [hc]; decide) h
  | timedOutReturned task returned => exact absurd (by simp) h
  | _ => trivial

theorem stopRules_allows (site : Site) (kinds : List Kind)
    (h : ∀ k ∈ [Kind.timedOut, .tracking, .reclaim, .strictRejected], k ∉ kinds) :
    Allows (stopRules site) site kinds where
  keep _ _ _ hs hw _ := tracked_exec hs hw.2
  may _ _ _ _ hf _ hk := ⟨hf, asked_of_kind fun hmem ↦ h _ hmem hk⟩

theorem cancelTaskRemote_called : (stopRules site).Triple held (fun _ ↦ True)
    (cancelTaskRemote task) fun r s ↦ Called s task ∧ (r = none → Stopped s task) := by
  refine triple_bind triple_query fun answer ↦ ?_
  have hrecord : ∀ r : Remote, Footprint site held (.remote r) →
      (stopRules site).Triple held (fun _ ↦ True) (write (.remote r) : Action Unit)
        fun _ s ↦ r ∈ s.remote := fun r hf ↦ by
    refine triple_write (fun _ _ _ _ ↦ trivial) fun s _ _ ↦ ⟨⟨hf, trivial⟩, fun _ ↦ ?_⟩
    exact List.mem_append_right _ (List.mem_singleton.mpr rfl)
  cases answer with
  | none =>
      exact triple_bind (hrecord _ trivial) fun _ ↦
        triple_pure fun s hs ↦ ⟨.inl hs, fun _ ↦ hs⟩
  | some e =>
      exact triple_bind (hrecord _ trivial) fun _ ↦
        triple_pure fun s hs ↦ ⟨.inr hs, fun h ↦ by cases h⟩

theorem cancelReclaimed_called : (stopRules site).Triple held (fun _ ↦ True)
    (cancelReclaimed site task) fun _ s ↦
      site.hasAccount task.accountName = true → Called s task := by
  refine triple_when (fun _ ↦ ?_) fun hnone s _ h ↦ by simp [hnone] at h
  exact triple_bind cancelTaskRemote_called fun _ ↦ triple_pure fun s hs _ ↦ hs.1

theorem licenseEvent_stops (held : Lock → Bool) (task : Task) (e : LicenseEvent) :
    (stopRules site).Keeps held (licenseEvent site task e) :=
  licenseEvent_keeps (stopRules_allows site _ (by decide))

theorem closeAllocation_stops (held : Lock → Bool) (id : ℕ) (reason : String)
    (force owner : Bool) : (stopRules site).Keeps held (closeAllocation site id reason force owner) :=
  closeAllocation_keeps (stopRules_allows site _ (by decide))

theorem capacity_stops (held : Lock → Bool) (id : Option ℕ) :
    (stopRules site).Keeps held (recalculateAllocationCapacity id) :=
  recalculateAllocationCapacity_keeps (stopRules_allows site _ (by decide))

/-- A reclaim is written after its cancellation has been called. -/
theorem reclaim_stops {c : TaskChange} (htask : task.status ∈ c.expects)
    (hc : c.unguarded = true) : (stopRules site).Triple held
      (fun s ↦ site.hasAccount task.accountName = true → Called s task)
      (write (.updateTask task c) : Action Unit) fun _ _ ↦ True :=
  triple_write ((asked_respected task).steady (stopRules_coherent site)) fun _ _ hcalled ↦
    ⟨⟨⟨htask, hc⟩, fun _ ↦ hcalled⟩, fun _ ↦ trivial⟩

theorem rebalance_stops (htask : task.status = .running) : (stopRules site).Keeps held (do
    cancelReclaimed site task
    requeueTaskForRebalance site task) := by
  refine (triple_bind cancelReclaimed_called fun _ ↦ ?_).ensures
  refine triple_bind ((licenseEvent_stops held task _).frame (stopRules_coherent site)
    (asked_respected task)) fun _ ↦ ?_
  exact reclaim_stops (List.mem_singleton.mpr htask) rfl

theorem relieve_stops (htask : task.status = .running) : (stopRules site).Keeps held (do
    cancelReclaimed site task
    requeuePressureKilledTask site task) := by
  have hexpects := List.mem_singleton.mpr htask
  refine (triple_bind cancelReclaimed_called fun _ ↦ triple_ite (fun _ ↦ ?_) fun _ ↦ ?_).ensures
  · exact triple_bind (reclaim_stops hexpects rfl) fun _ s _ ↦ licenseEvent_stops held task _ s
  · refine triple_bind ((licenseEvent_stops held task _).frame (stopRules_coherent site)
      (asked_respected task)) fun _ ↦ ?_
    exact reclaim_stops hexpects rfl

/-- A timeout is written after its cancellation has been called, unless nobody can call it. -/
theorem finalizeTimedOutTask_stops : (stopRules site).Triple held
    (fun s ↦ site.hasAccount task.accountName = true → Called s task)
    (finalizeTimedOutTask site task) fun _ _ ↦ True :=
  finalizeTimedOutTask_triple ((asked_respected task).steady (stopRules_coherent site))
    (fun _ _ hcalled _ ↦ ⟨.inr (.inl ⟨_, rfl, rfl⟩), fun _ ↦ hcalled⟩)
    licenseEvent_stops closeAllocation_stops

theorem schedule_stops : (stopRules site).Keeps held (scheduleTimedOutTaskCancellation site task) := by
  refine ensures_read fun s _ ↦ ensures_ite (fun _ ↦ ensures_pure trivial) fun _ ↦
    ensures_ite (fun hnone ↦ ?_) fun _ ↦ ?_
  · have hcalled : ∀ s, True → site.hasAccount task.accountName = true → Called s task :=
      fun _ _ haccount ↦ by simp [haccount] at hnone
    exact (triple_bind (finalizeTimedOutTask_stops.mono hcalled fun _ _ h ↦ h)
      fun _ ↦ triple_pure fun _ _ ↦ trivial).ensures
  · refine ensures_bind (keeps_write fun s _ ↦ ⟨trivial, trivial⟩) fun _ _ ↦
      keeps_spawn fun _ _ ↦ trivial

theorem drain_stops : (stopRules site).Keeps held (drainTimedOutTaskCancellations site) := by
  refine ensures_read fun s _ ↦ keeps_forEach fun taskId _ ↦ ?_
  refine (triple_bind (triple_read (P := fun _ ↦ True) fun _ _ _ _ ↦ trivial) fun found ↦ ?_).ensures
  split
  · rename_i key task returned
    have hsteady : (stopRules site).Steady held fun s ↦ Called s task :=
      (called_respected task).steady (stopRules_coherent site)
    have hforget : (stopRules site).Triple held (fun s ↦ Called s task)
        (write (.forgetTimedOut taskId) : Action Unit) fun _ s ↦ Called s task :=
      triple_write hsteady fun s _ hcalled ↦ ⟨⟨trivial, trivial⟩, fun _ ↦ hcalled⟩
    refine (triple_bind hforget fun _ ↦ triple_bind (finalizeTimedOutTask_stops.mono
      (fun _ hcalled _ ↦ hcalled) fun _ _ h ↦ h) fun _ ↦ triple_pure fun _ _ ↦ trivial).mono
      (fun s hs ↦ ?_) fun _ _ h ↦ h
    exact (hs.2.2 _ (List.mem_of_find?_eq_some hs.1.symm)).2 rfl
  · exact triple_pure fun _ _ ↦ trivial

theorem rejected_stops {c : TaskChange} (hc : c.ofAttempt = true) :
    (stopRules site).Triple held (fun s ↦ Stopped s task)
      (updateTaskIfAttachClaim task task.attachToken false c) fun _ _ ↦ True :=
  triple_transact_single ((stopped_respected task).steady (stopRules_coherent site))
    fun _ _ hstopped ↦ ⟨⟨⟨rfl, hc⟩, fun _ ↦ hstopped⟩, fun _ ↦ trivial⟩

theorem held_stops {c : TaskChange} (hc : c.ofAttempt = true) (hk : c.kind = .attach) :
    (stopRules site).Keeps held (updateTaskIfAttachClaim task task.attachToken false c) :=
  updateTaskIfAttachClaim_keeps (stopRules_allows site [.attach] (by decide)) hc
    (List.mem_singleton.mpr hk)

theorem strict_stops : (stopRules site).Keeps held (retryStrictNodeCancellation site task) := by
  refine (triple_bind cancelTaskRemote_called fun answer ↦ ?_).ensures
  cases answer with
  | some e => exact fun s _ ↦ ensures_bind (held_stops rfl rfl) (fun _ _ ↦ ensures_pure trivial) s
  | none =>
      refine (triple_bind (rejected_stops rfl) fun updated s _ ↦ ?_).mono (fun _ hs ↦ hs.2 rfl)
        fun _ _ h ↦ h
      exact ensures_ite (R := fun _ ↦ True)
        (fun _ ↦ ensures_bind (licenseEvent_stops held task _) fun _ _ ↦ capacity_stops held _)
        (fun _ ↦ capacity_stops held _) s

theorem rejectLaunched_stops {current : Task} {launch : Launch} {e : String} :
    (stopRules site).Keeps held (rejectLaunched site task current launch e) := by
  refine (triple_bind cancelTaskRemote_called fun answer ↦ ?_).ensures
  cases answer with
  | some e => exact fun s _ ↦ ensures_bind (held_stops rfl rfl) (fun _ _ ↦ ensures_pure trivial) s
  | none =>
      refine (triple_bind (rejected_stops rfl) fun updated s _ ↦ ?_).mono (fun _ hs ↦ hs.2 rfl)
        fun _ _ h ↦ h
      exact ensures_ite (R := fun _ ↦ True) (fun _ ↦ licenseEvent_stops held current _)
        (fun _ ↦ ensures_pure trivial) s

theorem cancelTimedOut_stops :
    (stopRules site).Keeps noLocks (cancelTimedOutTaskRemote task) := by
  refine (triple_bind (cancelTaskRemote_called.mono (fun _ h ↦ h) fun _ _ h ↦ h.1) fun answer ↦
    triple_write ((called_respected task).steady (stopRules_coherent site)) ?_).ensures
  exact fun _ _ hcalled ↦ ⟨⟨trivial, hcalled⟩, fun _ ↦ trivial⟩

theorem stopRules_pieces (site : Site) : Pieces (stopRules site) site := by
  have hallows : ∀ kinds : List Kind, (∀ k ∈ [Kind.timedOut, .tracking, .reclaim, .strictRejected],
      k ∉ kinds) → Allows (stopRules site) site kinds := stopRules_allows site
  exact
    { coherent := stopRules_coherent site
      respected := fun _ _ _ _ _ ↦ trivial
      allows := hallows _ (by decide)
      cancelBestEffort := fun _ _ ↦ trivial
      monitor := fun _ ↦ trivial
      capacity := capacity_stops
      license := licenseEvent_stops
      close := closeAllocation_stops
      rebalance := fun _ _ htask _ ↦ rebalance_stops htask
      relieve := fun _ _ htask _ ↦ relieve_stops htask
      schedule := fun _ _ _ _ ↦ schedule_stops
      drain := fun _ ↦ drain_stops
      strict := fun _ _ ↦ strict_stops
      reserve := fun _ _ _ s ↦ wp_mono (reserveTaskOnAllocation_keeps (hallows _ (by decide))
        capacity_stops s) fun _ _ _ hp ↦ ⟨hp.1, fun _ _ _ ↦ trivial⟩
      finish := fun _ _ _ s _ ↦ wp_mono (finishReservedTaskAttach_keeps (hallows _ (by decide))
        licenseEvent_stops capacity_stops (fun _ _ _ ↦ rejectLaunched_stops) s) fun _ _ _ hp ↦ hp.1
      submit := fun _ _ ↦ submitReservedAllocationRecords_keeps (hallows _ (by decide))
        fun _ _ ↦ trivial
      recover := fun _ ↦ recoverAllocationSubmissionClaims_keeps (hallows _ (by decide))
      reconcile := fun _ ↦ reconcileSlurmState_keeps (hallows _ (by decide))
      jobs := fun _ ↦ refreshSubmittedJobs_keeps (hallows _ (by decide))
      submitJob := fun _ ↦ submitNextQueuedJob_keeps (hallows _ (by decide))
      pool := fun _ _ _ ↦ poolCall_keeps (hallows _ (by decide))
      start := start_keeps (hallows _ (by decide)) licenseEvent_stops closeAllocation_stops
      cancelTimedOut := fun _ s _ ↦ wp_mono (cancelTimedOut_stops s) fun _ _ _ _ ↦ trivial
      submitAccount := fun _ s _ ↦ wp_mono (submitAccountWorker_keeps (hallows _ (by decide)) s)
        fun _ _ _ _ ↦ trivial
      refreshLicense := refreshLicenseUsage_keeps (hallows _ (by decide))
      cancelJob := fun _ ↦ cancelJob_keeps (hallows _ (by decide)) }

theorem stopRules_governs (site : Site) : (stopRules site).Governs (system site) :=
  (stopRules_pieces site).governs (fun _ _ _ he ↦ nomatch he) fun _ _ _ ↦ trivial

/-- A decision of the scheduler releases a launched row after its worker has been stopped. -/
theorem stopped_step {s : State} {w : Write} {t t' : Task} (hfoot : Footprint site held w)
    (hasked : Asked site s w) (hwaits : Waits site s w) (ht : t ∈ s.tasks)
    (hstep : TaskStep s t t' w) {seen : Task} {c : TaskChange}
    (hw : w.snapshot? = some (seen, c)) (hc : c.releases = true) (hlaunched : t.launched = true)
    (hmoved : t' ≠ t) : Stopped s t := by
  have hanswered : t.id = seen.id → c.Answered site s t seen :=
    fun hid ↦ hwaits (seen, c) hw t ht hid hlaunched
  have hstopped : t.id = seen.id → Dispatch.Answered site s t seen →
      (site.hasAccount seen.accountName = true → Called s seen) → Stopped s t := by
    intro hid ⟨htoken, haccount, hraised⟩ hcalled
    unfold Stopped
    rw [hid, htoken]
    exact (hcalled haccount).elim id hraised
  cases hstep with
  | same _ h => exact absurd h hmoved
  | key seen' c' hid _ =>
      obtain ⟨rfl, rfl⟩ := Prod.mk.inj (Option.some.inj hw)
      have hanswered := hanswered hid
      obtain ⟨-, hunguarded⟩ := hfoot
      cases c' with
      | pressureFailed attempts message => exact hstopped hid hanswered (hasked rfl)
      | pressureRequeued attempts name => exact hstopped hid hanswered (hasked rfl)
      | rebalanced name => exact hstopped hid hanswered (hasked rfl)
      | sameNodeFailed message => exact hanswered.elim
      | _ => first | (cases hc; done) | cases hunguarded
  | status seen' expected c' hid _ _ =>
      obtain ⟨rfl, rfl⟩ := Prod.mk.inj (Option.some.inj hw)
      have hanswered := hanswered hid
      rcases hfoot with ⟨aid, account, token, rfl, -, -, -⟩ | ⟨message, rfl, -⟩ | ⟨rfl, -, -⟩
      · cases hc
      · exact hstopped hid hanswered (hasked rfl)
      · cases hc
  | attempt seen' token b c' hclaim _ =>
      obtain ⟨rfl, rfl⟩ := Prod.mk.inj (Option.some.inj hw)
      obtain ⟨-, hattempt⟩ := hfoot
      simp only [Task.attachClaim, Bool.and_eq_true, beq_iff_eq] at hclaim
      have hstopped : c'.kind = .strictRejected → Stopped s t := fun hk ↦ by
        unfold Stopped
        rw [hclaim.1.1.1.2, hclaim.1.2]
        exact hasked hk
      cases c' with
      | strictRejected message launch => exact hstopped rfl
      | strictRetryRejected message => exact hstopped rfl
      | _ => first | (cases hc; done) | cases hattempt
  | pooled seen' claim c' _ _ _ =>
      obtain ⟨rfl, rfl⟩ := Prod.mk.inj (Option.some.inj hw)
      obtain ⟨⟨aid, account, token, rfl⟩, -, -⟩ := hfoot
      cases hc
  | pool w u _ _ => cases hw

/-- The write takes the launched row out of its place by a decision of the scheduler. -/
def Releases (e : Event State Write Lock) (t : Task) : Prop :=
  e.write.snapshot?.any (·.2.releases) = true ∧ t.launched = true ∧
    ∃ t' ∈ (e.write.exec e.before).tasks, t'.id = t.id ∧ t'.status ∈ [TaskStatus.queued, .failed]

instance (e : Event State Write Lock) (t : Task) : Decidable (Releases e t) :=
  inferInstanceAs (Decidable (_ ∧ _ ∧ ∃ t' ∈ Table.rows _, _ ∧ _))

/-- In every run in which the decisions that do not wait for their cancellation meet no launched
row but an answered one, a launched row leaves its place by a decision of the scheduler only after
`cancel_task` for exactly its attempt has returned without raising. -/
theorem launched_released_when_stopped (site : Site) (s : State)
    (ms : List (Move Call Question Question.Answer))
    (hmeets : (system site).Meets (Waits site) { state := s.reboot } ms) :
    ∀ e ∈ (system site).trace { state := s.reboot } ms, ∀ t ∈ e.before.tasks,
      Releases e t → Stopped e.before t := by
  rintro e he t ht ⟨hdecision, hlaunched, t', ht', hid, hleft⟩
  have hidle : Discipline.Safe (stopRules site)
      ({ state := s.reboot } : Config State Write Lock Call Question Question.Answer) :=
    .idle fun _ he ↦ nomatch he
  obtain ⟨hfoot, hasked⟩ := (((stopRules_governs site).run hidle ms hmeets).1 e he).2
  obtain ⟨⟨seen, c⟩, hw, hc⟩ := (Option.any_eq_true _ _).mp hdecision
  refine stopped_step hfoot hasked (hmeets e he) ht (taskStep_of_mem ht ht' hid) hw hc hlaunched ?_
  intro hsame
  rw [hsame] at hleft
  simp only [Task.launched, Bool.and_eq_true, List.contains_iff_mem] at hlaunched
  have hactive := hlaunched.1
  revert hactive hleft
  cases t.status <;> simp [claiming]

/-- A start and a tick, with this answer of `cancel_task`. -/
def restartMoves (answer : Option String) : List (Move Call Question Question.Answer) :=
  let calls : List (Move Call Question Question.Answer) := [.call .start, .call .tick]
  calls ++ (system sampleSite).turns (Function.update workerAnswers (.cancelTask 1) answer)
    [(0, 40), (1, 60)] ((system sampleSite).after { state := workerState.reboot } calls)

theorem unconfirmed_release :
    ∃ e ∈ (system sampleSite).trace { state := workerState.reboot }
      (restartMoves (some "ssh failed")), ∃ t ∈ e.before.tasks,
        Releases e t ∧ ¬ Stopped e.before t := by
  decide +kernel

/-- The tick requeues the worker when its cancellation has returned. -/
theorem launched_released_when_stopped_reclaim :
    ∃ e ∈ (system sampleSite).trace { state := workerState.reboot } (restartMoves none),
      ∃ t ∈ e.before.tasks, Releases e t ∧ Stopped e.before t := by
  have hmeets : (system sampleSite).Meets (Waits sampleSite) { state := workerState.reboot }
      (restartMoves none) := by
    unfold System.Meets
    decide +kernel
  obtain ⟨e, he, t, ht, hreleases⟩ : ∃ e ∈ (system sampleSite).trace
      { state := workerState.reboot } (restartMoves none), ∃ t ∈ e.before.tasks, Releases e t := by
    decide +kernel
  exact ⟨e, he, t, ht, hreleases,
    launched_released_when_stopped sampleSite workerState _ hmeets e he t ht hreleases⟩

end SlurmScheduler.Dispatch
