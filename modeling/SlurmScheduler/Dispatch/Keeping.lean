import SlurmScheduler.Dispatch.Footprint

namespace SlurmScheduler.Dispatch

open Relational Concurrent Proc Discipline
open Pool (Time TaskStatus AllocationStatus)

variable {D : Rules} {site : Site} {held : Lock → Bool}

theorem recalculateAllocationCapacity_keeps (h : Allows D site [.capacity]) {id : Option ℕ} :
    D.Keeps held (recalculateAllocationCapacity id) := by
  have hrows : ∀ (tasks : List Task) (allocations : List Allocation),
      (∃ s, D.inv s ∧ ∀ a ∈ allocations, a ∈ s.allocations) →
      D.Keeps held (writeAll (capacityWrites tasks allocations) : Action Unit) := by
    intro tasks allocations hfound
    refine keeps_writeAll (h.keep held) fun w hw s hs ↦ ?_
    obtain ⟨s₀, hs₀, hrows⟩ := hfound
    obtain ⟨a, ha, rfl⟩ := List.mem_map.mp hw
    obtain ⟨hmem, hserving⟩ := List.mem_filter.mp ha
    exact h.may held s _ hs (List.contains_iff_mem.mp hserving)
      (.of_mem hs₀ (hrows a hmem)) (by simp)
  cases id with
  | none =>
      exact ensures_read fun s _ ↦ ensures_read fun s' hs' ↦
        hrows _ _ ⟨s', hs', fun a ha ↦ mem_listAllocationsWithLive ha⟩
  | some id =>
      refine ensures_read fun s _ ↦ ensures_read fun s' hs' ↦ hrows _ _ ⟨s', hs', fun a ha ↦ ?_⟩
      exact (mem_of_allocation? (Option.mem_toList.mp ha)).1

theorem licenseEvent_keeps (h : Allows D site [.license]) {task : Task} {e : LicenseEvent} :
    D.Keeps held (licenseEvent site task e) := by
  refine keeps_when fun henabled ↦ ensures_locked fun _ ↦ keeps_transact_single fun s hs ↦ ?_
  exact h.may _ s _ hs ⟨Function.update_self .., henabled⟩ trivial (by simp)

theorem closeAllocation_keeps (h : Allows D site [.close]) {id : ℕ} {reason : String}
    {force allowOwner : Bool} :
    D.Keeps held (closeAllocation site id reason force allowOwner) := by
  refine ensures_locked fun _ ↦ ensures_read fun s₀ hs₀ ↦ ?_
  have hlock : Function.update held Lock.assignment true .assignment = true :=
    Function.update_self ..
  cases hrow : s₀.allocation? id with
  | none => exact ensures_pure trivial
  | some current =>
      have hfound : current.FoundIn D.inv (phaseOf current.state) :=
        .of_mem hs₀ (mem_of_allocation? hrow).1
      refine ensures_ite (fun _ ↦ ensures_pure trivial) fun hopen ↦ ?_
      have hexpects : current.state ∈ openStates := by
        revert hopen
        cases current.state <;> simp [closedStates, openStates]
      have hwrite : ∀ c : AllocationChange, c.ofClose = true → current.state ∈ c.expects →
          c.restores current → current.FoundIn D.inv (c.basis current) →
          D.Keeps (Function.update held Lock.assignment true)
            (write (.updateAllocation current c) : Action Unit) := by
        intro c hc hexpects hrestores hfound
        refine h.write ⟨hexpects, hrestores, ?_, fun _ ↦ hlock⟩ hfound (by simp [hc])
        cases c <;> first | rfl | cases hc
      have hkeep : D.Keeps (Function.update held Lock.assignment true) (keepClaimed current) := by
        refine ensures_bind (keeps_when fun hwarm ↦ ?_) fun _ _ ↦ ensures_pure trivial
        exact hwrite .claimed rfl (List.mem_singleton.mpr (eq_of_beq hwarm)) trivial hfound
      refine ensures_bind (S := fun _ ↦ True) ?_ fun refused _ ↦
        ensures_ite (fun _ ↦ ensures_pure trivial) fun _ ↦ ?_
      · refine ensures_ite (fun _ ↦ ensures_pure trivial) fun _ ↦ ensures_read fun s _ ↦ ?_
        refine ensures_ite (fun _ ↦ ensures_pure trivial) fun _ ↦ ensures_read fun s _ ↦ ?_
        refine ensures_ite (fun _ ↦ hkeep) fun _ ↦
          ensures_ite (fun _ ↦ ensures_pure trivial) fun _ ↦ ?_
        refine ensures_bind keeps_query fun steps _ ↦ ?_
        match steps with
        | .error e =>
            exact ensures_bind (hwrite (.probeFailed _) rfl hexpects trivial hfound) fun _ _ ↦
              ensures_pure trivial
        | .ok [] => exact ensures_pure trivial
        | .ok (_ :: _) => exact hkeep
      · have hclosing : D.Ensures (Function.update held Lock.assignment true)
            (write (.updateAllocation current (.closing reason)) : Action Unit)
            fun _ ↦ current.FoundIn D.inv .closing := by
          refine ensures_write fun s hs ↦ ?_
          have hmay : D.may (Function.update held Lock.assignment true) s
              (.updateAllocation current (.closing reason)) :=
            h.may _ s _ hs ⟨hexpects, trivial, rfl, fun _ ↦ hlock⟩ hfound
              (List.mem_singleton.mpr rfl)
          exact ⟨hmay, fun hc ↦ ⟨_, h.keep _ s _ hs hmay hc, inPhase_closing s current reason⟩⟩
        refine ensures_bind hclosing fun _ hclosed ↦ ?_
        refine ensures_bind (S := fun _ ↦ True) ?_ fun answer _ ↦ ?_
        · refine ensures_ite (fun _ ↦ ?_) fun _ ↦ ensures_pure trivial
          exact ensures_bind (h.write hlock trivial (by simp)) fun _ _ ↦ keeps_query
        · cases answer with
          | none =>
              exact ensures_bind (hwrite .closed rfl hexpects trivial hfound) fun _ _ ↦
                ensures_pure trivial
          | some e =>
              refine ensures_bind (h.write hlock trivial (by simp)) fun _ _ ↦ ?_
              exact ensures_bind (hwrite (.cancelFailed current.state e) rfl hexpects rfl hclosed)
                fun _ _ ↦ ensures_pure trivial

theorem cancelTaskRemote_keeps (h : Allows D site [.cancelRecord]) {task : Task} :
    D.Keeps held (cancelTaskRemote task) := by
  refine ensures_bind keeps_query fun answer _ ↦ ?_
  cases answer with
  | none => exact ensures_bind (h.write trivial trivial (by simp)) fun _ _ ↦ ensures_pure trivial
  | some e => exact ensures_bind (h.write trivial trivial (by simp)) fun _ _ ↦ ensures_pure trivial

theorem cancelReclaimed_keeps (h : Allows D site [.cancelRecord]) {task : Task} :
    D.Keeps held (cancelReclaimed site task) :=
  keeps_when fun _ ↦ ensures_bind (cancelTaskRemote_keeps h) fun _ _ ↦ ensures_pure trivial

theorem requeueTaskForRebalance_keeps (h : Allows D site [.reclaim])
    (hlicense : ∀ held task e, D.Keeps held (licenseEvent site task e)) {task : Task}
    (htask : task.status = .running) (hfound : task.FoundIn D.inv) :
    D.Keeps held (requeueTaskForRebalance site task) :=
  ensures_bind (hlicense held task _) fun _ _ ↦
    h.updateTask (List.mem_singleton.mpr htask) rfl hfound (by simp)

theorem requeuePressureKilledTask_keeps (h : Allows D site [.reclaim])
    (hlicense : ∀ held task e, D.Keeps held (licenseEvent site task e)) {task : Task}
    (htask : task.status = .running) (hfound : task.FoundIn D.inv) :
    D.Keeps held (requeuePressureKilledTask site task) := by
  refine ensures_ite (fun _ ↦ ?_) fun _ ↦ ?_
  · exact ensures_bind (h.updateTask (List.mem_singleton.mpr htask) rfl hfound (by simp)) fun _ _ ↦
      hlicense held task _
  · exact ensures_bind (hlicense held task _) fun _ _ ↦
      h.updateTask (List.mem_singleton.mpr htask) rfl hfound (by simp)

theorem closeAllocationAfterExclusiveTask_keeps
    (hclose : ∀ held id reason force owner,
      D.Keeps held (closeAllocation site id reason force owner)) {task : Task} :
    D.Keeps held (closeAllocationAfterExclusiveTask site task) := by
  refine keeps_when fun _ ↦ ensures_read fun s _ ↦ ?_
  cases s.allocation? task.allocationId with
  | none => exact ensures_pure trivial
  | some a => exact ensures_bind (hclose held _ _ _ _) fun _ _ ↦ ensures_pure trivial

theorem finalizeTimedOutTask_triple {P : State → Prop} {task : Task} (hP : D.Steady held P)
    (hmay : ∀ s, D.inv s → P s → ∀ message,
      D.may held s (.updateTaskIfStatus task claiming (.timedOut message)))
    (hlicense : ∀ held task e, D.Keeps held (licenseEvent site task e))
    (hclose : ∀ held id reason force owner,
      D.Keeps held (closeAllocation site id reason force owner)) :
    D.Triple held P (finalizeTimedOutTask site task) fun _ _ ↦ True := by
  refine triple_bind (T := fun _ _ ↦ True)
    (triple_transact_single hP fun s hs hp ↦ ⟨hmay s hs hp _, fun _ ↦ trivial⟩) fun updated ↦ ?_
  have hrest : D.Keeps held (if !updated then pure false else do
      onTaskTerminal site task
      closeAllocationAfterExclusiveTask site task
      pure true : Action Bool) := by
    refine ensures_ite (fun _ ↦ ensures_pure trivial) fun _ ↦
      ensures_bind (hlicense held task _) fun _ _ ↦ ?_
    exact ensures_bind (closeAllocationAfterExclusiveTask_keeps hclose) fun _ _ ↦
      ensures_pure trivial
  exact fun s _ ↦ hrest s

theorem finalizeTimedOutTask_keeps (h : Allows D site [.timedOut])
    (hlicense : ∀ held task e, D.Keeps held (licenseEvent site task e))
    (hclose : ∀ held id reason force owner,
      D.Keeps held (closeAllocation site id reason force owner)) {task : Task}
    (hfound : task.AttemptFoundIn D.inv) : D.Keeps held (finalizeTimedOutTask site task) :=
  (finalizeTimedOutTask_triple (P := fun _ ↦ True) (fun _ _ _ _ ↦ trivial)
    (fun s hs _ _ ↦ h.may held s _ hs (.inr (.inl ⟨_, rfl, rfl⟩)) (fun _ ↦ hfound) (by simp))
    hlicense hclose).ensures

theorem scheduleTimedOutTaskCancellation_keeps (h : Allows D site [.tracking])
    (hpre : ∀ task s, D.pre (.cancelTimedOutTaskRemote task) s) {task : Task}
    (hfinalize : D.Keeps held (finalizeTimedOutTask site task)) (hfound : task.FoundIn D.inv) :
    D.Keeps held (scheduleTimedOutTaskCancellation site task) := by
  refine ensures_read fun s _ ↦ ensures_ite (fun _ ↦ ensures_pure trivial) fun _ ↦ ?_
  refine ensures_ite (fun _ ↦ ensures_bind hfinalize fun _ _ ↦ ensures_pure trivial) fun _ ↦ ?_
  exact ensures_bind (h.write trivial hfound (by simp)) fun _ _ ↦ keeps_spawn fun s _ ↦ hpre task s

theorem drainTimedOutTaskCancellations_keeps (h : Allows D site [.tracking])
    (hfinalize : ∀ held (task : Task), task.AttemptFoundIn D.inv →
      D.Keeps held (finalizeTimedOutTask site task)) :
    D.Keeps held (drainTimedOutTaskCancellations site) := by
  refine ensures_read fun s _ ↦ keeps_forEach fun taskId _ ↦ ensures_read fun s' hs' ↦ ?_
  split
  · rename_i hentry
    have htracked := List.mem_map_of_mem (List.mem_of_find?_eq_some hentry)
      (f := fun e : ℕ × TimedOutCancellation ↦ e.2.task)
    refine ensures_bind (h.write trivial trivial (by simp)) fun _ _ ↦ ?_
    exact ensures_bind (hfinalize held _ ⟨s', hs', .inr htracked⟩) fun _ _ ↦ ensures_pure trivial
  · exact ensures_pure trivial

theorem cancelTimedOutTaskRemote_keeps (h : Allows D site [.tracking, .cancelRecord])
    {task : Task} : D.Keeps held (cancelTimedOutTaskRemote task) :=
  ensures_bind (cancelTaskRemote_keeps (h.mono (by simp))) fun _ _ ↦
    h.write trivial trivial (by simp)

theorem updateTaskIfAttachClaim_keeps {kinds : List Kind} (h : Allows D site kinds)
    {seen : Task} {launchNotStarted : Bool} {c : TaskChange} (hc : c.ofAttempt = true)
    (hk : c.kind ∈ kinds) :
    D.Keeps held (updateTaskIfAttachClaim seen seen.attachToken launchNotStarted c) :=
  keeps_transact_single fun s hs ↦ h.may held s _ hs ⟨rfl, hc⟩ trivial hk

theorem retryStrictNodeCancellation_keeps
    (h : Allows D site [.attach, .strictRejected, .cancelRecord])
    (hlicense : ∀ held task e, D.Keeps held (licenseEvent site task e))
    (hcapacity : ∀ held id, D.Keeps held (recalculateAllocationCapacity id)) {task : Task} :
    D.Keeps held (retryStrictNodeCancellation site task) := by
  refine ensures_bind (cancelTaskRemote_keeps (h.mono (by simp))) fun answer _ ↦ ?_
  cases answer with
  | some e =>
      exact ensures_bind (updateTaskIfAttachClaim_keeps h rfl (by simp)) fun _ _ ↦
        ensures_pure trivial
  | none =>
      refine ensures_bind (updateTaskIfAttachClaim_keeps h rfl (by simp)) fun updated _ ↦ ?_
      exact ensures_ite (fun _ ↦ ensures_bind (hlicense held task _) fun _ _ ↦ hcapacity held _)
        fun _ ↦ hcapacity held _

theorem reservationAdmitted_keeps {task : Task} {allocation : Allocation} :
    D.Keeps held (reservationAdmitted site task allocation) := by
  have hdone : ∀ b : Bool, D.Keeps held (pure b : Action Bool) := fun b ↦ ensures_pure trivial
  have hconflicts : D.Keeps held (allocationProfileConflicts allocation task) :=
    ensures_read fun s _ ↦ hdone _
  have htarget : D.Keeps held (sameNodeTargetForTask task) := by
    refine ensures_read fun s _ ↦ ?_
    cases s.task? task.sameNodeAsTaskId with
    | none => exact ensures_pure trivial
    | some reference =>
        refine ensures_ite (fun _ ↦ ensures_pure trivial) fun _ ↦ ensures_read fun s _ ↦ ?_
        cases s.allocation? reference.allocationId with
        | none => exact ensures_pure trivial
        | some a =>
            exact ensures_ite (fun _ ↦ ensures_pure trivial) fun _ ↦ ensures_pure trivial
  have hgpu : D.Keeps held (allocationGpuMatchesTask allocation task) :=
    ensures_ite (fun _ ↦ hdone _) fun _ ↦ ensures_ite (fun _ ↦ hdone _) fun _ ↦ keeps_query
  have hmatches : ∀ active, D.Keeps held
      (allocationMatchesTaskConstraints site allocation task active) := by
    intro active
    unfold allocationMatchesTaskConstraints
    extract_lets compareTarget rest
    have hcompare : ∀ target, D.Keeps held (compareTarget target) := fun target ↦
      ensures_ite (fun _ ↦ hdone _) fun _ ↦ ensures_ite (fun _ ↦ hdone _) fun _ ↦
        ensures_ite (fun _ ↦ hdone _) fun _ ↦ keeps_query
    have hrest : ∀ fits, D.Keeps held (rest fits) := fun fits ↦
      ensures_ite (fun _ ↦ hdone _) fun _ ↦ ensures_ite (fun _ ↦ hdone _) fun _ ↦
        ensures_ite (fun _ ↦ ensures_bind htarget fun target _ ↦ hcompare target)
          fun _ ↦ hcompare _
    refine ensures_ite (fun _ ↦ ensures_bind (S := fun _ ↦ True) ?_ fun fits _ ↦ hrest fits)
      fun _ ↦ hrest _
    refine ensures_ite (fun _ ↦ hdone _) fun _ ↦ ensures_ite (fun _ ↦ hdone _) fun _ ↦ ?_
    exact ensures_read fun s _ ↦ hdone _
  have hruns : ∀ active, D.Keeps held (allocationCanRunTask site allocation task active) := by
    intro active
    refine ensures_bind (hmatches active) fun b _ ↦ ensures_ite (fun _ ↦ hdone _) fun _ ↦ ?_
    refine ensures_ite (fun _ ↦ ensures_bind hgpu fun b _ ↦ ensures_ite (fun _ ↦ hdone _)
      fun _ ↦ ensures_ite (fun _ ↦ hdone _) fun _ ↦ keeps_query) fun _ ↦ ?_
    refine ensures_bind (S := fun _ ↦ True) (ensures_ite (fun _ ↦ hdone _) fun _ ↦
      ensures_bind htarget fun target _ ↦ hdone _) fun overlaps _ ↦ ?_
    exact ensures_ite (fun _ ↦ hdone _) fun _ ↦ ensures_ite (fun _ ↦ hdone _) fun _ ↦ hgpu
  refine ensures_ite (fun _ ↦ hdone _) fun _ ↦ ensures_bind keeps_query fun blocked _ ↦
    ensures_ite (fun _ ↦ hdone _) fun _ ↦ ensures_bind hconflicts fun conflicts _ ↦ ?_
  refine ensures_ite (fun _ ↦ hdone _) fun _ ↦ ensures_ite (fun _ ↦ hdone _) fun _ ↦
    ensures_ite (fun _ ↦ hdone _) fun _ ↦ ?_
  refine ensures_bind (S := fun _ ↦ True) (ensures_bind keeps_query fun stopBefore _ ↦
    ensures_read fun s _ ↦ hdone _) fun accepts _ ↦ ensures_ite (fun _ ↦ hdone _) fun _ ↦ ?_
  refine ensures_bind (S := fun _ ↦ True) (ensures_read fun s _ ↦ ensures_pure trivial)
    fun active _ ↦ ensures_bind (hruns active) fun runs _ ↦ ensures_ite (fun _ ↦ hdone _)
    fun _ ↦ ensures_bind keeps_query fun fits _ ↦ ensures_ite (fun _ ↦ hdone _) fun _ ↦ ?_
  exact ensures_bind keeps_query fun maxAge _ ↦ keeps_read

theorem claimTask_keeps (h : Allows D site [.claim]) (hheld : held .assignment = true)
    {task : Task} {allocation : Allocation} {attachToken : String}
    (htask : task.status = .queued) : D.Keeps held (claimTask site task allocation attachToken) := by
  refine ensures_ite (fun _ ↦ ?_) fun _ ↦ ?_
  · refine ensures_read fun s₁ hs₁ ↦ ensures_read fun s₂ hs₂ ↦ ensures_read fun s₃ hs₃ ↦
      keeps_transact_single fun s hs ↦ ?_
    exact h.may held s _ hs ⟨⟨_, _, _, rfl⟩, htask, hheld⟩
      ⟨s₁, s₂, s₃, hs₁, hs₂, hs₃, rfl, rfl, rfl⟩ (by simp)
  · refine keeps_transact_single fun s hs ↦ ?_
    exact h.may held s _ hs (.inl ⟨_, _, _, rfl, rfl, htask, hheld⟩) (fun hc ↦ absurd rfl hc)
      (by simp)

theorem recordLicenseClaim_keeps (h : Allows D site [.license]) (hheld : held .assignment = true)
    {task : Task} {attachToken : String} :
    D.Keeps held (recordLicenseClaim site task attachToken) := by
  unfold recordLicenseClaim
  split
  · exact fun _ s _ hs ↦ ⟨h.may held s _ hs hheld trivial (by simp), fun _ ↦ ⟨rfl, trivial⟩⟩
  · exact ensures_pure trivial

theorem reserveTaskOnAllocation_keeps (h : Allows D site [.claim, .license])
    (hcapacity : ∀ held id, D.Keeps held (recalculateAllocationCapacity id))
    {taskId allocationId : ℕ} :
    D.Keeps held (reserveTaskOnAllocation site taskId allocationId) := by
  refine ensures_locked fun _ ↦ ensures_read fun s _ ↦ ensures_read fun s' _ ↦ ?_
  have hlock : Function.update held Lock.assignment true .assignment = true :=
    Function.update_self ..
  split
  · rename_i task allocation _ _
    refine ensures_ite (fun _ ↦ ensures_pure trivial) fun hqueued ↦ ?_
    have htask : task.status = .queued := by simpa using hqueued
    refine ensures_bind reservationAdmitted_keeps fun admitted _ ↦
      ensures_ite (fun _ ↦ ensures_pure trivial) fun _ ↦ ensures_bind keeps_query fun token _ ↦ ?_
    refine ensures_bind (claimTask_keeps (h.mono (by simp)) hlock htask) fun claimed _ ↦
      ensures_ite (fun _ ↦ ensures_pure trivial) fun _ ↦ ?_
    refine ensures_bind (recordLicenseClaim_keeps (h.mono (by simp)) hlock) fun _ _ ↦ ?_
    exact ensures_bind (hcapacity _ _) fun _ _ ↦ ensures_pure trivial
  · exact ensures_pure trivial

theorem strictNodeReadbackError_keeps {task : Task} {allocation : Option Allocation} {id : ℕ} :
    D.Keeps held (strictNodeReadbackError site task allocation id) := by
  have hdone : ∀ e : String, D.Keeps held (pure e : Action String) := fun e ↦ ensures_pure trivial
  refine ensures_ite (fun _ ↦ hdone _) fun _ ↦ ensures_ite (fun _ ↦ hdone _) fun _ ↦ ?_
  cases allocation with
  | none => exact hdone _
  | some a =>
      refine ensures_ite (fun _ ↦ hdone _) fun _ ↦ ensures_ite (fun _ ↦ hdone _) fun _ ↦
        ensures_ite (fun _ ↦ hdone _) fun _ ↦ ensures_bind keeps_query fun node _ ↦ ?_
      cases node with
      | error e => exact hdone _
      | ok node => exact ensures_ite (fun _ ↦ hdone _) fun _ ↦ hdone _

theorem endAttempt_keeps {kinds : List Kind} (h : Allows D site kinds)
    (hlicense : ∀ held task e, D.Keeps held (licenseEvent site task e)) {task current : Task}
    {c : TaskChange} (hc : c.ofAttempt = true) (hk : c.kind ∈ kinds) :
    D.Keeps held (endAttempt site task current c) :=
  ensures_bind (updateTaskIfAttachClaim_keeps h hc hk) fun _ _ ↦
    ensures_ite (fun _ ↦ hlicense held current _) fun _ ↦ ensures_pure trivial

theorem rejectLaunched_keeps (h : Allows D site [.attach, .strictRejected, .cancelRecord])
    (hlicense : ∀ held task e, D.Keeps held (licenseEvent site task e)) {task current : Task}
    {launch : Launch} {e : String} : D.Keeps held (rejectLaunched site task current launch e) := by
  refine ensures_bind (cancelTaskRemote_keeps (h.mono (by simp))) fun answer _ ↦ ?_
  cases answer with
  | some e =>
      exact ensures_bind (updateTaskIfAttachClaim_keeps h rfl (by simp)) fun _ _ ↦
        ensures_pure trivial
  | none => exact endAttempt_keeps h hlicense rfl (by simp)

theorem acknowledgeLaunch_keeps (h : Allows D site [.attach, .cancelRecord])
    (hlicense : ∀ held task e, D.Keeps held (licenseEvent site task e))
    (hcapacity : ∀ held id, D.Keeps held (recalculateAllocationCapacity id)) {task : Task}
    {allocation : Allocation} {launch : Launch}
    (hreject : ∀ current e, D.Keeps held (rejectLaunched site task current launch e)) :
    D.Keeps held (acknowledgeLaunch site task allocation launch) := by
  refine ensures_read fun s _ ↦ ensures_read fun s' _ ↦
    ensures_bind strictNodeReadbackError_keeps fun strictError _ ↦ ?_
  refine ensures_ite (fun _ ↦ ensures_bind (hreject _ _) fun _ _ ↦ hcapacity held _) fun _ ↦ ?_
  refine ensures_bind (updateTaskIfAttachClaim_keeps h rfl (by simp)) fun updated _ ↦ ?_
  refine ensures_ite (fun _ ↦ hlicense held task _) fun _ ↦ ?_
  exact ensures_bind (cancelTaskRemote_keeps (h.mono (by simp))) fun _ _ ↦ hcapacity held _

theorem finishReservedTaskAttach_keeps
    (h : Allows D site [.launch, .attach, .cancelRecord])
    (hlicense : ∀ held task e, D.Keeps held (licenseEvent site task e))
    (hcapacity : ∀ held id, D.Keeps held (recalculateAllocationCapacity id)) {task : Task}
    {allocation : Allocation}
    (hreject : ∀ current launch e, D.Keeps held (rejectLaunched site task current launch e)) :
    D.Keeps held (finishReservedTaskAttach site task allocation) := by
  refine ensures_read fun s _ ↦ ensures_read fun s' _ ↦
    ensures_bind strictNodeReadbackError_keeps fun strictError _ ↦ ?_
  refine ensures_ite (fun _ ↦ ?_) fun _ ↦ ?_
  · exact ensures_bind (endAttempt_keeps h hlicense rfl (by simp)) fun _ _ ↦ hcapacity held _
  · refine ensures_bind (updateTaskIfAttachClaim_keeps h rfl (by simp)) fun started _ ↦ ?_
    refine ensures_ite (fun _ ↦ ensures_bind (hlicense held task _) fun _ _ ↦ hcapacity held _)
      fun _ ↦ ensures_bind (hlicense held task _) fun _ _ ↦ ?_
    refine ensures_bind (h.write trivial trivial (by simp)) fun _ _ ↦ ensures_bind keeps_query
      fun outcome _ ↦ ?_
    cases outcome with
    | refused message files =>
        exact ensures_bind (endAttempt_keeps h hlicense rfl (by simp)) fun _ _ ↦ hcapacity held _
    | raised message =>
        exact ensures_bind (endAttempt_keeps h hlicense rfl (by simp)) fun _ _ ↦ hcapacity held _
    | launched launch =>
        exact acknowledgeLaunch_keeps (h.mono (by simp)) hlicense hcapacity fun current e ↦
          hreject current launch e

end SlurmScheduler.Dispatch
