import SlurmScheduler.Dispatch.Effects

namespace SlurmScheduler.Dispatch

open Relational Concurrent Statement Proc
open Pool (TaskStatus AllocationStatus)

variable {site : Site} {o : Oracle Question Question.Answer} {n : ℕ} {s : State}
  {current : Allocation} {id : ℕ} {reason : String} {force allowOwner allowProtected : Bool}

/-- The call has issued `scancel` for the allocation, and it has raised. -/
def CancelRaised (s s' : State) (id : ℕ) : Prop :=
  ∃ job force, s'.remote = s.remote ++ [.cancelAllocation id job force, .cancelRaised id]

/-- The state of the row and the reason that encodes its owner and its lane. -/
def SameRow (current : Allocation) (s' : State) : Prop :=
  ∃ a, s'.allocation? current.id = some a ∧ a.state = current.state ∧
    a.drainReason = current.drainReason

/-- No task of the allocation has been moved to a terminal state. -/
def NoTaskEnded (s s' : State) (id : ℕ) : Prop :=
  ∀ t ∈ s.tasks, t.allocationId = id → t.status.terminal = false →
    ∃ t' ∈ s'.tasks, t'.id = t.id ∧ t'.status.terminal = false

/-- The checks cancel nothing and touch no task, and when they let a close pass they have written
nothing at all. -/
structure Checked (s : State) (out : Outcome State Bool) : Prop where
  remote : out.state.remote = s.remote
  tasks : out.state.tasks = s.tasks
  passed : out.result = false → out.state = s

theorem keepClaimed_checked : Checked s ((keepClaimed current).solo o n s) := by
  unfold keepClaimed when
  rw [solo_bind]
  split
  · exact ⟨rfl, rfl, fun h ↦ by cases h⟩
  · exact ⟨rfl, rfl, fun h ↦ by cases h⟩

theorem closeRefused_checked :
    Checked s ((closeRefused site current force allowOwner).solo o n s) := by
  have hrefused : Checked s ⟨true, n, s⟩ := ⟨rfl, rfl, fun h ↦ by cases h⟩
  unfold closeRefused
  refine solo_ite (fun _ ↦ hrefused) fun _ ↦ ?_
  simp only [solo_bind, solo_read]
  refine solo_ite (fun _ ↦ hrefused) fun _ ↦ ?_
  simp only [solo_bind, solo_read]
  refine solo_ite (fun _ ↦ keepClaimed_checked) fun _ ↦ ?_
  refine solo_ite (fun _ ↦ ⟨rfl, rfl, fun _ ↦ rfl⟩) fun _ ↦ ?_
  simp only [solo_bind, solo_query]
  split
  · exact ⟨rfl, rfl, fun h ↦ by cases h⟩
  · exact ⟨rfl, rfl, fun _ ↦ rfl⟩
  · exact keepClaimed_checked

theorem CancelRaised.ne {s' : State} (h : CancelRaised s s' id) :
    s.remote.length + 2 = s'.remote.length := by
  obtain ⟨job, force, h⟩ := h
  simp [h]

/-- The row at the end of a close whose cancellation has raised: the reason of the close stays. -/
theorem commitClose_raised (hrow : s.allocation? current.id = some current)
    (hraised : CancelRaised s ((commitClose site current reason force).solo o n s).state
      current.id) :
    ∃ a, ((commitClose site current reason force).solo o n s).state.allocation? current.id =
      some a ∧ a.state = current.state ∧ a.drainReason = reason := by
  have hlen := hraised.ne
  unfold commitClose cancelParent at hlen ⊢
  by_cases hclient : site.hasClient current = true
  · simp only [hclient, if_true, solo_bind, solo_write, solo_query] at hlen ⊢
    cases hanswer : o n (Question.cancelJob current.slurmJobId) with
    | none => simp [hanswer, Statement.apply, exec_remote, Write.recorded] at hlen
    | some e =>
        simp only [solo_bind, solo_write, solo_pure]
        have hclosing := allocation?_updateAllocation (c := .closing reason) hrow rfl
        exact ⟨_, allocation?_updateAllocation hclosing rfl, rfl, rfl⟩
  · simp [hclient, Statement.apply, exec_remote, Write.recorded] at hlen

theorem closeAllocation_raised (hrow : s.allocation? id = some current)
    (hraised : CancelRaised s
      ((closeAllocation site id reason force allowOwner).solo o n s).state id) :
    ∃ a, ((closeAllocation site id reason force allowOwner).solo o n s).state.allocation? id =
      some a ∧ a.state = current.state ∧ a.drainReason = reason := by
  obtain rfl : current.id = id := (mem_of_allocation? hrow).2
  have hlen := hraised.ne
  unfold closeAllocation at hraised hlen ⊢
  simp only [solo_locked, solo_bind, solo_read, hrow] at hraised hlen ⊢
  by_cases hclosed : closedStates.contains current.state = true
  · simp only [hclosed, if_true, solo_pure] at hlen
    omega
  · have hchecked := @closeRefused_checked site o n s current force allowOwner
    simp only [hclosed, Bool.false_eq_true, if_false, solo_bind] at hraised hlen ⊢
    cases hresult :
      ((closeRefused site current force allowOwner).solo o n s).result with
    | true =>
        simp only [hresult, if_true, solo_pure, hchecked.remote] at hlen
        omega
    | false =>
        simp only [hresult, Bool.false_eq_true, if_false, hchecked.passed hresult] at hraised ⊢
        exact commitClose_raised hrow hraised

theorem commitClose_tasks :
    ((commitClose site current reason force).solo o n s).state.tasks = s.tasks := by
  unfold commitClose cancelParent
  by_cases hclient : site.hasClient current = true
  · simp only [hclient, if_true, solo_bind, solo_write, solo_query]
    cases o n (Question.cancelJob current.slurmJobId) <;> rfl
  · simp only [hclient, Bool.false_eq_true, if_false, solo_bind, solo_write, solo_pure]
    rfl

theorem closeAllocation_tasks :
    ((closeAllocation site id reason force allowOwner).solo o n s).state.tasks = s.tasks := by
  unfold closeAllocation
  simp only [solo_locked, solo_bind, solo_read]
  cases hrow : s.allocation? id with
  | none => rfl
  | some current =>
      by_cases hclosed : closedStates.contains current.state = true
      · simp only [hclosed, if_true, solo_pure]
      · have hchecked := @closeRefused_checked site o n s current force allowOwner
        simp only [hclosed, Bool.false_eq_true, if_false, solo_bind]
        split
        · exact hchecked.tasks
        · exact commitClose_tasks.trans hchecked.tasks

theorem onTaskTerminal_solo {t : Task} :
    ∃ m, ((onTaskTerminal site t).solo o n s).state = { s with memory := m } := by
  unfold onTaskTerminal licenseEvent when
  split
  · exact ⟨_, rfl⟩
  · exact ⟨s.memory, rfl⟩

theorem failTask_solo {t : Task} {message : String} :
    let out := ((do
      write (.updateTask t (.allocationLost message))
      onTaskTerminal site t : Action Unit)).solo o n s
    out.state.allocations = s.allocations ∧ out.state.remote = s.remote ∧
      out.state.tasks = (Write.exec (.updateTask t (.allocationLost message)) s).tasks := by
  intro out
  obtain ⟨m, hm⟩ := @onTaskTerminal_solo site o n
    (Write.exec (.updateTask t (.allocationLost message)) s) t
  have hout : out.state =
      { Write.exec (.updateTask t (.allocationLost message)) s with memory := m } := by
    simp only [out, solo_bind, solo_write]
    exact hm
  rw [hout]
  exact ⟨rfl, rfl, rfl⟩

theorem failRunningTasks_frame {message : String} :
    ((failRunningTasks site id message).solo o n s).state.allocations = s.allocations ∧
      ((failRunningTasks site id message).solo o n s).state.remote = s.remote := by
  unfold failRunningTasks
  simp only [solo_bind, solo_read]
  refine solo_forEach (I := fun s' : State ↦ s'.allocations = s.allocations ∧ s'.remote = s.remote)
    (fun t _ n s' hs' ↦ ?_) ⟨rfl, rfl⟩
  obtain ⟨hallocations, hremote, -⟩ := @failTask_solo site o n s' t message
  exact ⟨hallocations.trans hs'.1, hremote.trans hs'.2⟩

/-- Every task of the allocation that the listing shows has failed. -/
theorem failRunningTasks_ends {t : Task} {message : String}
    (ht : t ∈ s.listTasksByStatuses claiming 5000) (hclaims : t.claims id = true) :
    ∀ r ∈ ((failRunningTasks site id message).solo o n s).state.tasks, r.id = t.id →
      r.status = .failed := by
  unfold failRunningTasks
  simp only [solo_bind, solo_read]
  refine solo_forEach_reaches
    (I := fun s' : State ↦ ∀ r ∈ s'.tasks, r.id = t.id → r.status = .failed)
    (List.mem_filter.mpr ⟨ht, hclaims⟩) (fun n s' ↦ ?_) fun c _ n s' hs' ↦ ?_
  · rw [(@failTask_solo site o n s' t message).2.2]
    intro r hr hid
    obtain ⟨a, -, rfl⟩ := mem_onTasks.mp hr
    by_cases ha : (a.id == t.id) = true
    · rw [if_pos ha]
      rfl
    · rw [if_neg ha] at hid
      simp [hid] at ha
  · rw [(@failTask_solo site o n s' c message).2.2]
    intro r hr hid
    obtain ⟨a, ha, rfl⟩ := mem_onTasks.mp hr
    by_cases hc : (a.id == c.id) = true
    · rw [if_pos hc]
      rfl
    · rw [if_neg hc] at hid ⊢
      exact hs' a ha hid

def failClaims (site : Site) (s : State) (id : ℕ) : Action Unit :=
  when (!((s.liveTaskClaims id).map (·.id)).isEmpty)
    (failRunningTasks site id "allocation manually closed")

theorem failClaims_frame : ((failClaims site s id).solo o n s).state.allocations = s.allocations ∧
    ((failClaims site s id).solo o n s).state.remote = s.remote := by
  unfold failClaims when
  split
  · exact failRunningTasks_frame
  · exact ⟨rfl, rfl⟩

/-- A forced close that has come to the cancellation has failed the tasks first. -/
theorem requestClose_raised (hrow : s.allocation? id = some current)
    (hraised : CancelRaised s
      ((requestCloseAllocation site id true allowProtected).solo o n s).state id) :
    ∃ m, ((requestCloseAllocation site id true allowProtected).solo o n s).state =
      ((closeAllocation site id "manual close" true false).solo o m
        ((failClaims site s id).solo o n s).state).state := by
  have hlen := hraised.ne
  unfold requestCloseAllocation at hlen ⊢
  simp only [solo_bind, solo_read, hrow] at hlen ⊢
  by_cases hclosed : (current.state == .closed || current.state == .failed) = true
  · simp only [hclosed, if_true, solo_pure] at hlen
    omega
  · simp only [hclosed, Bool.false_eq_true, if_false] at hlen ⊢
    by_cases hprotected : (site.protectedGpuWarmPool current && !allowProtected) = true
    · simp only [hprotected, if_true, solo_pure] at hlen
      omega
    · simp only [hprotected, Bool.false_eq_true, if_false, solo_bind, solo_read, Bool.not_true,
        Bool.and_false, solo_pure]
      exact ⟨_, rfl⟩

/-- A forced close has ended a task of the allocation exactly when the listing shows one. -/
theorem noTaskEnded_iff {m : ℕ} : NoTaskEnded s
    ((closeAllocation site id "manual close" true false).solo o m
      ((failClaims site s id).solo o n s).state).state id ↔
    ∀ t ∈ s.listTasksByStatuses claiming 5000, t.claims id = false := by
  unfold NoTaskEnded
  rw [closeAllocation_tasks]
  constructor
  · intro h t ht
    by_contra hclaims
    rw [Bool.not_eq_false] at hclaims
    obtain ⟨hmem, hstatus⟩ := mem_listTasksByStatuses ht
    have hnonterminal : t.status.terminal = false := by
      rcases List.mem_pair.mp hstatus with h | h <;> rw [h] <;> rfl
    obtain ⟨r, hr, hid, hlive⟩ := h t hmem (claims_iff.mp hclaims).1 hnonterminal
    have hnonempty : (!((s.liveTaskClaims id).map (·.id)).isEmpty) = true := by
      simpa [List.isEmpty_iff] using
        List.ne_nil_of_mem (mem_liveTaskClaims.mpr ⟨hmem, hclaims⟩)
    rw [failClaims, hnonempty] at hr
    rw [failRunningTasks_ends ht hclaims r hr hid] at hlive
    cases hlive
  · intro h
    have hsame : ((failClaims site s id).solo o n s).state.tasks = s.tasks := by
      unfold failClaims when
      split
      · unfold failRunningTasks
        have hnone : (s.listTasksByStatuses claiming 5000).filter (·.claims id) = [] :=
          List.filter_eq_nil_iff.mpr fun t ht ↦ by simp [h t ht]
        simp only [solo_bind, solo_read, hnone, forEach, solo_ret]
      · rfl
    rw [hsame]
    exact fun t ht _ hlive ↦ ⟨t, ht, rfl, hlive⟩

/-- A close whose cancellation raised leaves no trace exactly when the row already carried the
reason of the close and, if it was forced by a user, no task of the allocation was active. -/
theorem failed_close_traceless_iff (site : Site) (o : Oracle Question Question.Answer) (n : ℕ)
    (s : State) (current : Allocation) (hrow : s.allocation? current.id = some current) :
    (∀ reason force allowOwner,
      let s' := ((closeAllocation site current.id reason force allowOwner).solo o n s).state
      CancelRaised s s' current.id → (SameRow current s' ↔ current.drainReason = reason)) ∧
    (∀ allowProtected,
      let s' := ((requestCloseAllocation site current.id true allowProtected).solo o n s).state
      CancelRaised s s' current.id →
        (SameRow current s' ∧ NoTaskEnded s s' current.id ↔
          current.drainReason = "manual close" ∧
            ∀ t ∈ s.listTasksByStatuses claiming 5000, t.claims current.id = false)) := by
  have hsame : ∀ (s₁ : State) (m : ℕ) (reason : String) (force allowOwner : Bool),
      s₁.allocation? current.id = some current →
      CancelRaised s₁ ((closeAllocation site current.id reason force allowOwner).solo o m s₁).state
        current.id →
      (SameRow current ((closeAllocation site current.id reason force allowOwner).solo o m
        s₁).state ↔ current.drainReason = reason) := by
    intro s₁ m reason force allowOwner hrow₁ hraised
    obtain ⟨a, ha, hstate, hreason⟩ := closeAllocation_raised hrow₁ hraised
    constructor
    · rintro ⟨b, hb, -, hsame⟩
      rw [ha, Option.some.injEq] at hb
      rw [← hsame, ← hb, hreason]
    · rintro rfl
      exact ⟨a, ha, hstate, hreason⟩
  refine ⟨fun reason force allowOwner hraised ↦ hsame s n reason force allowOwner hrow hraised,
    fun allowProtected hraised ↦ ?_⟩
  obtain ⟨m, hm⟩ := requestClose_raised hrow hraised
  obtain ⟨hallocations, hremote⟩ := @failClaims_frame site o n s current.id
  have hrow₁ : ((failClaims site s current.id).solo o n s).state.allocation? current.id =
      some current := by
    rw [State.allocation?, hallocations]
    exact hrow
  rw [hm] at hraised ⊢
  have hraised₁ : CancelRaised ((failClaims site s current.id).solo o n s).state
      ((closeAllocation site current.id "manual close" true false).solo o m
        ((failClaims site s current.id).solo o n s).state).state current.id := by
    unfold CancelRaised at hraised ⊢
    rwa [hremote]
  rw [noTaskEnded_iff, hsame _ m _ _ _ hrow₁ hraised₁]

def warmPool : Allocation :=
  { id := 1, accountName := "alpha", slurmJobId := "77", state := .warm
    resourcePool := "gpu:a6000", drainReason := "gpu warm pool" }

def busyTask : Task :=
  { id := 1, status := .running, allocationId := 1, accountName := some "alpha" }

def warmPoolState : State where
  allocations := Table.empty.insert fun id ↦ { warmPool with id }
  tasks := Table.empty.insert fun id ↦ { busyTask with id }

def unreachable : Oracle Question Question.Answer
  | _, .decision => false
  | _, .text => ""
  | _, .rows => []
  | _, .token => ""
  | _, .number => 0
  | _, .cancelTask _ => some "ssh failed"
  | _, .cancelJob _ => some "scancel failed"
  | _, .liveTaskSteps _ => .ok []
  | _, .jobStates _ => .error "ssh failed"
  | _, .taskProbes _ => .error "ssh failed"
  | _, .nodeName _ => .error "ssh failed"
  | _, .attachTask _ => .raised "ssh failed"
  | _, .submitAllocation _ => ⟨none, .ambiguous "ssh failed"⟩
  | _, .findSubmissions _ => .error "ssh failed"
  | _, .submitJob _ => .error "ssh failed"
  | _, .poolJobs _ => .error "ssh failed"
  | _, .lmstat => .error "ssh failed"
  | _, .poolEnv => ⟨{}, 0, 0, {}⟩
  | _, .allocationShape => { id := 0 }

theorem warmPoolState_close : let s' :=
      ((requestCloseAllocation sampleSite 1 true true).solo unreachable 0 warmPoolState).state
    s'.remote = [.cancelAllocation 1 "77" true, .cancelRaised 1] ∧
      (s'.allocation? 1).map (·.drainReason) = some "manual close" ∧
      ∀ t ∈ s'.tasks, t.status = .failed := by
  decide

/-- The warm pool has lost its protection, and the task is declared failed on a live job. -/
theorem forced_close_leaves_trace : let s' :=
      ((requestCloseAllocation sampleSite 1 true true).solo unreachable 0 warmPoolState).state
    CancelRaised warmPoolState s' 1 ∧ ¬ SameRow warmPool s' ∧ ¬ NoTaskEnded warmPoolState s' 1 := by
  obtain ⟨hremote, hreason, htasks⟩ := warmPoolState_close
  refine ⟨⟨"77", true, hremote⟩, ?_, fun h ↦ ?_⟩
  · rintro ⟨a, ha, -, hsame⟩
    change State.allocation? _ 1 = some a at ha
    rw [ha, Option.map_some, hsame] at hreason
    exact absurd hreason (by decide)
  · obtain ⟨t, ht, -, hlive⟩ := h busyTask List.mem_cons_self rfl rfl
    rw [htasks t ht] at hlive
    cases hlive

def spentPoolState : State where
  allocations := Table.empty.insert fun id ↦ { warmPool with id, drainReason := "manual close" }

theorem failed_close_traceless_spent : let s' :=
      ((requestCloseAllocation sampleSite 1 true true).solo unreachable 0 spentPoolState).state
    SameRow { warmPool with drainReason := "manual close" } s' ∧ NoTaskEnded spentPoolState s' 1 :=
  ((failed_close_traceless_iff sampleSite unreachable 0 spentPoolState
    { warmPool with drainReason := "manual close" } rfl).2 true ⟨"77", true, by decide⟩).mpr
    ⟨rfl, by decide⟩

end SlurmScheduler.Dispatch
