import SlurmScheduler.Dispatch.Compliance
import SlurmScheduler.Concurrent.Founded

namespace SlurmScheduler.Dispatch

open Relational Concurrent Proc Discipline
open Pool (Time TaskStatus AllocationStatus)

structure Pieces (D : Rules) (site : Site) : Prop where
  coherent : D.Coherent
  respected : ∀ c, D.Respected (D.pre c)
  allows : Allows D site [.probe, .taskEnd, .create, .refresh, .cancelRecord, .process]
  cancelBestEffort : ∀ task s, D.pre (.cancelTaskRemoteBestEffort task) s
  monitor : ∀ s, D.pre .refreshLicenseUsage s
  capacity : ∀ held id, D.Keeps held (recalculateAllocationCapacity id)
  license : ∀ held task e, D.Keeps held (licenseEvent site task e)
  close : ∀ held id reason force allowOwner,
    D.Keeps held (closeAllocation site id reason force allowOwner)
  rebalance : ∀ held task, task.status = .running → task.FoundIn D.inv → D.Keeps held (do
    cancelReclaimed site task
    requeueTaskForRebalance site task)
  relieve : ∀ held task, task.status = .running → task.FoundIn D.inv → D.Keeps held (do
    cancelReclaimed site task
    requeuePressureKilledTask site task)
  schedule : ∀ held task, task.status ∈ claiming → task.FoundIn D.inv →
    D.Keeps held (scheduleTimedOutTaskCancellation site task)
  drain : ∀ held, D.Keeps held (drainTimedOutTaskCancellations site)
  strict : ∀ held task, D.Keeps held (retryStrictNodeCancellation site task)
  reserve : ∀ held taskId allocationId s, D.wp (reserveTaskOnAllocation site taskId allocationId)
    (fun r held' s' ↦ held' = held ∧ ∀ task allocation, r = some (task, allocation) →
      D.pre (.finishBackgroundTaskAttach task allocation) s') held s
  finish : ∀ held task allocation s, D.pre (.finishBackgroundTaskAttach task allocation) s →
    D.wp (finishReservedTaskAttach site task allocation) (fun _ held' _ ↦ held' = held) held s
  submit : ∀ held rows, D.Keeps held (submitReservedAllocationRecords site rows)
  recover : ∀ held, D.Keeps held (recoverAllocationSubmissionClaims site)
  reconcile : ∀ held, D.Keeps held (reconcileSlurmState site)
  jobs : ∀ held, D.Keeps held (refreshSubmittedJobs site)
  submitJob : ∀ held, D.Keeps held submitNextQueuedJob
  pool : ∀ held call env, D.Keeps held (poolCall site call env)
  start : D.Keeps noLocks (start site)
  cancelTimedOut : ∀ task s, D.pre (.cancelTimedOutTaskRemote task) s →
    D.wp (cancelTimedOutTaskRemote task) (fun _ _ _ ↦ True) noLocks s
  submitAccount : ∀ rows s, D.pre (.submitAccount rows) s →
    D.wp (submitAccountWorker rows) (fun _ _ _ ↦ True) noLocks s
  refreshLicense : D.Keeps noLocks (refreshLicenseUsage site)
  cancelJob : ∀ jobId, D.Keeps noLocks (cancelJob site jobId)

namespace Pieces

variable {D : Rules} {site : Site} {held : Lock → Bool} (P : Pieces D site)

include P

theorem failRunningTasks {id : ℕ} {message : String} :
    D.Keeps held (failRunningTasks site id message) := by
  refine ensures_read fun s hs ↦ keeps_forEach fun task htask ↦ ?_
  obtain ⟨hmem, hstatus⟩ := mem_listTasksByStatuses (List.mem_of_mem_filter htask)
  exact ensures_bind (P.allows.updateTask hstatus rfl (.of_mem hs hmem) (by simp)) fun _ _ ↦
    P.license held task _

theorem closeVoid {id : ℕ} {reason : String} {force allowOwner : Bool} :
    D.Keeps held (do
      let _ ← closeAllocation site id reason force allowOwner : Action Unit) :=
  ensures_bind (P.close held _ _ _ _) fun _ _ ↦ ensures_pure trivial

theorem closeEmptyAedtPoolAllocation {id : ℕ} {expected : Option AllocationStatus} :
    D.Keeps held (closeEmptyAedtPoolAllocation site id expected) := by
  refine ensures_read fun s _ ↦ ?_
  cases s.allocation? id with
  | none => exact ensures_pure trivial
  | some a =>
      refine ensures_ite (fun _ ↦ ensures_pure trivial) fun _ ↦ ensures_ite (fun _ ↦ ensures_pure trivial)
        fun _ ↦ ensures_read fun s _ ↦ ensures_ite (fun _ ↦ ensures_pure trivial) fun _ ↦
          ensures_read fun s _ ↦ ensures_ite (fun _ ↦ ensures_pure trivial) fun _ ↦ ?_
      exact P.close held _ _ _ _

theorem requestCloseAllocation {id : ℕ} {force allowProtected : Bool} :
    D.Keeps held (requestCloseAllocation site id force allowProtected) := by
  refine ensures_read fun s _ ↦ ?_
  cases s.allocation? id with
  | none => exact ensures_pure trivial
  | some a =>
      refine ensures_ite (fun _ ↦ ensures_pure trivial) fun _ ↦ ensures_ite (fun _ ↦ ensures_pure trivial)
        fun _ ↦ ensures_read fun s _ ↦ ensures_ite (fun _ ↦ ensures_pure trivial) fun _ ↦
          ensures_bind (keeps_when fun _ ↦ P.failRunningTasks) fun _ _ ↦
            ensures_bind (P.close held _ _ _ _) fun _ _ ↦ ensures_read fun s _ ↦ ?_
      exact ensures_pure trivial

theorem refreshAllocations : D.Keeps held (refreshAllocations site) := by
  refine ensures_read fun s hs ↦
    ensures_bind (fanOutByAccount_keeps fun _ _ ↦ keeps_query) fun outcomes houtcomes ↦
      ensures_bind (S := fun _ ↦ True) (keeps_forEach fun o ho ↦ ?_) fun _ _ ↦ P.capacity held _
  obtain ⟨name, rows, outcome⟩ := o
  cases outcome with
  | error e => exact ensures_pure trivial
  | ok states =>
      refine keeps_forEach fun a ha ↦ ?_
      have hrow := List.mem_filter.mp (mem_of_byAccount (houtcomes _ ho) ha)
      have hlive : a.state ∈ liveStates := by
        have := hrow.2
        simp only [Bool.and_eq_true, List.contains_iff_mem] at this
        exact this.1.1
      have hwrite : ∀ c : AllocationChange, a.state ∈ c.expects → c.ofClose = false →
          c.ofSubmission = false → D.Keeps held (write (.updateAllocation a c) : Action Unit) :=
        fun c hc hclose hsub ↦ P.allows.updateAllocation hc hclose hsub
          (.of_mem hs (mem_listAllocationsWithLive hrow.1)) (by simp)
      unfold refreshAllocation
      split
      · refine ensures_ite (fun _ ↦ hwrite _ hlive rfl rfl) fun _ ↦ ?_
        unfold applyAllocationState
        dsimp only
        split
        · rename_i hpending
          exact hwrite _ (List.mem_singleton.mpr hpending) rfl rfl
        · exact keeps_when fun _ ↦ hwrite _ hlive rfl rfl
        · rename_i hpending
          exact keeps_when fun _ ↦ hwrite _ (List.mem_singleton.mpr hpending) rfl rfl
        · exact hwrite _ hlive rfl rfl
        · exact hwrite _ hlive rfl rfl
        · exact hwrite _ hlive rfl rfl
        · exact hwrite _ hlive rfl rfl
        · exact ensures_pure trivial
      · exact keeps_when fun _ ↦ hwrite _ hlive rfl rfl

omit P in
theorem runningTaskCount {id : ℕ} : D.Keeps held (runningTaskCount id) :=
  ensures_read fun _ _ ↦ ensures_pure trivial

theorem ageAllocation {a : Allocation} (ha : a.state ∈ servingStates)
    (hfound : a.FoundIn D.inv (phaseOf a.state)) : D.Keeps held (ageAllocation site a) := by
  refine ensures_read fun s _ ↦ ensures_ite (fun hage ↦ ?_) fun _ ↦ ?_
  · have hstate : a.state ∈ AllocationChange.ageLimit.expects := by
      rw [Bool.and_eq_true, bne_iff_ne] at hage
      revert ha hage
      cases a.state <;> simp [servingStates]
    refine ensures_bind (P.allows.updateAllocation hstate rfl rfl hfound (by simp)) fun _ _ ↦ ?_
    exact ensures_bind runningTaskCount fun n _ ↦ keeps_when fun _ ↦ P.closeVoid
  · have hrest : ∀ drained : Bool, D.Keeps held
        (if drained then do
            let _ ← closeAllocation site a.id "drained" false false
          else when (site.allocationForceCancelAfterSeconds ≤ a.age s.clock) do
            Dispatch.failRunningTasks site a.id "allocation force-cancelled near walltime"
            let _ ← closeAllocation site a.id "force timeout" true false : Action Unit) :=
      fun drained ↦ ensures_ite (fun _ ↦ P.closeVoid) fun _ ↦ keeps_when fun _ ↦
        ensures_bind P.failRunningTasks fun _ _ ↦ P.closeVoid
    exact ensures_ite (fun _ ↦ ensures_bind runningTaskCount fun n _ ↦ hrest _)
      fun _ ↦ hrest false

theorem applyAllocationLifecycle : D.Keeps held (applyAllocationLifecycle site) := by
  refine ensures_read fun s hs ↦ keeps_forEach fun a ha ↦ ensures_ite (fun _ ↦ ?_) fun _ ↦
    ensures_ite (fun hserving ↦ P.ageAllocation (List.contains_iff_mem.mp hserving)
      (.of_mem hs (mem_listAllocationsWithLive ha))) fun _ ↦ ensures_pure trivial
  refine ensures_ite (fun _ ↦ ensures_pure trivial) fun _ ↦ ensures_bind keeps_query fun stale _ ↦
    ensures_bind keeps_query fun reason _ ↦ ?_
  exact keeps_when fun _ ↦ P.closeVoid

theorem closeUnneededAllocations : D.Keeps held (closeUnneededAllocations site) :=
  ensures_bind keeps_query fun _ _ ↦ keeps_forEach fun _ _ ↦ ensures_bind keeps_query fun _ _ ↦
    P.closeVoid

theorem closeAllocationAfterExclusiveTask {task : Task} :
    D.Keeps held (closeAllocationAfterExclusiveTask site task) :=
  closeAllocationAfterExclusiveTask_keeps P.close

theorem applyTaskProbe {task : Task} {probe : TaskProbe} (htask : task.status ∈ claiming)
    (hfound : task.FoundIn D.inv) : D.Keeps held (applyTaskProbe site task probe) := by
  have hend : ∀ c : TaskChange, c.expects = claiming → c.unguarded = true → c.kind = .probe →
      D.Keeps held (do
        write (.updateTask task c)
        onTaskTerminal site task
        Dispatch.closeAllocationAfterExclusiveTask site task : Action Unit) := fun c he hu hk ↦
    ensures_bind (P.allows.updateTask (he ▸ htask) hu hfound (by rw [hk]; simp)) fun _ _ ↦
      ensures_bind (P.license held task _) fun _ _ ↦ P.closeAllocationAfterExclusiveTask
  unfold Dispatch.applyTaskProbe
  split
  · refine keeps_when fun hne ↦ ?_
    have hattaching : task.status = .attaching := by
      rw [bne_iff_ne] at hne
      rcases List.mem_pair.mp htask with h | h
      · exact h
      · exact absurd h hne
    exact ensures_bind (P.allows.updateTask (List.mem_singleton.mpr hattaching) rfl hfound
      (by simp)) fun _ _ ↦ P.license held task _
  · exact hend _ rfl rfl rfl
  · exact hend _ rfl rfl rfl
  · exact hend _ rfl rfl rfl
  · exact ensures_pure trivial

theorem refreshTasks : D.Keeps held (refreshTasks site) := by
  refine ensures_bind (P.drain held) fun _ _ ↦ ensures_read fun s hs ↦ ?_
  refine ensures_bind (S := fun candidates ↦ ∀ t ∈ candidates,
      t.status ∈ claiming ∧ t.FoundIn D.inv) ?_
    fun candidates hcandidates ↦ ensures_read fun s' _ ↦ ?_
  · refine ensures_fold (List.forall_mem_nil _) fun task htask candidates hcandidates ↦ ?_
    refine ensures_ite (fun _ ↦ ?_) fun _ ↦ ensures_pure ?_
    · exact ensures_bind (keeps_when fun _ ↦ P.strict held task) fun _ _ ↦
        ensures_pure hcandidates
    · refine List.forall_mem_append.mpr ⟨hcandidates, List.forall_mem_singleton.mpr ?_⟩
      obtain ⟨hmem, hstatus⟩ := mem_listTasksByStatuses htask
      exact ⟨hstatus, .of_mem hs hmem⟩
  · refine ensures_bind (keeps_forEach fun task htask ↦ ?_) fun _ _ ↦ ?_
    · have hmem := (List.perm_insertionSort _ _).mem_iff.mp (List.mem_of_mem_take htask)
      obtain ⟨hstatus, hfound⟩ := hcandidates task (List.mem_of_mem_filter hmem)
      exact P.schedule held task hstatus hfound
    · refine ensures_bind keeps_query fun sample _ ↦
        ensures_bind (fanOutByAccount_keeps fun _ _ ↦ keeps_query) fun outcomes houtcomes ↦
          ensures_bind (S := fun _ ↦ True) (keeps_forEach fun o ho ↦ ?_) fun _ _ ↦
            ensures_bind (P.drain held) fun _ _ ↦ P.capacity held _
      obtain ⟨name, rows, outcome⟩ := o
      cases outcome with
      | error e => exact ensures_pure trivial
      | ok probes =>
          refine keeps_forEach fun task htask ↦ ?_
          split
          · exact ensures_pure trivial
          · have hmem := mem_of_byAccount (houtcomes _ ho) htask
            have hfiltered := List.mem_of_mem_filter (List.mem_of_mem_filter hmem)
            obtain ⟨hstatus, hfound⟩ := hcandidates task (List.mem_of_mem_filter hfiltered)
            exact P.applyTaskProbe hstatus hfound

theorem recalculateIf {c : Bool} : D.Keeps held (when c (recalculateAllocationCapacity none)) :=
  keeps_when fun _ ↦ P.capacity held none

theorem failStaleSameNodeTasks : D.Keeps held (failStaleSameNodeTasks site) := by
  refine ensures_read fun s hs ↦ keeps_forEach fun task htask ↦ ensures_read fun s' _ ↦ ?_
  obtain ⟨hmem, hstatus⟩ := mem_listTasksByStatuses (List.mem_of_mem_filter htask)
  cases sameNodeFailure task.sameNodeAsTaskId (s'.task? task.sameNodeAsTaskId) with
  | none => exact ensures_pure trivial
  | some message =>
      exact ensures_bind (P.allows.updateTask hstatus rfl (.of_mem hs hmem) (by simp)) fun _ _ ↦
        ensures_bind (P.license held task _) fun _ _ ↦ P.recalculateIf

theorem failStaleRequestedAllocationTasks :
    D.Keeps held (failStaleRequestedAllocationTasks site) := by
  refine ensures_read fun s hs ↦ keeps_forEach fun task htask ↦ ensures_read fun s' _ ↦
    ensures_ite (fun _ ↦ ensures_pure trivial) fun _ ↦ ensures_read fun s'' _ ↦
      ensures_ite (fun _ ↦ ensures_pure trivial) fun _ ↦ ?_
  obtain ⟨hmem, hstatus⟩ := mem_listTasksByStatuses (List.mem_of_mem_filter htask)
  exact ensures_bind (P.allows.updateTask hstatus rfl (.of_mem hs hmem) (by simp)) fun _ _ ↦
    P.license held task _

theorem enforceFeaNodeCpuCap : D.Keeps held (enforceFeaNodeCpuCap site) := by
  refine ensures_read fun s hs ↦ ensures_bind keeps_query fun chosen _ ↦
    ensures_bind (S := fun _ ↦ True) (keeps_forEach fun task htask ↦ ?_) fun _ _ ↦ P.recalculateIf
  obtain ⟨hmem, hstatus⟩ :=
    mem_listTasksByStatuses (List.mem_of_mem_filter (List.mem_of_mem_filter htask))
  exact P.rebalance held task (List.mem_singleton.mp hstatus) (.of_mem hs hmem)

theorem handleFeaMemoryPressure : D.Keeps held (handleFeaMemoryPressure site) := by
  refine ensures_bind keeps_query fun chosen _ ↦
    ensures_bind (S := fun _ ↦ True) (keeps_forEach fun id _ ↦ ensures_read fun s hs ↦ ?_)
      fun _ _ ↦ P.recalculateIf
  dsimp only
  split
  · exact ensures_pure trivial
  · rename_i task hfound
    obtain ⟨hmem, hstatus⟩ :=
      mem_listTasksByStatuses (List.mem_of_mem_filter (List.mem_of_find?_eq_some hfound))
    exact P.relieve held task (List.mem_singleton.mp hstatus) (.of_mem hs hmem)

theorem cancelTaskRemote {task : Task} : D.Keeps held (cancelTaskRemote task) :=
  cancelTaskRemote_keeps (P.allows.mono (by simp))

theorem cancelTask {taskId : ℕ} : D.Keeps held (cancelTask site taskId) := by
  refine ensures_read fun s hs ↦ ?_
  cases hrow : s.task? taskId with
  | none => exact ensures_pure trivial
  | some task =>
      refine ensures_ite (fun _ ↦ ensures_pure trivial) fun hlive ↦
        ensures_bind (keeps_when fun _ ↦ ensures_bind P.cancelTaskRemote fun _ _ ↦
          ensures_pure trivial) fun _ _ ↦ ?_
      have hstatus : task.status ∈ TaskChange.cancelled.expects := by
        revert hlive
        cases task.status <;> simp [TaskStatus.terminal, cancellable]
      exact ensures_bind (P.allows.updateTask hstatus rfl (.of_mem hs (mem_of_task? hrow).1)
        (by simp)) fun _ _ ↦ ensures_bind (P.license held task _) fun _ _ ↦ P.recalculateIf

theorem cancelTaskRemoteBestEffort {task : Task} :
    D.Keeps held (cancelTaskRemoteBestEffort site task) :=
  keeps_when fun _ ↦ ensures_bind P.cancelTaskRemote fun _ _ ↦ ensures_pure trivial

theorem requestCancelTask {taskId : ℕ} {expected : List TaskStatus} :
    D.Keeps held (requestCancelTask site taskId expected) := by
  have hattempt : ∀ n, D.Keeps held (requestCancelTask.attempt site taskId expected n) := by
    intro n
    induction n with
    | zero => exact ensures_read fun _ _ ↦ ensures_pure trivial
    | succ n ih =>
        refine ensures_read fun s₀ hs₀ ↦ ?_
        cases hrow : s₀.task? taskId with
        | none => exact ensures_pure trivial
        | some task =>
            have hfound : task.FoundIn D.inv := .of_mem hs₀ (mem_of_task? hrow).1
            refine ensures_ite (fun _ ↦ ensures_pure trivial) fun hwanted ↦
              ensures_bind (keeps_transact_single fun s hs ↦ ?_) fun updated _ ↦
                ensures_ite (fun _ ↦ ?_) fun _ ↦ ih
            · have hstatus : task.status ∈ cancellable := by
                rw [Bool.not_eq_true', Bool.not_eq_false, Bool.and_eq_true] at hwanted
                exact List.contains_iff_mem.mp hwanted.1
              exact P.allows.may held s _ hs (.inr (.inr ⟨rfl, rfl, hstatus⟩))
                (fun _ ↦ hfound.attempt) (by simp)
            · exact ensures_bind (P.license held task _) fun _ _ ↦
                ensures_bind P.recalculateIf fun _ _ ↦
                  ensures_bind (keeps_when fun _ ↦ keeps_spawn fun s _ ↦
                    P.cancelBestEffort task s) fun _ _ ↦ ensures_pure trivial
  exact hattempt 4

theorem apiCancelTask {taskId : ℕ} {expectedStatuses : String} :
    D.Keeps held (apiCancelTask site taskId expectedStatuses) := by
  unfold Dispatch.apiCancelTask
  split
  · exact ensures_pure trivial
  · refine ensures_ite (fun _ ↦ ensures_pure trivial) fun _ ↦
      ensures_bind P.requestCancelTask fun reply _ ↦ ?_
    cases reply <;> exact ensures_pure trivial

theorem cancelListedTasks {taskIds : List ℕ} {expected : List TaskStatus} :
    D.Keeps held (cancelListedTasks site taskIds expected) := by
  refine ensures_fold trivial fun taskId _ cancelled _ ↦ ?_
  cases cancelled with
  | none => exact ensures_pure trivial
  | some ids =>
      exact ensures_ite (fun _ ↦ ensures_pure trivial) fun _ ↦
        ensures_bind P.requestCancelTask fun _ _ ↦ ensures_pure trivial

theorem cancelSelectedTask {wanted : List TaskStatus} {cancelled : Option (List ℕ)}
    {task : Task} : D.Keeps held (cancelSelectedTask site wanted cancelled task) := by
  cases cancelled with
  | none => exact ensures_pure trivial
  | some ids => exact ensures_bind P.requestCancelTask fun _ _ ↦ ensures_pure trivial

theorem cancelTasks {nameContains : String} {statuses : List TaskStatus} {limit : ℕ} :
    D.Keeps held (cancelTasks site nameContains statuses limit) :=
  ensures_read fun _ _ ↦ ensures_bind (ensures_fold (R := fun _ ↦ True) trivial
    fun _ _ _ _ ↦ P.cancelSelectedTask) fun _ _ ↦ ensures_pure trivial

theorem cancelSelected {nameContains : String} {statuses : List TaskStatus} {limit : ℕ}
    {taskIds : List ℕ} :
    D.Keeps held (cancelSelected site nameContains statuses limit taskIds) := by
  cases taskIds with
  | nil => exact ensures_ite (fun _ ↦ ensures_pure trivial) fun _ ↦ P.cancelTasks
  | cons taskId taskIds => exact P.cancelListedTasks

theorem apiCancelTasks {query : CancelQuery} : D.Keeps held (apiCancelTasks site query) := by
  unfold Dispatch.apiCancelTasks
  split
  · exact ensures_pure trivial
  split
  · exact ensures_pure trivial
  split
  · exact ensures_pure trivial
  · exact ensures_bind P.cancelSelected fun _ _ ↦ ensures_pure trivial

theorem assignQueuedTask {taskId : ℕ} {background : Bool} :
    D.Keeps held (assignQueuedTask site taskId background) := by
  refine ensures_bind keeps_query fun blocked _ ↦ ensures_read fun s _ ↦
    ensures_ite (fun _ ↦ ensures_pure trivial) fun _ ↦ ensures_bind keeps_query fun chosen _ ↦ ?_
  cases chosen with
  | nil => exact ensures_pure trivial
  | cons allocationId rest =>
      refine fun s ↦ wp_bind.mpr (wp_mono (P.reserve held taskId allocationId s) ?_)
      rintro r _ s' ⟨rfl, hpre⟩
      cases r with
      | none => exact ensures_pure trivial s'
      | some reserved =>
          obtain ⟨task, allocation⟩ := reserved
          have hpre := hpre task allocation rfl
          refine wp_ite.mpr ⟨fun _ s'' hr hs ↦ ⟨?_, rfl, trivial⟩, fun _ ↦ ?_⟩
          · exact (P.respected _).rely P.coherent hr hpre
          · exact wp_mono (P.finish _ task allocation s' hpre) fun _ _ _ h ↦ ⟨h, trivial⟩

theorem maybeAssignSameNodeTask {taskId : ℕ} :
    D.Keeps held (maybeAssignSameNodeTask site taskId) := by
  refine ensures_read fun s _ ↦ ?_
  cases s.task? taskId with
  | none => exact ensures_pure trivial
  | some task =>
      exact ensures_ite (fun _ ↦ ensures_pure trivial) fun _ ↦
        ensures_bind P.failStaleSameNodeTasks fun _ _ ↦ P.assignQueuedTask

/-- The key of an insert has been free, and the row that it returns is queued. -/
theorem createTask {columns : Task} (hfree : columns.dedupeKey ≠ "" →
      ∃ s, D.inv s ∧ (s.findActiveTaskByDedupeKey columns.dedupeKey).isNone) :
    D.Ensures held (createTask columns) fun taskId ↦
      ∀ t : Task, t.id = taskId → t.status = .queued → t.attachToken = "" → t.FoundIn D.inv := by
  refine ensures_transact_single fun s hs ↦ ?_
  have hmay : D.may held s (.createTask columns) := by
    refine P.allows.may held s _ hs trivial ?_ (by simp)
    by_cases hkey : columns.dedupeKey = ""
    · exact ⟨s, hs, by simp [State.findActiveTaskByDedupeKey, hkey]⟩
    · exact hfree hkey
  refine ⟨hmay, fun hc t hid hstatus htoken ↦ ⟨_, P.allows.keep held s _ hs hmay hc, ?_⟩⟩
  exact shown_created hid hstatus htoken

theorem insertTaskRecord {columns : Task} (hfree : columns.dedupeKey ≠ "" →
      ∃ s, D.inv s ∧ (s.findActiveTaskByDedupeKey columns.dedupeKey).isNone) :
    D.Keeps held (insertTaskRecord site columns) :=
  ensures_bind keeps_query fun _ _ ↦ ensures_ite (fun _ ↦ ensures_pure trivial) fun _ ↦
    ensures_bind (P.createTask hfree) fun _ _ ↦
      ensures_bind (keeps_when fun _ ↦ P.maybeAssignSameNodeTask) fun _ _ ↦ ensures_pure trivial

omit P in
theorem lookUpDedupeKey {key : String} : D.Ensures held (lookUpDedupeKey key) fun found ↦
    found = none → key ≠ "" → ∃ s, D.inv s ∧ (s.findActiveTaskByDedupeKey key).isNone := by
  refine ensures_ite (fun hkey ↦ ensures_pure fun _ hne ↦ absurd (eq_of_beq hkey) hne) fun _ ↦ ?_
  exact fun s s' _ hs' ↦ ⟨rfl, fun hnone _ ↦ ⟨s', hs', Option.isNone_iff_eq_none.mpr hnone⟩⟩

theorem createTaskRecord {columns : Task} : D.Keeps held (createTaskRecord site columns) := by
  refine ensures_bind keeps_query fun expanded _ ↦ ensures_ite (fun _ ↦ ensures_pure trivial)
    fun _ ↦ ?_
  dsimp only
  split
  · exact ensures_pure trivial
  · refine ensures_bind lookUpDedupeKey fun existing hlooked ↦ ?_
    cases existing with
    | none => exact P.insertTaskRecord (hlooked rfl)
    | some existing => exact ensures_pure trivial

theorem createGitTask {columns : Task} : D.Keeps held (createGitTask site columns) :=
  ensures_bind (P.createTask fun hkey ↦ absurd rfl hkey) fun _ _ ↦ P.maybeAssignSameNodeTask

theorem assignTasks {background : Bool} : D.Keeps held (assignTasks site background) :=
  ensures_bind keeps_query fun _ _ ↦ keeps_forEach fun _ _ ↦ P.assignQueuedTask

theorem failUnclaimedSessionStart {sid : ℕ} {reason : String} :
    D.Keeps held (failUnclaimedSessionStart site sid reason) :=
  ensures_bind keeps_query fun env _ ↦ ensures_bind (P.pool held _ env) fun _ _ ↦
    ensures_pure trivial

theorem bindSessionHostTask {sid taskId : ℕ} :
    D.Keeps held (bindSessionHostTask site sid taskId) :=
  ensures_bind keeps_query fun env _ ↦ P.pool held _ env

theorem failHostTask {sid : ℕ} {task : Task} {reason : String} (hfound : task.FoundIn D.inv) :
    D.Keeps held (failHostTask site sid task reason) := by
  refine ensures_bind (P.allows.updateTask ?_ rfl hfound (by simp)) fun _ _ ↦
    P.failUnclaimedSessionStart
  cases task.status <;> simp

omit P in
/-- A row that is read, or the blank one where there is none. -/
theorem foundIn_getD {s : State} (hs : D.inv s) (taskId : ℕ) :
    ((s.task? taskId).getD { id := taskId }).FoundIn D.inv := by
  cases hrow : s.task? taskId with
  | none => exact ⟨s, hs, by simp [Task.shown, State.attempt?, hrow]⟩
  | some t => exact .of_mem hs (mem_of_task? hrow).1

theorem reserveHost {session : Pool.Session} {allocation : Allocation} {taskId : ℕ} :
    D.Keeps held (reserveHost site session allocation taskId) := by
  have hlost : D.Keeps held (do
      let current ← read (·.task? taskId)
      if current.any (·.alreadyExact allocation.id) then pure () else
      let licenseReason ← askText
      Dispatch.failHostTask site session.id (current.getD { id := taskId })
        (Pool.orDefault licenseReason
          "could not reserve exact dedicated AEDT allocation") : Action Unit) :=
    ensures_read fun s hs ↦ ensures_ite (fun _ ↦ ensures_pure trivial) fun _ ↦
      ensures_bind keeps_query fun _ _ ↦ P.failHostTask (foundIn_getD hs taskId)
  refine fun s ↦ wp_bind.mpr (wp_mono (P.reserve held taskId allocation.id s) ?_)
  rintro r _ s' ⟨rfl, hpre⟩
  cases r with
  | none => exact hlost s'
  | some reserved =>
      obtain ⟨task, current⟩ := reserved
      refine wp_bind.mpr (wp_mono ((P.respected _).wp P.coherent (P.bindSessionHostTask s')
        (hpre task current rfl)) ?_)
      rintro _ _ s'' ⟨⟨rfl, -⟩, hpre'⟩
      exact fun s''' hr hs ↦ ⟨(P.respected _).rely P.coherent hr hpre', rfl, trivial⟩

theorem startSessionHost {session : Pool.Session} {allocation : Allocation}
    (hfree : ∃ s, D.inv s ∧ (s.findActiveTaskByDedupeKey
      ("aedt-session-host:" ++ toString session.id)).isNone) :
    D.Keeps held (startSessionHost site session allocation) := by
  refine ensures_bind keeps_query fun memoryMb _ ↦
    ensures_bind (P.createTask fun _ ↦ hfree) fun taskId hcreated ↦
      ensures_bind P.bindSessionHostTask fun bound _ ↦ ensures_ite (fun _ ↦ ?_) fun _ ↦ ?_
  · exact ensures_bind keeps_query fun e _ ↦ P.failHostTask (hcreated _ rfl rfl rfl)
  · exact ensures_read fun s hs ↦ ensures_bind keeps_query fun storageFailure _ ↦
      ensures_ite (fun _ ↦ P.failHostTask (foundIn_getD hs taskId)) fun _ ↦ P.reserveHost

theorem ensureSessionHost {session : Pool.Session} :
    D.Keeps held (ensureSessionHost site session) := by
  refine ensures_read fun s hs ↦ ensures_ite (fun _ ↦ ensures_pure trivial) fun hidle ↦
    ensures_read fun s' _ ↦ ?_
  have hended : session.hostId = "" ∧ ∀ t ∈ s.tasks.rows,
      t.dedupeKey = "aedt-session-host:" ++ toString session.id → t.status.terminal = true := by
    simpa using hidle
  have hfree : ∃ s, D.inv s ∧ (s.findActiveTaskByDedupeKey
      ("aedt-session-host:" ++ toString session.id)).isNone :=
    ⟨s, hs, isNone_findActiveTask hended.2⟩
  cases s'.allocation? session.allocationId with
  | none => exact P.failUnclaimedSessionStart
  | some a =>
      exact ensures_bind keeps_query fun blocked _ ↦
        ensures_ite (fun _ ↦ P.failUnclaimedSessionStart) fun _ ↦
          ensures_ite (fun _ ↦ P.startSessionHost hfree) fun _ ↦ P.failUnclaimedSessionStart

theorem closeEmptyAllocations {expected : Option AllocationStatus} :
    D.Keeps held (closeEmptyAllocations site expected) :=
  ensures_bind keeps_query fun _ _ ↦ keeps_forEach fun _ _ ↦
    ensures_bind P.closeEmptyAedtPoolAllocation fun _ _ ↦ ensures_pure trivial

theorem openAllocationRecord {reason : String} : D.Keeps held (openAllocationRecord site reason) :=
  openAllocationRecord_keeps (P.allows.mono (by simp)) P.submit

theorem poolRuntime : D.Keeps held (poolRuntime site) :=
  ensures_locked fun _ ↦ ensures_bind P.closeEmptyAllocations fun _ _ ↦
    ensures_bind (ensures_read fun _ _ ↦ keeps_forEach fun _ _ ↦ P.ensureSessionHost) fun _ _ ↦
      ensures_bind keeps_query fun _ _ ↦
        ensures_bind (keeps_forEach fun _ _ ↦ P.openAllocationRecord) fun _ _ ↦
          P.closeEmptyAllocations

theorem openAllocations : D.Keeps held (openAllocations site) :=
  ensures_bind keeps_query fun _ _ ↦ keeps_forEach fun _ _ ↦ ensures_bind keeps_query fun _ _ ↦
    P.openAllocationRecord

theorem maintainAllocationPool : D.Keeps held (maintainAllocationPool site) :=
  ensures_bind (P.recover held) fun _ _ ↦ ensures_bind P.openAllocations fun _ _ ↦
    ensures_bind P.closeUnneededAllocations fun _ _ ↦
      openPlannedAllocations_keeps (P.allows.mono (by simp)) P.submit

theorem reconcileIfNeeded : D.Keeps held (reconcileIfNeeded site) :=
  ensures_read fun _ _ ↦ ensures_ite (fun _ ↦ ensures_bind
    (P.allows.write trivial trivial (by simp)) fun _ _ ↦ P.reconcile held) fun _ ↦ ensures_pure trivial

omit P in
theorem serving {p : Action Unit} (hp : D.Keeps held p) : D.Keeps held (serving p) :=
  ensures_read fun _ _ ↦ ensures_ite (fun _ ↦ hp) fun _ ↦ ensures_pure trivial

theorem tick : D.Keeps held (tick site) :=
  ensures_locked fun _ ↦ serving <|
    ensures_bind P.reconcileIfNeeded fun _ _ ↦
    ensures_bind P.failStaleSameNodeTasks fun _ _ ↦
    ensures_bind P.failStaleRequestedAllocationTasks fun _ _ ↦
    ensures_bind P.closeUnneededAllocations fun _ _ ↦
    ensures_bind (ensures_bind keeps_query fun _ _ ↦ keeps_when fun _ ↦
      keeps_spawn fun s _ ↦ P.monitor s) fun _ _ ↦
    ensures_bind P.openAllocations fun _ _ ↦
    ensures_bind P.assignTasks fun _ _ ↦
    ensures_bind P.assignTasks fun _ _ ↦
    ensures_bind P.refreshAllocations fun _ _ ↦
    ensures_bind P.refreshTasks fun _ _ ↦
    ensures_bind P.applyAllocationLifecycle fun _ _ ↦
    ensures_bind P.handleFeaMemoryPressure fun _ _ ↦
    ensures_bind P.enforceFeaNodeCpuCap fun _ _ ↦
    ensures_bind P.openAllocations fun _ _ ↦
    ensures_bind P.assignTasks fun _ _ ↦
    ensures_bind P.maintainAllocationPool fun _ _ ↦
    ensures_bind (P.jobs _) fun _ _ ↦ P.submitJob _

theorem call (c : Call) (s : State) (hpre : D.pre c s) :
    D.wp (program site c) (fun _ _ _ ↦ True) noLocks s := by
  have hkeeps : ∀ p : Action Unit, D.Keeps noLocks p → D.wp p (fun _ _ _ ↦ True) noLocks s :=
    fun p hp ↦ wp_mono (hp s) fun _ _ _ _ ↦ trivial
  cases c with
  | start => exact hkeeps _ P.start
  | tick => exact hkeeps _ P.tick
  | finishBackgroundTaskAttach task allocation =>
      exact wp_mono (P.finish noLocks task allocation s hpre) fun _ _ _ _ ↦ trivial
  | cancelTimedOutTaskRemote task => exact P.cancelTimedOut task s hpre
  | cancelTaskRemoteBestEffort task => exact hkeeps _ P.cancelTaskRemoteBestEffort
  | submitAccount rows => exact P.submitAccount rows s hpre
  | refreshLicenseUsage => exact hkeeps _ P.refreshLicense
  | createTaskRecord columns =>
      exact hkeeps _ (serving (ensures_bind P.createTaskRecord fun _ _ ↦ ensures_pure trivial))
  | createTask columns => exact hkeeps _ (serving P.createGitTask)
  | maybeAssignSameNodeTask taskId => exact hkeeps _ (serving P.maybeAssignSameNodeTask)
  | cancelTask taskId => exact hkeeps _ (serving P.cancelTask)
  | requestCancelTask taskId expected =>
      exact hkeeps _ (serving (ensures_bind P.requestCancelTask fun _ _ ↦ ensures_pure trivial))
  | apiCancelTask taskId expectedStatuses =>
      exact hkeeps _ (serving (ensures_bind P.apiCancelTask fun _ _ ↦ ensures_pure trivial))
  | apiCancelTasks query =>
      exact hkeeps _ (serving (ensures_bind P.apiCancelTasks fun _ _ ↦ ensures_pure trivial))
  | requestCloseAllocation id force allowProtected =>
      exact hkeeps _ (serving (ensures_bind P.requestCloseAllocation fun _ _ ↦
        ensures_pure trivial))
  | createJob => exact hkeeps _ (serving (P.allows.write trivial trivial (by simp)))
  | cancelJob jobId => exact hkeeps _ (serving (P.cancelJob jobId))
  | pool call env =>
      exact hkeeps _ (serving (ensures_bind (P.pool noLocks call env) fun _ _ ↦
        ensures_pure trivial))
  | poolRuntime => exact hkeeps _ (serving P.poolRuntime)
  | elapse seconds => exact hkeeps _ (P.allows.write trivial trivial (by simp))

theorem governs (hreboot : ∀ s, D.inv s → D.inv s.reboot)
    (hexternal : ∀ c s, Call.external c = true → D.pre c s) : D.Governs (system site) where
  toCoherent := P.coherent
  reboot := hreboot
  external c s hc _ := hexternal c s hc
  call c s _ hpre := P.call c s hpre

omit P

/-- A discipline that permits every footprint but those of claims, and that asks nothing of a
thread to start. -/
theorem of_reserve (hD : D.Coherent) (hpre : ∀ c s, D.pre c s)
    (h : ∀ kinds, Kind.claim ∉ kinds → Allows D site kinds)
    (hreserve : ∀ held taskId allocationId,
      D.Keeps held (reserveTaskOnAllocation site taskId allocationId)) : Pieces D site := by
  have hlicense : ∀ held task e, D.Keeps held (licenseEvent site task e) :=
    fun _ _ _ ↦ licenseEvent_keeps (h _ (by decide))
  have hcapacity : ∀ held id, D.Keeps held (recalculateAllocationCapacity id) :=
    fun _ _ ↦ recalculateAllocationCapacity_keeps (h _ (by decide))
  have hclose : ∀ held id reason force owner,
      D.Keeps held (closeAllocation site id reason force owner) :=
    fun _ _ _ _ _ ↦ closeAllocation_keeps (h _ (by decide))
  have hfinalize : ∀ held (task : Task), task.AttemptFoundIn D.inv →
      D.Keeps held (finalizeTimedOutTask site task) :=
    fun _ _ hfound ↦ finalizeTimedOutTask_keeps (h _ (by decide)) hlicense hclose hfound
  exact
    { coherent := hD
      respected := fun c _ s' _ _ ↦ hpre c s'
      allows := h _ (by decide)
      cancelBestEffort := fun _ ↦ hpre _
      monitor := hpre _
      capacity := hcapacity
      license := hlicense
      close := hclose
      rebalance := fun _ _ ht hfound ↦
        ensures_bind (cancelReclaimed_keeps (h _ (by decide))) fun _ _ ↦
          requeueTaskForRebalance_keeps (h _ (by decide)) hlicense ht hfound
      relieve := fun _ _ ht hfound ↦
        ensures_bind (cancelReclaimed_keeps (h _ (by decide))) fun _ _ ↦
          requeuePressureKilledTask_keeps (h _ (by decide)) hlicense ht hfound
      schedule := fun held task _ hfound ↦ scheduleTimedOutTaskCancellation_keeps
        (h _ (by decide)) (fun _ ↦ hpre _) (hfinalize held task hfound.attempt) hfound
      drain := fun _ ↦ drainTimedOutTaskCancellations_keeps (h _ (by decide)) hfinalize
      strict := fun _ _ ↦ retryStrictNodeCancellation_keeps (h _ (by decide)) hlicense hcapacity
      reserve := fun _ _ _ s ↦ wp_mono (hreserve _ _ _ s)
        fun _ _ s' hp ↦ ⟨hp.1, fun _ _ _ ↦ hpre _ s'⟩
      finish := fun _ _ _ s _ ↦ wp_mono (finishReservedTaskAttach_keeps (h _ (by decide)) hlicense hcapacity
        (fun _ _ _ ↦ rejectLaunched_keeps (h _ (by decide)) hlicense) s) fun _ _ _ hp ↦ hp.1
      submit := fun _ _ ↦ submitReservedAllocationRecords_keeps (h _ (by decide)) fun _ ↦ hpre _
      recover := fun _ ↦ recoverAllocationSubmissionClaims_keeps (h _ (by decide))
      reconcile := fun _ ↦ reconcileSlurmState_keeps (h _ (by decide))
      jobs := fun _ ↦ refreshSubmittedJobs_keeps (h _ (by decide))
      submitJob := fun _ ↦ submitNextQueuedJob_keeps (h _ (by decide))
      pool := fun _ _ _ ↦ poolCall_keeps (h _ (by decide))
      start := start_keeps (h _ (by decide)) hlicense hclose
      cancelTimedOut := fun _ s _ ↦ wp_mono (cancelTimedOutTaskRemote_keeps (h _ (by decide)) s)
        fun _ _ _ _ ↦ trivial
      submitAccount := fun _ s _ ↦ wp_mono (submitAccountWorker_keeps (h _ (by decide)) s)
        fun _ _ _ _ ↦ trivial
      refreshLicense := refreshLicenseUsage_keeps (h _ (by decide))
      cancelJob := fun _ ↦ cancelJob_keeps (h _ (by decide)) }

/-- A discipline that permits every footprint, and that asks nothing of a thread to start. -/
theorem of_allows (hD : D.Coherent) (hpre : ∀ c s, D.pre c s)
    (h : ∀ kinds, Allows D site kinds) : Pieces D site :=
  of_reserve hD hpre (fun kinds _ ↦ h kinds) fun _ _ _ ↦
    reserveTaskOnAllocation_keeps (h _) fun _ _ ↦ recalculateAllocationCapacity_keeps (h _)

end Pieces

def plainRules (site : Site) (C : State → Write → Prop) : Rules where
  inv _ := True
  cond := C
  may held _ w := Footprint site held w
  rely _ _ _ := True
  pre _ _ := True

theorem plainRules_governs (site : Site) (C : State → Write → Prop) :
    (plainRules site C).Governs (system site) :=
  have hcoherent : (plainRules site C).Coherent :=
    ⟨fun _ _ ↦ trivial, fun _ _ _ _ _ _ ↦ trivial, fun _ _ _ _ _ _ ↦ trivial,
      fun _ _ _ _ _ _ _ _ ↦ trivial, fun _ _ _ _ _ _ ↦ trivial⟩
  (Pieces.of_allows hcoherent (fun _ _ ↦ trivial) fun _ ↦
    ⟨fun _ _ _ _ _ _ ↦ trivial, fun _ _ _ _ hf _ _ ↦ hf⟩).governs
      (fun _ _ ↦ trivial) fun _ _ _ ↦ trivial

theorem system_founded (site : Site) :
    (system site).Founded fun found _ _ w ↦ Grounds site found w := by
  intro R call s _
  have hcoherent : (founded (fun found _ _ w ↦ Grounds site found w) R : Rules).Coherent :=
    ⟨fun _ _ ↦ trivial, fun _ _ _ _ _ _ ↦ trivial, fun _ _ _ _ _ _ ↦ trivial,
      fun _ _ _ _ _ _ _ _ ↦ trivial, fun _ _ _ _ _ h ↦ h⟩
  exact (Pieces.of_allows hcoherent (fun _ _ ↦ trivial) fun _ ↦
    ⟨fun _ _ _ _ _ h ↦ h, fun _ _ _ _ _ hg _ ↦ hg⟩).call call s trivial

section Decisions

variable {site : Site} {s : State} {ms : List (Move Call Question Question.Answer)}
  {d : Decision State Write Lock}

theorem decisions_leadTo (hd : d ∈ (system site).decisions (.idle s) ms) :
    ∀ x ∈ d.looks, x.LeadsTo d.before :=
  Watch.Faithful.run (S := system site) (c := .idle s) (fun _ ↦ List.forall_mem_nil _) ms d hd

theorem decisions_footprint (hd : d ∈ (system site).decisions (.idle s) ms) :
    Footprint site d.held d.write :=
  ((plainRules_governs site fun _ _ ↦ True).run (.idle trivial) ms fun _ _ ↦ trivial).1
    d.toEvent (System.mem_trace hd) |>.2

theorem decisions_grounds (hd : d ∈ (system site).decisions (.idle s) ms) :
    Grounds site d.Seen d.write :=
  Watch.Founded.all (system_founded site) (.idle s) ms d hd

end Decisions

end SlurmScheduler.Dispatch
