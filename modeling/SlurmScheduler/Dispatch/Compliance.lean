import SlurmScheduler.Dispatch.Keeping

namespace SlurmScheduler.Dispatch

open Relational Concurrent Proc Discipline
open Pool (Time TaskStatus AllocationStatus)

variable {D : Rules} {site : Site} {held : Lock → Bool}

theorem fanOutByAccount_keeps {α β : Type} {items : List (String × α)}
    {probe : String → α → Action β} (h : ∀ name a, D.Keeps held (probe name a)) :
    D.Ensures held (fanOutByAccount items probe) fun outcomes ↦
      ∀ o ∈ outcomes, (o.1, o.2.1) ∈ items := by
  refine ensures_fold (List.forall_mem_nil _) fun item hitem outcomes houtcomes ↦ ?_
  refine ensures_bind (h _ _) fun outcome _ ↦ ensures_pure ?_
  refine List.forall_mem_append.mpr ⟨houtcomes, ?_⟩
  rw [List.forall_mem_singleton]
  exact hitem

theorem mem_of_byAccount {α : Type} {accountName : α → String} {rows group : List α}
    {name : String} (h : (name, group) ∈ byAccount accountName rows) {r : α} (hr : r ∈ group) :
    r ∈ rows := by
  obtain ⟨key, -, heq⟩ := List.mem_map.mp h
  rw [← (Prod.mk.inj heq).2] at hr
  exact List.mem_of_mem_filter hr

theorem updateAllocationIfSubmissionClaim_keeps (h : Allows D site [.submission]) {id : ℕ}
    {phase : String} {c : AllocationChange} (hc : c.ofSubmission = true) :
    D.Keeps held (updateAllocationIfSubmissionClaim id phase c) :=
  keeps_transact_single fun s hs ↦ h.may held s _ hs hc trivial (by simp)

theorem submitAccount_keeps (h : Allows D site [.submission]) {allocations : List Allocation} :
    D.Keeps held (submitAccount allocations) := by
  refine ensures_bind keeps_query fun raised _ ↦ ensures_ite (fun _ ↦ ?_) fun _ ↦ ?_
  · exact ensures_bind keeps_query fun e _ ↦ ensures_pure trivial
  · refine ensures_fold trivial fun allocation _ outcomes _ ↦
      ensures_bind (S := fun _ ↦ True) ?_ fun _ _ ↦ ensures_pure trivial
    refine ensures_bind (h.write trivial trivial (by simp)) fun _ _ ↦
      ensures_bind keeps_query fun outcome _ ↦ ?_
    split
    · exact ensures_bind (h.write trivial trivial (by simp)) fun _ _ ↦ ensures_pure trivial
    · exact ensures_pure trivial

theorem submitAccountWorker_keeps (h : Allows D site [.submission])
    {allocations : List Allocation} : D.Keeps held (submitAccountWorker allocations) :=
  ensures_bind (submitAccount_keeps h) fun _ _ ↦ h.write trivial trivial (by simp)

theorem submitReservedAllocationRecords_keeps (h : Allows D site [.submission])
    (hpre : ∀ rows s, D.pre (.submitAccount rows) s) {allocations : List Allocation} :
    D.Keeps held (submitReservedAllocationRecords site allocations) := by
  refine ensures_bind (S := fun _ ↦ True) ?_ fun plan _ ↦
    ensures_bind (S := fun _ ↦ True) ?_ fun outcomes _ ↦ keeps_forEach fun row _ ↦ ?_
  · refine ensures_fold trivial fun allocation _ plan _ ↦
      ensures_ite (fun _ ↦ ensures_pure trivial) fun _ ↦
        ensures_bind (updateAllocationIfSubmissionClaim_keeps h rfl) fun claimed _ ↦
          ensures_ite (fun _ ↦ ensures_pure trivial) fun _ ↦ ensures_read fun s _ ↦ ?_
    cases s.allocation? allocation.id with
    | none => exact ensures_pure trivial
    | some current => exact ensures_pure trivial
  · unfold submitByAccount
    split
    · exact ensures_pure trivial
    · exact submitAccount_keeps h
    · refine ensures_bind (keeps_forEach fun account _ ↦ keeps_spawn fun s _ ↦ hpre _ s)
        fun _ _ ↦ ensures_fold trivial fun account _ outcomes _ ↦ ?_
      exact ensures_read fun s _ ↦ ensures_pure trivial
  · have hclaim : ∀ phase (c : AllocationChange), c.ofSubmission = true →
        D.Keeps held (do
          let _ ← updateAllocationIfSubmissionClaim row.1.id phase c : Action Unit) :=
      fun phase c hc ↦ ensures_bind (updateAllocationIfSubmissionClaim_keeps h hc) fun _ _ ↦
        ensures_pure trivial
    unfold settleSubmission
    dsimp only
    split
    · exact ensures_pure trivial
    · exact hclaim _ _ rfl
    · exact hclaim _ _ rfl
    · split
      · exact hclaim _ _ rfl
      · exact hclaim _ _ rfl
      · exact hclaim _ _ rfl
      · refine ensures_bind (updateAllocationIfSubmissionClaim_keeps h rfl) fun acknowledged _ ↦
          ensures_ite (fun _ ↦ ensures_pure trivial) fun _ ↦ keeps_when fun _ ↦
            ensures_bind keeps_query fun answer _ ↦ ?_
        cases answer with
        | none => exact h.write trivial trivial (by simp)
        | some e => exact ensures_pure trivial

theorem createReserved_keeps (h : Allows D site [.create]) {shape : Allocation} {reason : String} :
    D.Keeps held (createReserved shape reason) :=
  ensures_bind (keeps_transact_single fun s hs ↦ h.may held s _ hs rfl trivial (by simp)) fun _ _ ↦
    keeps_read

theorem openAllocationRecord_keeps (h : Allows D site [.create])
    (hsubmit : ∀ held rows, D.Keeps held (submitReservedAllocationRecords site rows))
    {reason : String} : D.Keeps held (openAllocationRecord site reason) := by
  refine ensures_bind keeps_query fun chosen _ ↦ ensures_ite (fun _ ↦ ensures_pure trivial)
    fun _ ↦ ensures_bind keeps_query fun shape _ ↦
      ensures_bind (createReserved_keeps h) fun allocation _ ↦ ?_
  cases allocation with
  | none => exact ensures_pure trivial
  | some a => exact hsubmit held [a]

theorem openPlannedAllocations_keeps (h : Allows D site [.create])
    (hsubmit : ∀ held rows, D.Keeps held (submitReservedAllocationRecords site rows)) :
    D.Keeps held (openPlannedAllocations site) := by
  refine ensures_bind keeps_query fun rows _ ↦
    ensures_bind (S := fun _ ↦ True) ?_ fun reserved _ ↦ hsubmit held _
  refine ensures_fold trivial fun _ _ reserved _ ↦ ensures_bind keeps_query fun reason _ ↦
    ensures_bind keeps_query fun shape _ ↦ ?_
  exact ensures_bind (createReserved_keeps h) fun _ _ ↦ ensures_pure trivial

theorem recoverAllocationSubmissionClaims_keeps (h : Allows D site [.submission, .refresh]) :
    D.Keeps held (recoverAllocationSubmissionClaims site) := by
  refine ensures_read fun s hs ↦ keeps_forEach fun allocation hmem ↦ ?_
  obtain ⟨hrow, hclaimed⟩ := List.mem_filter.mp ((List.perm_insertionSort _ _).mem_iff.mp hmem)
  have hfound : allocation.FoundIn D.inv (phaseOf allocation.state) :=
    .of_mem hs (mem_listAllocationsWithLive hrow)
  have hpending : allocation.state = .pending := by
    simp only [Allocation.claimed, Bool.and_eq_true, beq_iff_eq] at hclaimed
    exact hclaimed.1.1
  have hsubmission : Allows D site [.submission] := h.mono (by simp)
  have hclaim : ∀ phase (c : AllocationChange), c.ofSubmission = true →
      D.Keeps held (do
        let _ ← updateAllocationIfSubmissionClaim allocation.id phase c : Action Unit) :=
    fun phase c hc ↦ ensures_bind (updateAllocationIfSubmissionClaim_keeps hsubmission hc)
      fun _ _ ↦ ensures_pure trivial
  have hwrite : ∀ message, D.Keeps held
      (write (.updateAllocation allocation (.recoveryHeld message)) : Action Unit) := fun _ ↦
    h.updateAllocation (List.mem_singleton.mpr hpending) rfl rfl hfound (by simp)
  have hhold : ∀ message, D.Keeps held (holdRecovery allocation message) :=
    fun message ↦ keeps_when fun _ ↦ hwrite message
  have hgrace : D.Keeps held (abandonAfterGrace allocation) :=
    ensures_read fun s _ ↦ ensures_ite (fun _ ↦ hclaim _ _ rfl) fun _ ↦ hwrite _
  refine ensures_ite (fun _ ↦ hclaim _ _ rfl) fun _ ↦
    ensures_bind (S := fun _ ↦ True) (ensures_ite (fun _ ↦ ensures_pure trivial) fun _ ↦
      keeps_query) fun found _ ↦ ?_
  match found with
  | .error e => exact hhold _
  | .ok (a :: b :: rest) => exact hhold _
  | .ok [slurmJobId] => exact ensures_ite (fun _ ↦ hclaim _ _ rfl) fun _ ↦ hgrace
  | .ok [] => exact hgrace

theorem reconcileSlurmState_keeps (h : Allows D site [.orphan]) :
    D.Keeps held (reconcileSlurmState site) := by
  refine ensures_read fun s _ ↦ keeps_forEach fun accountName _ ↦
    ensures_bind keeps_query fun jobs _ ↦ ?_
  cases jobs with
  | error e => exact ensures_pure trivial
  | ok jobs =>
      refine keeps_forEach fun job _ ↦ ensures_bind (h.write trivial trivial (by simp)) fun _ _ ↦ ?_
      exact ensures_bind keeps_query fun _ _ ↦ ensures_pure trivial

theorem submitNextQueuedJob_keeps (h : Allows D site [.job]) :
    D.Keeps held submitNextQueuedJob := by
  refine ensures_bind keeps_query fun next _ ↦ ensures_read fun s _ ↦
    ensures_bind keeps_query fun ready _ ↦ ?_
  split
  · exact ensures_pure trivial
  · refine ensures_ite (fun _ ↦ ensures_pure trivial) fun _ ↦ ensures_bind keeps_query
      fun accountName _ ↦ ensures_bind (h.write trivial trivial (by simp)) fun _ _ ↦
        ensures_bind (h.write trivial trivial (by simp)) fun _ _ ↦ ensures_bind keeps_query
          fun answer _ ↦ ?_
    cases answer with
    | error e => exact h.write trivial trivial (by simp)
    | ok slurmJobId => exact h.write trivial trivial (by simp)

theorem refreshSubmittedJobs_keeps (h : Allows D site [.job]) :
    D.Keeps held (refreshSubmittedJobs site) := by
  refine ensures_read fun s _ ↦
    ensures_bind (fanOutByAccount_keeps fun _ _ ↦ keeps_query) fun outcomes _ ↦
      keeps_forEach fun outcome _ ↦ ?_
  obtain ⟨name, rows, states⟩ := outcome
  cases states with
  | error e => exact ensures_pure trivial
  | ok states =>
      refine keeps_forEach fun job _ ↦ ?_
      split
      · exact ensures_pure trivial
      · exact h.write trivial trivial (by simp)

theorem cancelJob_keeps (h : Allows D site [.job]) {jobId : ℕ} :
    D.Keeps held (cancelJob site jobId) := by
  refine ensures_read fun s _ ↦ ?_
  cases s.job? jobId with
  | none => exact ensures_pure trivial
  | some job =>
      refine ensures_ite (fun _ ↦ h.write trivial trivial (by simp)) fun _ ↦
        ensures_ite (fun _ ↦ ensures_pure trivial) fun _ ↦ ensures_bind keeps_query fun answer _ ↦ ?_
      cases answer with
      | none => exact h.write trivial trivial (by simp)
      | some e => exact ensures_pure trivial

theorem recoverSubmittingJobs_keeps (h : Allows D site [.job]) :
    D.Keeps held recoverSubmittingJobs :=
  ensures_read fun s _ ↦ keeps_forEach fun job _ ↦ h.write trivial trivial (by simp)

theorem recoverAttachingTasks_keeps (h : Allows D site [.recovered])
    (hlicense : ∀ held task e, D.Keeps held (licenseEvent site task e)) :
    D.Keeps held (recoverAttachingTasks site) := by
  refine ensures_read fun s _ ↦ keeps_forEach fun task _ ↦
    ensures_bind (updateTaskIfAttachClaim_keeps h rfl (by simp)) fun recovered _ ↦ ?_
  exact ensures_ite (fun _ ↦ hlicense held task _) fun _ ↦ ensures_pure trivial

theorem reconstructLicenseAdmissionClaims_keeps (h : Allows D site [.license]) :
    D.Keeps held (reconstructLicenseAdmissionClaims site) := by
  refine keeps_when fun _ ↦ ensures_read fun s _ ↦ ensures_locked fun _ ↦
    keeps_forEach fun task _ ↦ ?_
  unfold reconstructLicenseClaim
  split
  · refine keeps_transact (h.keep _) fun s _ w hw s' hs' ↦ ?_
    dsimp only at hw
    split at hw
    · cases hw
    · rw [List.mem_singleton.mp hw]
      exact h.may _ s' _ hs' (Function.update_self ..) trivial (by simp)
  · exact ensures_pure trivial

theorem start_keeps
    (h : Allows D site [.job, .recovered, .submission, .refresh, .license, .process])
    (hlicense : ∀ held task e, D.Keeps held (licenseEvent site task e))
    (hclose : ∀ held id reason force owner,
      D.Keeps held (closeAllocation site id reason force owner)) :
    D.Keeps held (start site) := by
  have hreconstruct : ∀ held, D.Keeps held (reconstructLicenseAdmissionClaims site) := fun _ ↦
    reconstructLicenseAdmissionClaims_keeps (h.mono (by simp))
  have hcloses : ∀ held, D.Keeps held (closeUnneededAllocations site) := fun held ↦
    ensures_bind keeps_query fun _ _ ↦ keeps_forEach fun _ _ ↦ ensures_bind keeps_query fun _ _ ↦
      ensures_bind (hclose held _ _ _ _) fun _ _ ↦ ensures_pure trivial
  refine ensures_locked fun _ ↦ ensures_read fun s _ ↦ ensures_ite (fun _ ↦ ensures_pure trivial)
    fun _ ↦ ensures_bind (hreconstruct _) fun _ _ ↦ ensures_bind (S := fun _ ↦ True) ?_ fun _ _ ↦
      ensures_bind (hcloses _) fun _ _ ↦ h.write trivial trivial (by simp)
  exact ensures_bind (recoverSubmittingJobs_keeps (h.mono (by simp))) fun _ _ ↦
    ensures_bind (recoverAttachingTasks_keeps (h.mono (by simp)) hlicense) fun _ _ ↦
      ensures_bind (recoverAllocationSubmissionClaims_keeps (h.mono (by simp))) fun _ _ ↦
        hreconstruct _

theorem refreshLicenseUsage_keeps (h : Allows D site [.snapshot]) :
    D.Keeps held (refreshLicenseUsage site) := by
  have hset : ∀ usage, D.Keeps held (setLicenseUsage usage) := fun usage ↦
    ensures_locked fun _ ↦ h.write (Function.update_self ..) trivial (by simp)
  have hkeep : D.Keeps held keepLicenseUsage := by
    refine ensures_locked fun _ ↦ keeps_transact (h.keep _) fun s _ w hw s' hs' ↦ ?_
    split at hw
    · split at hw
      · cases hw
      · rw [List.mem_singleton.mp hw]
        exact h.may _ s' _ hs' (Function.update_self ..) trivial (by simp)
    · cases hw
  refine ensures_read fun s _ ↦ ensures_bind keeps_query fun reply _ ↦ ?_
  cases reply with
  | error e => exact hset _
  | ok reply =>
      have hrest : ∀ (usage : LicenseUsage) (kept : Bool), D.Keeps held
          (if kept then pure () else
            if usage.serverUp && !usage.features.isEmpty && usage.error == "" then
              locked .assignment
                (write (.publishLicenseSnapshot usage site.license.settlementSeconds))
            else setLicenseUsage usage : Action Unit) := by
        refine fun usage kept ↦ ensures_ite (fun _ ↦ ensures_pure trivial) fun _ ↦
          ensures_ite (fun _ ↦ ensures_locked fun _ ↦ ?_) fun _ ↦ hset _
        exact h.write (Function.update_self ..) trivial (by simp)
      exact ensures_ite (fun _ ↦ ensures_bind hkeep fun kept _ ↦ hrest _ kept)
        fun _ ↦ hrest _ false

theorem poolCall_keeps (h : Allows D site [.pool]) {call : Pool.Call} {env : Pool.Env} :
    D.Keeps held (poolCall site call env) := by
  refine ensures_fold trivial fun i _ ok _ ↦ ensures_ite (fun _ ↦ ?_) fun _ ↦ ensures_pure trivial
  refine keeps_transact (h.keep _) fun s _ w hw s' hs' ↦ ?_
  split at hw
  · cases hw
  · split at hw
    · obtain ⟨v, -, rfl⟩ := List.mem_map.mp hw
      exact h.may _ s' _ hs' trivial trivial (by simp)
    · cases hw

end SlurmScheduler.Dispatch
