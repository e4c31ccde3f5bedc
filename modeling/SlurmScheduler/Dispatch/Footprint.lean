import SlurmScheduler.Dispatch.Program
import SlurmScheduler.Dispatch.Effects
import SlurmScheduler.Concurrent.Triples

namespace SlurmScheduler.Dispatch

open Relational Concurrent
open Pool (TaskStatus AllocationStatus)

@[simp] def TaskChange.expects : TaskChange → List TaskStatus
  | claim .. | requestFailed .. => [.queued]
  | launchStarted | attachRejected .. | attachFailed .. | attached .. => [.attaching]
  | strictHeld .. | strictRejected .. | strictRetryHeld .. | strictRetryRejected .. => [.attaching]
  | probeRunning | recovered .. => [.attaching]
  | probeCompleted .. | probeCancelled | probeFailed .. => claiming
  | timedOut .. | allocationLost .. => claiming
  | pressureFailed .. | pressureRequeued .. | rebalanced .. => [.running]
  | sameNodeFailed .. | cancelled => cancellable
  | hostFailed .. => [.queued, .attaching, .running, .completed, .failed, .cancelled]

def TaskChange.ofAttempt : TaskChange → Bool
  | launchStarted | attachRejected .. | attachFailed .. | attached .. | recovered .. => true
  | strictHeld .. | strictRejected .. | strictRetryHeld .. | strictRetryRejected .. => true
  | _ => false

def TaskChange.unguarded : TaskChange → Bool
  | probeRunning | probeCompleted .. | probeCancelled | probeFailed .. => true
  | allocationLost .. | sameNodeFailed .. | requestFailed .. | cancelled | hostFailed .. => true
  | pressureFailed .. | pressureRequeued .. | rebalanced .. => true
  | _ => false

def openStates : List AllocationStatus := [.pending, .warm, .active, .draining]

@[simp] def AllocationChange.expects : AllocationChange → List AllocationStatus
  | jobMissing | jobEnded | jobFailed | nodeKnown .. => liveStates
  | vanished => liveStates
  | jobStarted .. | pendingBecause .. | recoveryHeld .. => [.pending]
  | ageLimit => [.warm, .active]
  | claimed => [.warm]
  | probeFailed .. | closing .. | cancelFailed .. | closed => openStates
  | submissionStarted | submissionLost .. | submissionFailed .. | acknowledged .. => [.pending]
  | adopted .. | abandoned .. => [.pending]

def AllocationChange.ofClose : AllocationChange → Bool
  | claimed | probeFailed .. | closing .. | cancelFailed .. | closed => true
  | _ => false

def AllocationChange.ofSubmission : AllocationChange → Bool
  | submissionStarted | submissionLost .. | submissionFailed .. | acknowledged .. => true
  | adopted .. | abandoned .. => true
  | _ => false

def AllocationChange.restores (seen : Allocation) : AllocationChange → Prop
  | cancelFailed previous _ => previous = seen.state
  | _ => True

def Footprint (site : Site) (held : Lock → Bool) : Write → Prop
  | .updateTask seen c => seen.status ∈ c.expects ∧ c.unguarded = true
  | .updateTaskIfStatus seen expected c =>
      (∃ aid account token, c = .claim aid account token ∧ expected = [.queued] ∧
        seen.status = .queued ∧ held .assignment = true) ∨
      (∃ message, c = .timedOut message ∧ expected = claiming) ∨
      (c = .cancelled ∧ expected = [seen.status] ∧ seen.status ∈ cancellable)
  | .updateTaskIfAttachClaim seen token _ c => token = seen.attachToken ∧ c.ofAttempt = true
  | .updatePooledTaskIfReservedCapacity seen _ c =>
      (∃ aid account token, c = .claim aid account token) ∧ seen.status = .queued ∧
        held .assignment = true
  | .createAllocation columns => columns.pendingReason = submissionReserved
  | .updateAllocation seen c => seen.state ∈ c.expects ∧ c.restores seen ∧
      c.ofSubmission = false ∧ (c.ofClose = true → held .assignment = true)
  | .updateAllocationIfSubmissionClaim _ _ c => c.ofSubmission = true
  | .updateAllocationCapacity seen _ => seen.state ∈ servingStates
  | .setLicenseClaim .. | .publishLicenseSnapshot .. | .setLicenseUsage .. =>
      held .assignment = true
  | .onLicenseClaims .. => held .assignment = true ∧ site.license.enabled = true
  | .remote (.cancelAllocation ..) | .remote (.cancelRaised ..) => held .assignment = true
  | _ => True

inductive Kind
  | claim | launch | attach | strictRejected | probe | timedOut | tracking | reclaim | taskEnd
  | recovered | create | refresh | capacity | close | submission | orphan | job | pool | license
  | snapshot | process | cancelRecord
  deriving DecidableEq

@[simp] def TaskChange.kind : TaskChange → Kind
  | claim .. => .claim
  | launchStarted => .launch
  | attachRejected .. | attachFailed .. | strictHeld .. | strictRetryHeld .. | attached .. =>
      .attach
  | strictRejected .. | strictRetryRejected .. => .strictRejected
  | probeRunning | probeCompleted .. | probeCancelled | probeFailed .. => .probe
  | timedOut .. => .timedOut
  | allocationLost .. | sameNodeFailed .. | requestFailed .. | cancelled | hostFailed .. =>
      .taskEnd
  | pressureFailed .. | pressureRequeued .. | rebalanced .. => .reclaim
  | recovered .. => .recovered

@[simp] def Remote.kind : Remote → Kind
  | attachTask .. => .launch
  | cancelledTask .. | cancelTaskRaised .. => .cancelRecord
  | cancelAllocation .. | cancelRaised .. => .close
  | cancelOrphan .. => .orphan
  | submitAllocation .. | createdJob .. | reap .. => .submission
  | submitJob .. => .job

@[simp] def Write.kind : Write → Kind
  | updateTask _ c | updateTaskIfStatus _ _ c | updateTaskIfAttachClaim _ _ _ c => c.kind
  | updatePooledTaskIfReservedCapacity _ _ c => c.kind
  | createTask .. | createAllocation .. | createJob => .create
  | updateAllocation _ c => if c.ofClose then .close else .refresh
  | updateAllocationIfSubmissionClaim .. | submitted .. => .submission
  | updateAllocationCapacity .. => .capacity
  | updateJob .. => .job
  | pool .. => .pool
  | started .. | reconciled | elapse .. => .process
  | trackTimedOut .. | timedOutReturned .. | forgetTimedOut .. => .tracking
  | setLicenseClaim .. | onLicenseClaims .. => .license
  | publishLicenseSnapshot .. | setLicenseUsage .. => .snapshot
  | remote r => r.kind

namespace State

variable (s : State)

def attempt? (id : ℕ) : Option (TaskStatus × String) :=
  (s.task? id).map fun t ↦ (t.status, t.attachToken)

def attachToken? (id : ℕ) : Option String := (s.task? id).map (·.attachToken)

def timedOutTasks : List Task := s.memory.timedOutTaskCancellations.map (·.2.task)

end State

/-- Warm and active are one phase: a capacity row may take an allocation from one to the other. -/
inductive Phase
  | pending | serving | draining | closing | ended
  deriving DecidableEq

def phaseOf : AllocationStatus → Phase
  | .pending => .pending
  | .warm | .active => .serving
  | .draining => .draining
  | .closing => .closing
  | .closed | .failed => .ended

def State.phase? (s : State) (id : ℕ) : Option Phase := (s.allocation? id).map (phaseOf ·.state)

/-- The phase that the row has when the change is decided: a cancellation that fails is that of a
closing row. -/
def AllocationChange.basis (seen : Allocation) : AllocationChange → Phase
  | cancelFailed .. => .closing
  | _ => phaseOf seen.state

def Task.shown (seen : Task) (s : State) : Bool :=
  (s.attempt? seen.id).all (· == (seen.status, seen.attachToken))

def Task.tokenShown (seen : Task) (s : State) : Bool :=
  (s.attachToken? seen.id).all (· == seen.attachToken)

def State.inPhase (s : State) (id : ℕ) (phase : Phase) : Bool := (s.phase? id).all (· == phase)

section Found

variable (found : State → Prop)

def Task.FoundIn (seen : Task) : Prop := ∃ s, found s ∧ seen.shown s = true

def Task.AttemptFoundIn (seen : Task) : Prop :=
  ∃ s, found s ∧ (seen.tokenShown s = true ∨ seen ∈ s.timedOutTasks)

def Allocation.FoundIn (seen : Allocation) (phase : Phase) : Prop :=
  ∃ s, found s ∧ s.inPhase seen.id phase = true

end Found

/-- What the thread has found before it makes the write, in states that satisfy `found`. -/
def Grounds (site : Site) (found : State → Prop) : Write → Prop
  | .updateTask seen _ | .trackTimedOut seen => seen.FoundIn found
  | .updateTaskIfStatus seen _ c => c.kind ≠ .claim → seen.AttemptFoundIn found
  | .createTask columns => ∃ s, found s ∧ (s.findActiveTaskByDedupeKey columns.dedupeKey).isNone
  | .updatePooledTaskIfReservedCapacity _ claim _ => ∃ s s' s'', found s ∧ found s' ∧ found s'' ∧
      claim.heartbeatCutoff = s'.clock - site.heartbeatTimeout s ∧ claim.now = s'.clock ∧
      claim.projectCpus = site.projectCpus s''
  | .updateAllocation seen c => seen.FoundIn found (c.basis seen)
  | .updateAllocationCapacity seen _ => seen.FoundIn found (phaseOf seen.state)
  | _ => True

abbrev Rules : Type := Discipline State Write Lock Call

/-- The invariant survives the permitted writes, and the writes of these kinds are permitted. -/
structure Allows (D : Rules) (site : Site) (kinds : List Kind) : Prop where
  keep : ∀ held s w, D.inv s → D.may held s w → D.cond s w → D.inv (w.exec s)
  may : ∀ held s w, D.inv s → Footprint site held w → Grounds site D.inv w → w.kind ∈ kinds →
    D.may held s w

theorem Allows.mono {D : Rules} {site : Site} {kinds kinds' : List Kind}
    (h : Allows D site kinds) (hsub : kinds' ⊆ kinds) : Allows D site kinds' :=
  ⟨h.keep, fun held s w hs hf hg hk ↦ h.may held s w hs hf hg (hsub hk)⟩

namespace Allows

variable {D : Rules} {site : Site} {kinds : List Kind} {held : Lock → Bool}

theorem write (h : Allows D site kinds) {w : Write} (hf : Footprint site held w)
    (hg : Grounds site D.inv w) (hk : w.kind ∈ kinds) : D.Keeps held (Proc.write w : Action Unit) :=
  Discipline.keeps_write fun s hs ↦ h.may held s w hs hf hg hk

theorem updateTask (h : Allows D site kinds) {seen : Task} {c : TaskChange}
    (hseen : seen.status ∈ c.expects) (hunguarded : c.unguarded = true)
    (hfound : seen.FoundIn D.inv) (hk : c.kind ∈ kinds) :
    D.Keeps held (Proc.write (.updateTask seen c) : Action Unit) :=
  h.write ⟨hseen, hunguarded⟩ hfound hk

theorem updateAllocation (h : Allows D site kinds) {seen : Allocation} {c : AllocationChange}
    (hseen : seen.state ∈ c.expects) (hclose : c.ofClose = false) (hsub : c.ofSubmission = false)
    (hfound : seen.FoundIn D.inv (phaseOf seen.state))
    (hk : Kind.refresh ∈ kinds) :
    D.Keeps held (Proc.write (.updateAllocation seen c) : Action Unit) := by
  have hbasis : c.basis seen = phaseOf seen.state := by
    cases c <;> first | rfl | cases hclose
  refine h.write ⟨hseen, ?_, hsub, fun hc ↦ by simp [hclose] at hc⟩ ?_ ?_
  · cases c <;> trivial
  · rw [Grounds, hbasis]
    exact hfound
  · simpa [hclose] using hk

end Allows

theorem shown_of_mem {s : State} {t : Task} (h : t ∈ s.tasks) : t.shown s = true := by
  simp [Task.shown, State.attempt?, task?_of_mem h]

theorem tokenShown_of_shown {s : State} {t : Task} (h : t.shown s = true) :
    t.tokenShown s = true := by
  simp only [Task.shown, Task.tokenShown, State.attempt?, State.attachToken?] at h ⊢
  cases hrow : s.task? t.id with
  | none => rfl
  | some u =>
      simp only [hrow, Option.map_some, Option.all_some, beq_iff_eq, Prod.mk.injEq] at h ⊢
      exact h.2

theorem shown_created {s : State} {columns t : Task} (hid : t.id = s.tasks.nextKey)
    (hstatus : t.status = .queued) (htoken : t.attachToken = "") :
    t.shown (Write.exec (.createTask columns) s) = true := by
  have hmem : columns.created s.clock s.tasks.nextKey ∈ (Write.exec (.createTask columns) s).tasks :=
    (@Table.mem_insert _ _ s.tasks (columns.created s.clock) (fun _ ↦ rfl) _).mpr (.inr rfl)
  have hrow := task?_of_mem hmem
  rw [show (columns.created s.clock s.tasks.nextKey).id = t.id from hid.symm] at hrow
  simp only [Task.shown, State.attempt?, hrow, hstatus, htoken]
  rfl

theorem isNone_findActiveTask {s : State} {key : String}
    (h : ∀ t ∈ s.tasks, t.dedupeKey = key → t.status.terminal = true) :
    (s.findActiveTaskByDedupeKey key).isNone = true := by
  unfold State.findActiveTaskByDedupeKey
  split
  · rfl
  · rw [Option.isNone_iff_eq_none, List.head?_eq_none_iff, List.eq_nil_iff_forall_not_mem]
    intro t ht
    obtain ⟨hmem, hactive⟩ := Table.mem_select.mp ht
    rw [Bool.and_eq_true, beq_iff_eq] at hactive
    simp [h t hmem hactive.1] at hactive

theorem Task.FoundIn.of_mem {found : State → Prop} {s : State} {t : Task} (hs : found s)
    (h : t ∈ s.tasks) : t.FoundIn found := ⟨s, hs, shown_of_mem h⟩

theorem Task.FoundIn.attempt {found : State → Prop} {t : Task} (h : t.FoundIn found) :
    t.AttemptFoundIn found := by
  obtain ⟨s, hs, hshown⟩ := h
  exact ⟨s, hs, .inl (tokenShown_of_shown hshown)⟩

theorem inPhase_closing (s : State) (a : Allocation) (reason : String) :
    (Write.exec (.updateAllocation a (.closing reason)) s).inPhase a.id .closing = true := by
  cases hrow : s.allocation? a.id with
  | none =>
      have hnone : (Write.exec (.updateAllocation a (.closing reason)) s).allocation? a.id = none :=
        (allocation?_onAllocations a.id).trans (by rw [hrow]; rfl)
      simp [State.inPhase, State.phase?, hnone]
  | some b =>
      rw [State.inPhase, State.phase?, allocation?_updateAllocation hrow rfl]
      rfl

theorem inPhase_of_mem {s : State} {a : Allocation} (h : a ∈ s.allocations) :
    s.inPhase a.id (phaseOf a.state) = true := by
  simp [State.inPhase, State.phase?, allocation?_of_mem h]

theorem Allocation.FoundIn.of_mem {found : State → Prop} {s : State} {a : Allocation} (hs : found s)
    (h : a ∈ s.allocations) : a.FoundIn found (phaseOf a.state) := ⟨s, hs, inPhase_of_mem h⟩

end SlurmScheduler.Dispatch
