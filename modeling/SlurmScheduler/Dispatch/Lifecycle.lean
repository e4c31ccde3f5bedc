import SlurmScheduler.Dispatch.Pieces

namespace SlurmScheduler.Dispatch

open Relational Concurrent Statement
open Pool (AllocationStatus)

def endedStates : List AllocationStatus := [.closed, .failed]

def AllocationChange.keepsOpen : AllocationChange → Bool
  | jobStarted .. | ageLimit | claimed | closing _ | cancelFailed .. => true
  | _ => false

/-- No write has moved the allocation to another phase since the thread last saw it in the one that
its write is decided on. -/
def PhaseStands (d : Decision State Write Lock) : Write → Prop
  | .updateAllocation seen c => c.keepsOpen = true →
      d.Undisturbed (·.phase? seen.id) (·.all (· == c.basis seen))
  | .updateAllocationCapacity seen _ =>
      d.Undisturbed (·.phase? seen.id) (·.all (· == phaseOf seen.state))
  | _ => True

instance (d : Decision State Write Lock) (w : Write) : Decidable (PhaseStands d w) := by
  induction w using Write.casesOn <;> (unfold PhaseStands; infer_instance)

/-- What a write may do to the state of one allocation. -/
structure LifecycleStep (w : Write) (a a' : Allocation) : Prop where
  ended : a.state ∈ endedStates → a'.state ∈ endedStates
  closing : a.state = .closing → a'.state = .warm ∨ a'.state = .active →
    ∃ seen message, w = .updateAllocation seen (.cancelFailed a'.state message)
  draining : a.state = .draining → a'.state = .warm ∨ a'.state = .active →
    ∀ seen stats, w ≠ .updateAllocationCapacity seen stats

theorem LifecycleStep.of_eq {w : Write} {a a' : Allocation} (h : a'.state = a.state) :
    LifecycleStep w a a' where
  ended ha := h ▸ ha
  closing ha ha' := by simp [h, ha] at ha'
  draining ha ha' := by simp [h, ha] at ha'

theorem LifecycleStep.of_ended {w : Write} {a a' : Allocation} (h : a'.state ∈ endedStates) :
    LifecycleStep w a a' where
  ended _ := h
  closing _ ha' := by rcases ha' with ha' | ha' <;> simp [ha', endedStates] at h
  draining _ ha' := by rcases ha' with ha' | ha' <;> simp [ha', endedStates] at h

theorem phaseOf_of_inPhase {s : State} {a : Allocation} {id : ℕ} {phase : Phase}
    (ha : a ∈ s.allocations) (hid : a.id = id) (h : s.inPhase id phase = true) :
    phaseOf a.state = phase := by
  subst hid
  simpa [State.inPhase, State.phase?, allocation?_of_mem ha] using h

theorem mem_endedStates {state : AllocationStatus} :
    state ∈ endedStates ↔ phaseOf state = .ended := by
  cases state <;> simp [endedStates, phaseOf]

theorem phaseOf_serving {state : AllocationStatus} (h : phaseOf state = .serving) :
    state ≠ .closing ∧ state ≠ .draining := by
  cases state <;> simp_all [phaseOf]

/-- The writes of `close_allocation`, of the refresh and of the age limit. -/
theorem lifecycleStep_key {site : Site} {held : Lock → Bool} {s : State} {a seen : Allocation}
    {c : AllocationChange} (ha : a ∈ s.allocations) (hid : a.id = seen.id)
    (hfoot : Footprint site held (.updateAllocation seen c))
    (hstands : c.keepsOpen = true → s.inPhase seen.id (c.basis seen) = true) :
    LifecycleStep (.updateAllocation seen c) a (c.stamp s.clock a) := by
  obtain ⟨hseen, -, hsub, -⟩ := hfoot
  have hphase : c.keepsOpen = true → phaseOf a.state = c.basis seen :=
    fun hopen ↦ phaseOf_of_inPhase ha hid (hstands hopen)
  have hother : ∀ seen' stats, Write.updateAllocation seen c ≠
      .updateAllocationCapacity seen' stats := fun _ _ h ↦ by cases h
  have hended : phaseOf a.state ≠ .ended → a.state ∉ endedStates :=
    fun hne h ↦ hne (mem_endedStates.mp h)
  cases c with
  | jobMissing | vanished | jobEnded | closed => exact .of_ended (List.mem_cons_self ..)
  | jobFailed => exact .of_ended (List.mem_cons_of_mem _ (List.mem_cons_self ..))
  | nodeKnown node => exact .of_eq rfl
  | pendingBecause reason => exact .of_eq rfl
  | probeFailed message => exact .of_eq rfl
  | recoveryHeld message => exact .of_eq rfl
  | jobStarted partition node =>
      have hpending : phaseOf a.state = .pending := by
        rw [show phaseOf a.state = phaseOf seen.state from hphase rfl, List.mem_singleton.mp hseen]
        rfl
      refine ⟨fun h ↦ absurd h (hended (by simp [hpending])), fun h _ ↦ ?_, fun _ _ ↦ hother⟩
      rw [h] at hpending
      cases hpending
  | claimed =>
      have hserving : phaseOf a.state = .serving := by
        rw [show phaseOf a.state = phaseOf seen.state from hphase rfl, List.mem_singleton.mp hseen]
        rfl
      refine ⟨fun h ↦ absurd h (hended (by simp [hserving])), fun h _ ↦ ?_, fun _ _ ↦ hother⟩
      exact absurd h (phaseOf_serving hserving).1
  | ageLimit =>
      have hserving : phaseOf a.state = .serving := by
        rw [show phaseOf a.state = phaseOf seen.state from hphase rfl]
        rcases List.mem_pair.mp hseen with h | h <;> rw [h] <;> rfl
      refine ⟨fun h ↦ absurd h (hended (by simp [hserving])), fun _ h ↦ ?_, fun _ _ ↦ hother⟩
      rcases h with h | h <;> cases h
  | closing reason =>
      have hopen : phaseOf a.state ≠ .ended := by
        rw [show phaseOf a.state = phaseOf seen.state from hphase rfl]
        simp only [AllocationChange.expects, openStates, List.mem_cons, List.not_mem_nil] at hseen
        rcases hseen with h | h | h | h | h
        · simp [h, phaseOf]
        · simp [h, phaseOf]
        · simp [h, phaseOf]
        · simp [h, phaseOf]
        · exact h.elim
      refine ⟨fun h ↦ absurd h (hended hopen), fun _ h ↦ ?_, fun _ _ ↦ hother⟩
      rcases h with h | h <;> cases h
  | cancelFailed previous message =>
      have hclosing : phaseOf a.state = .closing := hphase rfl
      exact ⟨fun h ↦ absurd h (hended (by simp [hclosing])), fun _ _ ↦ ⟨seen, message, rfl⟩,
        fun _ _ ↦ hother⟩
  | submissionStarted => cases hsub
  | submissionLost message => cases hsub
  | submissionFailed message => cases hsub
  | acknowledged slurmJobId => cases hsub
  | adopted slurmJobId => cases hsub
  | abandoned message => cases hsub

/-- A capacity row leaves a draining row as it is and makes any other warm or active. -/
theorem lifecycleStep_capacity {s : State} {a seen : Allocation} {stats : Reserved}
    (hserving : seen.state ∈ servingStates) (hphase : phaseOf a.state = phaseOf seen.state) :
    LifecycleStep (.updateAllocationCapacity seen stats) a
      ((capacityRow seen stats).stamp s.clock a) := by
  by_cases hseen : seen.state = .draining
  · have hstate : ((capacityRow seen stats).stamp s.clock a).state = .draining := by
      simp [CapacityRow.stamp, capacityRow, hseen]
    rw [hseen] at hphase
    refine ⟨fun h ↦ ?_, fun _ h ↦ ?_, fun _ h ↦ ?_⟩
    · rw [mem_endedStates.mp h] at hphase
      cases hphase
    · rcases h with h | h <;> rw [hstate] at h <;> cases h
    · rcases h with h | h <;> rw [hstate] at h <;> cases h
  · have hopen : phaseOf seen.state = .serving := by
      revert hserving hseen
      cases seen.state <;> simp [servingStates, phaseOf]
    rw [hopen] at hphase
    refine ⟨fun h ↦ ?_, fun h _ ↦ absurd h (phaseOf_serving hphase).1,
      fun h _ ↦ absurd h (phaseOf_serving hphase).2⟩
    rw [mem_endedStates.mp h] at hphase
    cases hphase

/-- A write whose allocation is in the phase that it was decided on. -/
theorem lifecycleStep {site : Site} {held : Lock → Bool} {d : Decision State Write Lock}
    {a a' : Allocation} (hlooks : ∀ x ∈ d.looks, x.LeadsTo d.before)
    (hfoot : Footprint site held d.write) (hgrounds : Grounds site d.Seen d.write)
    (hstands : PhaseStands d d.write) (ha : a ∈ d.before.allocations)
    (hstep : AllocationStep d.before a a' d.write) : LifecycleStep d.write a a' := by
  obtain ⟨⟨⟨⟨s, w⟩, held'⟩, looks⟩, rfl⟩ : ∃ d', d = d' := ⟨d, rfl⟩
  dsimp only at hlooks hfoot hgrounds hstands ha hstep ⊢
  cases hstep with
  | same _ h => exact .of_eq (by rw [h])
  | key seen c hid h =>
      exact h ▸ lifecycleStep_key ha hid hfoot fun hopen ↦ (hstands hopen).still hlooks hgrounds
  | claim id phase c hclaim h =>
      have hpending : a.state = .pending := by
        simp only [Allocation.submissionClaim, Bool.and_eq_true, beq_iff_eq] at hclaim
        exact hclaim.1.1.2
      refine ⟨fun h ↦ ?_, fun h ↦ ?_, fun h ↦ ?_⟩ <;> rw [hpending] at h <;> simp [endedStates] at h
  | capacity seen stats hid h =>
      have hundisturbed : Decision.Undisturbed
          ⟨⟨⟨s, .updateAllocationCapacity seen stats⟩, held'⟩, looks⟩
          (fun t : State ↦ t.phase? seen.id) (·.all (· == phaseOf seen.state)) := hstands
      exact h ▸ lifecycleStep_capacity hfoot
        (phaseOf_of_inPhase ha hid (hundisturbed.still hlooks hgrounds))
  | pool w b hmoved h =>
      have hstate : a'.state = b.state := by rw [h]
      rcases hmoved.state with hsame | ⟨hdrainable, hdraining⟩ | ⟨hdraining, hactive⟩
      · exact .of_eq (hstate.trans hsame)
      · refine ⟨fun hended ↦ ?_, fun _ ha' ↦ ?_, fun _ _ seen stats h ↦ by cases h⟩
        · revert hdrainable hended
          cases a.state <;> simp [Pool.AllocationStatus.drainable, endedStates]
        · rw [hstate, hdraining] at ha'
          rcases ha' with ha' | ha' <;> cases ha'
      · refine ⟨fun hended ↦ ?_, fun hclosing ↦ ?_, fun _ _ seen stats h ↦ by cases h⟩
        · rw [hdraining] at hended
          simp [endedStates] at hended
        · rw [hdraining] at hclosing
          cases hclosing

/-- In every run in which no write of an allocation's state comes after another one that has moved
the row since the thread last saw it in the phase of its snapshot, an allocation that is closed or
failed stays so, and a closing or draining one is not taken back. -/
theorem allocation_lifecycle_monotone (site : Site) (s : State)
    (ms ms' : List (Move Call Question Question.Answer))
    (hstands : ∀ d ∈ (system site).decisions (.idle s) (ms ++ ms'), PhaseStands d d.write) :
    (∀ d ∈ (system site).decisions (.idle s) (ms ++ ms'), ∀ a ∈ d.before.allocations,
      ∀ a' ∈ d.after.allocations, a'.id = a.id → LifecycleStep d.write a a') ∧
    (∀ a ∈ ((system site).after { state := s } ms).state.allocations, a.state ∈ endedStates →
      ∀ a' ∈ ((system site).after { state := s } (ms ++ ms')).state.allocations, a'.id = a.id →
        a'.state ∈ endedStates) := by
  have hstep : ∀ d ∈ (system site).decisions (.idle s) (ms ++ ms'), ∀ a ∈ d.before.allocations,
      ∀ a', AllocationStep d.before a a' d.write → LifecycleStep d.write a a' := by
    intro d hd a ha a' hstep
    exact lifecycleStep (decisions_leadTo hd) (decisions_footprint hd) (decisions_grounds hd)
      (hstands d hd) ha hstep
  constructor
  · exact fun d hd a ha a' ha' hid ↦ hstep d hd a ha a' (allocationStep_of_mem ha ha' hid)
  · intro a ha hended a' ha' hid
    have hkept : ∀ d ∈ (system site).decisions (.idle s) (ms ++ ms'),
        (∃ b ∈ d.before.allocations, b.id = a.id ∧ b.state ∈ endedStates) →
          ∃ b ∈ d.after.allocations, b.id = a.id ∧ b.state ∈ endedStates := by
      intro d hd hbefore
      obtain ⟨b, hb, hbid, hbended⟩ := hbefore
      obtain ⟨b', hrow, hb'⟩ := exists_allocationStep d.write hb
      exact ⟨b', (mem_of_allocation? hrow).1, hb'.id_eq.trans hbid,
        (hstep d hd b hb b' hb').ended hbended⟩
    obtain ⟨b, hb, hbid, hbended⟩ := System.decisions_stay (S := system site)
      (P := fun t : State ↦ ∃ b ∈ t.allocations, b.id = a.id ∧ b.state ∈ endedStates)
      (fun _ ht ↦ ht) hkept ⟨a, ha, rfl, hended⟩
    rwa [Table.eq_of_key_eq ha' hb (hid.trans hbid.symm)]

def busyState : State where
  allocations := Table.empty.insert fun id ↦
    { id, accountName := "alpha", slurmJobId := "77", state := .warm }
  tasks := Table.empty.insert fun id ↦
    { id, status := .running, allocationId := 1, accountName := some "alpha" }
  memory := { started := true }

def lateCapacity (legs : List (ℕ × ℕ)) : List (Move Call Question Question.Answer) :=
  let calls : List (Move Call Question Question.Answer) :=
    [.call (.cancelTask 1), .call (.requestCloseAllocation 1 true true)]
  calls ++ (system sampleSite).turns sampleAnswers legs
    ((system sampleSite).after { state := busyState } calls)

/-- The allocation is closed before the cancellation of the task has read the tables. -/
theorem allocation_lifecycle_monotone_closed :
    (∀ d ∈ (system sampleSite).decisions (.idle busyState)
      (lateCapacity [(1, 20)] ++ (system sampleSite).turns sampleAnswers [(0, 20)]
        ((system sampleSite).after { state := busyState } (lateCapacity [(1, 20)]))),
      PhaseStands d d.write) ∧
    ∀ a ∈ ((system sampleSite).after { state := busyState }
      (lateCapacity [(1, 20)] ++ (system sampleSite).turns sampleAnswers [(0, 20)]
        ((system sampleSite).after { state := busyState } (lateCapacity [(1, 20)])))
      ).state.allocations, a.id = 1 → a.state ∈ endedStates := by
  have hstands : ∀ d ∈ (system sampleSite).decisions (.idle busyState)
      (lateCapacity [(1, 20)] ++ (system sampleSite).turns sampleAnswers [(0, 20)]
        ((system sampleSite).after { state := busyState } (lateCapacity [(1, 20)]))),
      PhaseStands d d.write := by
    decide
  refine ⟨hstands, ?_⟩
  intro a ha hid
  have hstays := (allocation_lifecycle_monotone sampleSite busyState _ _ hstands).2
  obtain ⟨b, hb, hbid, hended⟩ : ∃ b ∈ ((system sampleSite).after { state := busyState }
      (lateCapacity [(1, 20)])).state.allocations, b.id = 1 ∧ b.state ∈ endedStates := by
    decide
  exact hstays b hb hended a ha (hid.trans hbid.symm)

/-- The capacity row of a snapshot that another thread has closed meanwhile. -/
theorem closed_allocation_returns :
    (((system sampleSite).after { state := busyState }
      (lateCapacity [(0, 7), (1, 20)])).state.allocation? 1).map (·.state) = some .closed ∧
    (((system sampleSite).after { state := busyState }
      (lateCapacity [(0, 7), (1, 20), (0, 1)])).state.allocation? 1).map (·.state) =
        some .warm := by
  decide

end SlurmScheduler.Dispatch
