import SlurmScheduler.Demand.CodeFit

namespace SlurmScheduler.Demand

open Capacity (maxBy mem_maxBy)
open Greedy (Pass)

def Alike (rows rows' : List Copy) : Prop := rows.map Copy.certified = rows'.map Copy.certified

section Blindness

variable {fit : Fit} {rows rows' : List Copy} {a : Copy} {t task : Task}

theorem certified_apply :
    (applyInflightCapacityReservation a t).certified =
      applyInflightCapacityReservation a.certified t := by
  simp only [applyInflightCapacityReservation]
  split
  · split
    · split
      all_goals rfl
    · split
      all_goals rfl
  · split
    all_goals rfl

theorem certified_reserveOn (rows : List Copy) (reservation : Reservation) :
    (reserveOn rows reservation).map Copy.certified =
      reserveOn (rows.map Copy.certified) reservation := by
  rw [reserveOn, reserveOn, List.map_map, List.map_map]
  apply List.map_congr_left
  intro a _
  rw [Function.comp_apply, Function.comp_apply]
  by_cases hid : a.id = reservation.1
  · have hid' : a.certified.id = reservation.1 := hid
    rw [if_pos hid, if_pos hid', certified_apply]
  · have hid' : ¬ a.certified.id = reservation.1 := hid
    rw [if_neg hid, if_neg hid']

theorem maxBy_map {α κ : Type} [LinearOrder κ] {key : α → κ} {f : α → α}
    (h : ∀ x, key (f x) = key x) (l : List α) : maxBy key (l.map f) = (maxBy key l).map f := by
  induction l with
  | nil => rfl
  | cons x l ih =>
    rw [List.map_cons, maxBy, maxBy, ih]
    cases maxBy key l with
    | none => rfl
    | some y =>
      simp only [Option.map_some, h]
      split
      all_goals rfl

theorem bestCandidate_certified {candidates candidates' : Task → List Copy}
    (h : ∀ t, candidates' t = (candidates t).map Copy.certified) :
    bestCandidate fit task candidates' = bestCandidate fit task candidates := by
  rw [bestCandidate, bestCandidate]
  congr 1
  funext t
  have hkey : ∀ a : Copy, candidateKey fit task a.certified = candidateKey fit task a :=
    fun _ ↦ rfl
  rw [h, maxBy_map hkey, Option.map_map]
  rfl

theorem choose_certified (h : fit.Certified) (rows : List Copy) (task : Task) :
    chooseReservation fit (rows.map Copy.certified) task = chooseReservation fit rows task := by
  rw [chooseReservation, chooseReservation]
  congr 1
  · apply bestCandidate_certified
    intro t
    rw [List.filter_map]
    congr 1
    apply List.filter_congr
    intro a _
    rw [Function.comp_apply, h.canRun, h.slots]
  · apply bestCandidate_certified
    intro t
    rw [List.filter_map]
    congr 1
    apply List.filter_congr
    intro a _
    rw [Function.comp_apply, h.canWait]

theorem blind (h : fit.Certified) : (reserveInflight fit).Blind Alike where
  choose rows rows' t halike := by
    have hrows := choose_certified h rows t
    rw [halike, choose_certified h rows' t] at hrows
    exact hrows.symm
  apply rows rows' reservation halike := by
    have heq := certified_reserveOn rows reservation
    rw [halike, ← certified_reserveOn rows' reservation] at heq
    exact heq

end Blindness

section Signatures

variable {rows rows' : Rows} {r r' : Row}

/-- Rows of one order have one signature only if they agree row by row. -/
theorem columns_of_signature (h : allocationSignature rows = allocationSignature rows') :
    rows.all.map (fun r ↦ (r.id, allocationFitFields.map (·.2 r))) =
      rows'.all.map fun r ↦ (r.id, allocationFitFields.map (·.2 r)) := by
  have hperm : ∀ rows : Rows, (allocationSignature rows).Perm
      (rows.all.map fun r ↦ (r.id, allocationFitFields.map (·.2 r))) :=
    fun rows ↦ (List.mergeSort_perm rows.all _).map _
  have hordered : ∀ rows : Rows,
      (rows.all.map fun r ↦ (r.id, allocationFitFields.map (·.2 r))).Pairwise
        fun a b ↦ b.1 < a.1 :=
    fun rows ↦ List.pairwise_map.mpr rows.newestFirst
  have hboth := (hperm rows).symm.trans (h ▸ hperm rows')
  exact hboth.eq_of_pairwise (fun a b _ _ hab hba ↦ absurd hab (Nat.lt_asymm hba)) (hordered rows)
    (hordered rows')

theorem signature_of_columns
    (h : rows.all.map (fun r ↦ (r.id, allocationFitFields.map (·.2 r))) =
      rows'.all.map fun r ↦ (r.id, allocationFitFields.map (·.2 r))) :
    allocationSignature rows = allocationSignature rows' := by
  have hsorted : ∀ rows : Rows, allocationSignature rows =
      (rows.all.map fun r ↦ (r.id, allocationFitFields.map (·.2 r))).mergeSort
        fun a b ↦ a.1 ≤ b.1 :=
    fun rows ↦ List.map_mergeSort fun _ _ _ _ ↦ rfl
  rw [hsorted, hsorted, h]

/-- The certified columns of a row, and whether it has a job if it is warm -/
def SameFit (r r' : Row) : Prop :=
  (r.id, allocationFitFields.map (·.2 r)) = (r'.id, allocationFitFields.map (·.2 r')) ∧
    (r.state = .warm → (r.slurmJobId = "" ↔ r'.slurmJobId = ""))

theorem certified_of_sameFit (counts : String → ℕ) (h : SameFit r r') :
    (annotateFeaNodeWorkerCounts counts [r.copy]).map Copy.certified =
      (annotateFeaNodeWorkerCounts counts [r'.copy]).map Copy.certified := by
  have hexclusive : ∀ b b' : Bool, b.toNat = b'.toNat → b = b' := by decide
  obtain ⟨h, hwarm⟩ := h
  simp only [allocationFitFields, List.map_cons, List.map_nil, Prod.mk.injEq, List.cons.injEq,
    Value.state.injEq, Value.text.injEq, Value.number.injEq, and_true] at h
  obtain ⟨hid, hstate, haccount, hpartition, hnode, htotalCpus, hfreeCpus, htotalMemory,
    hfreeMemory, htotalGpus, hfreeGpus, hmodel, hpool, hexclusiveNode, hreason⟩ := h
  have hexclusiveNode := hexclusive _ _ hexclusiveNode
  have hjob : (r'.state = .warm ∧ r.slurmJobId ≠ "") ↔
      (r'.state = .warm ∧ r'.slurmJobId ≠ "") :=
    and_congr_right fun h ↦ not_congr (hwarm (hstate.trans h))
  simp only [annotateFeaNodeWorkerCounts, List.map_cons, List.map_nil, Row.copy, hnode]
  split
  all_goals
    simp only [Copy.certified, hid, hstate, haccount, hjob, hpartition, hnode, htotalCpus,
      hfreeCpus, htotalMemory, hfreeMemory, htotalGpus, hfreeGpus, hmodel, hpool, hexclusiveNode,
      hreason]

/-- A row that is warm has a job in the one reading if it has one in the other. -/
def SameJobs (rows rows' : Rows) : Prop :=
  ∀ r ∈ rows.all, ∀ r' ∈ rows'.all, r.id = r'.id → r.state = .warm →
    (r.slurmJobId = "" ↔ r'.slurmJobId = "")

/-- Rows with one signature and the same jobs are alike with the same counts. -/
theorem alike_of_signature (counts : String → ℕ) (hjobs : SameJobs rows rows')
    (h : allocationSignature rows = allocationSignature rows') :
    Alike (rows.annotated counts) (rows'.annotated counts) := by
  have hall : List.Forall₂ (fun r r' : Row ↦
      (r.id, allocationFitFields.map (·.2 r)) = (r'.id, allocationFitFields.map (·.2 r')))
      rows.all rows'.all := by
    have hcolumns := columns_of_signature h
    rwa [← List.forall₂_eq_eq_eq, List.forall₂_map_left_iff, List.forall₂_map_right_iff]
      at hcolumns
  rw [Alike, Rows.annotated, Rows.annotated]
  rw [SameJobs] at hjobs
  generalize rows.all = all at hall hjobs ⊢
  generalize rows'.all = all' at hall hjobs ⊢
  induction hall with
  | nil => rfl
  | cons hrow _ ih =>
    have hid := congrArg Prod.fst hrow
    have hfirst := certified_of_sameFit counts
      ⟨hrow, hjobs _ List.mem_cons_self _ List.mem_cons_self hid⟩
    have hrest := ih fun r hr r' hr' ↦
      hjobs r (List.mem_cons_of_mem _ hr) r' (List.mem_cons_of_mem _ hr')
    exact congrArg₂ (· ++ ·) hfirst hrest

end Signatures

section Loop

variable {fit : Fit} {demand : Task → Bool} {queue tasks : List Task} {certified : ℕ}

theorem bestCandidate_mem {rows : List Copy} {task : Task} {candidates : Task → List Copy}
    {reservation : Reservation} (hsub : ∀ t, candidates t ⊆ rows)
    (h : bestCandidate fit task candidates = some reservation) :
    reservation.1 ∈ rows.map (·.id) := by
  obtain ⟨t, -, ht⟩ := List.exists_of_findSome?_eq_some h
  obtain ⟨a, ha, rfl⟩ := Option.map_eq_some_iff.mp ht
  exact List.mem_map_of_mem (hsub t (mem_maxBy ha))

theorem choose_mem {rows : List Copy} {task : Task} {reservation : Reservation}
    (h : chooseReservation fit rows task = some reservation) :
    reservation.1 ∈ rows.map (·.id) := by
  rw [chooseReservation, Option.or_eq_some_iff] at h
  obtain h | ⟨-, h⟩ := h
  · exact bestCandidate_mem (fun t ↦ List.filter_subset_self _) h
  · exact bestCandidate_mem (fun t ↦ List.filter_subset_self _) h

theorem served_of_full {index : ℕ} {rows : List Copy} (hindex : certified ≤ index)
    (hremaining : (queue.take certified).drop index = tasks.filter demand) :
    (reserveInflight fit).served demand rows tasks = [] := by
  have hfirst := Pass.served_prefix (p := reserveInflight fit) demand rows tasks
  rw [← hremaining, List.drop_of_length_le (by rw [List.length_take]; omega)] at hfirst
  exact List.prefix_nil.mp hfirst

/-- The next certified task of the queue -/
theorem next_certified {index : ℕ} {t : Task} {rest : List Task} (hindex : index < certified)
    (hcertified : certified ≤ queue.length)
    (hremaining : (queue.take certified).drop index = t :: rest) :
    queue[index]? = some t ∧ (queue.take certified).drop (index + 1) = rest := by
  have hshort : index < (queue.take certified).length := by
    rw [List.length_take]
    omega
  rw [List.drop_eq_getElem_cons hshort] at hremaining
  obtain ⟨hhead, hrest⟩ := List.cons.inj hremaining
  rw [List.getElem_take] at hhead
  exact ⟨by rw [List.getElem?_eq_getElem (by omega), hhead], hrest⟩

/-- On rows on which the plan is made again, its steps are applied up to the first task that it
has refused, and the first of another kind that it has not. -/
theorem replaySteps_log {index : ℕ} {rows : List Copy} (hindex : index ≤ certified)
    (hcertified : certified ≤ queue.length)
    (hremaining : (queue.take certified).drop index = tasks.filter demand)
    (hother : ∀ t ∈ tasks, demand t = false → t.id ∉ queue.map (·.id)) :
    ∃ stop, replaySteps queue certified
        (((reserveInflight fit).log rows tasks).map fun e ↦ ⟨e.1.id, e.2⟩) index rows =
      .ok ((reserveInflight fit).run rows ((reserveInflight fit).served demand rows tasks),
        index + ((reserveInflight fit).served demand rows tasks).length, stop) ∧
      (stop = none →
        index + ((reserveInflight fit).served demand rows tasks).length = certified) := by
  induction tasks generalizing index rows with
  | nil =>
    have hlength := congrArg List.length hremaining
    rw [List.length_drop, List.length_take, List.filter_nil, List.length_nil] at hlength
    refine ⟨none, rfl, fun _ ↦ ?_⟩
    simp only [Pass.served, List.length_nil]
    omega
  | cons t tasks ih =>
    have htail : ∀ t' ∈ tasks, demand t' = false → t'.id ∉ queue.map (·.id) :=
      fun t' ht' ↦ hother t' (List.mem_cons_of_mem t ht')
    rw [Pass.log_cons, List.map_cons, replaySteps]
    by_cases hdone : certified ≤ index
    · rw [if_pos hdone, served_of_full hdone hremaining]
      exact ⟨none, rfl, fun _ ↦ by rw [List.length_nil]; omega⟩
    · rw [if_neg hdone]
      cases hdemand : demand t with
      | true =>
        rw [List.filter_cons_of_pos hdemand] at hremaining
        obtain ⟨hhead, hrest⟩ := next_certified (not_le.mp hdone) hcertified hremaining
        have hsame : ¬ (queue[index]?).map (·.id) ≠ some t.id := by
          rw [hhead]
          exact not_not_intro rfl
        rw [if_neg hsame]
        cases hchoose : (reserveInflight fit).choose rows t with
        | none =>
          rw [Pass.served_refused hdemand hchoose]
          exact ⟨some .unreservedTask, rfl, fun h ↦ by cases h⟩
        | some reservation =>
          have hmem : (rows.map (·.id)).contains reservation.1 = true := by
            rw [List.contains_iff_mem]
            exact choose_mem hchoose
          obtain ⟨stop, hsteps, hstop⟩ := @ih (index + 1)
            ((reserveInflight fit).apply rows reservation) (by omega) hrest htail
          have hcount (n : ℕ) : index + 1 + n = index + (n + 1) := by omega
          rw [hcount] at hsteps hstop
          rw [Pass.served_granted hdemand hchoose, Pass.run_cons, hchoose, List.length_cons]
          refine ⟨stop, ?_, hstop⟩
          dsimp only
          rw [if_pos hmem]
          exact hsteps
      | false =>
        have hneg : ¬ demand t = true := by
          rw [hdemand]
          exact Bool.false_ne_true
        rw [List.filter_cons_of_neg hneg] at hremaining
        have hnot := hother t List.mem_cons_self hdemand
        have hdifferent : (queue[index]?).map (·.id) ≠ some t.id := by
          rw [List.getElem?_eq_getElem (by omega), Option.map_some]
          intro heq
          exact hnot (Option.some.inj heq ▸ List.mem_map_of_mem (List.getElem_mem _))
        have habsent : ¬ (queue.map (·.id)).contains t.id = true := by
          rwa [List.contains_iff_mem]
        rw [if_pos hdifferent, if_neg habsent]
        cases hchoose : (reserveInflight fit).choose rows t with
        | none =>
          rw [Pass.served_skipped hdemand hchoose]
          exact ih hindex hremaining htail
        | some reservation =>
          rw [Pass.served_taken hdemand hchoose]
          exact ⟨some .nonDemandReservation, rfl, fun h ↦ by cases h⟩

end Loop

section Queue

variable {plan : Plan} {demand : Task → Bool} {queue tasks planned : List Task} {t : Task}

theorem find_of_nodup (hids : (tasks.map (·.id)).Nodup) (ht : t ∈ tasks) :
    tasks.find? (·.id == t.id) = some t := by
  induction tasks with
  | nil => cases ht
  | cons first tasks ih =>
    rw [List.map_cons, List.nodup_cons] at hids
    obtain rfl | ht := List.mem_cons.mp ht
    · exact List.find?_cons_of_pos (beq_self_eq_true _)
    · have hne : (first.id == t.id) = false := by
        rw [beq_eq_false_iff_ne]
        exact fun heq ↦ hids.1 (heq ▸ List.mem_map_of_mem ht)
      rw [List.find?_cons, hne]
      exact ih hids.2 ht

/-- Where no planned task has changed, the queue begins with them. -/
theorem take_of_unchanged (hids : (plan.tasks.map (·.id)).Nodup) (hplanned : planned ⊆ plan.tasks)
    (hlength : planned.length ≤ queue.length)
    (h : plannedTaskChange plan ((planned.map (·.id)).zip queue) = none) :
    queue.take planned.length = planned := by
  induction planned generalizing queue with
  | nil => rfl
  | cons first planned ih =>
    cases queue with
    | nil => cases hlength
    | cons task queue =>
      rw [List.map_cons, List.zip_cons_cons, plannedTaskChange] at h
      split at h
      · cases h
      · split at h
        · cases h
        · rename_i hid hsame
          have hfirst := find_of_nodup hids (hplanned List.mem_cons_self)
          have heq : task = first := by
            rw [hfirst] at hsame
            exact (Option.some.inj (not_not.mp hsame)).symm
          rw [List.length_cons, List.take_succ_cons, heq,
            ih (fun t ht ↦ hplanned (List.mem_cons_of_mem first ht))
              (Nat.le_of_succ_le_succ hlength) h]

/-- A queue that begins with the planned tasks has not changed them. -/
theorem unchanged_of_take (hids : (plan.tasks.map (·.id)).Nodup) (hplanned : planned ⊆ plan.tasks)
    (appended : List Task) :
    plannedTaskChange plan ((planned.map (·.id)).zip (planned ++ appended)) = none := by
  induction planned with
  | nil => rfl
  | cons first planned ih =>
    have hfirst := find_of_nodup hids (hplanned List.mem_cons_self)
    rw [List.map_cons, List.cons_append, List.zip_cons_cons, plannedTaskChange,
      if_neg (not_not_intro rfl), if_neg (not_not_intro hfirst)]
    exact ih fun t ht ↦ hplanned (List.mem_cons_of_mem first ht)

structure Certifies (plan : Plan) (demand : Task → Bool) (queue : List Task) (now : Snapshot)
    (certified : ℕ) : Prop where
  length : certified ≤ queue.length
  planned : queue.take certified = plan.tasks.filter demand
  appended : ∀ t ∈ queue.drop certified, t.id ∉ plan.tasks.map (·.id)
  rows : plan.allocationSignature = allocationSignature now.rows
  fitState : plan.fitStateSignature = now.fitState

theorem certifies_of_state {now : Snapshot} {certified : ℕ} {reason : Option Reason}
    (hids : (plan.tasks.map (·.id)).Nodup)
    (hplanned : plan.plannedDemandTaskIds = (plan.tasks.filter demand).map (·.id))
    (h : reservationPlanReplayState plan queue now = .ok (certified, reason)) :
    Certifies plan demand queue now certified := by
  simp only [reservationPlanReplayState] at h
  split at h
  · cases h
  · split at h
    · cases h
    · split at h
      · cases h
      · rename_i hshort
        split at h
        · cases h
        · rename_i hunchanged
          split at h
          · cases h
          · rename_i happended
            split at h
            · cases h
            · split at h
              · cases h
              · rename_i hrows
                split at h
                · cases h
                · rename_i hfit
                  cases h
                  rw [hplanned] at hunchanged
                  have hlength : plan.plannedDemandTaskIds.length =
                      (plan.tasks.filter demand).length := by rw [hplanned, List.length_map]
                  refine ⟨by omega, ?_, ?_, not_not.mp hrows, not_not.mp hfit⟩
                  · rw [hlength]
                    exact take_of_unchanged hids (List.filter_subset_self _) (by omega) hunchanged
                  · intro t ht hmem
                    refine happended (List.any_eq_true.mpr ⟨t, ht, ?_⟩)
                    rwa [List.contains_iff_mem]

theorem Certifies.other {now : Snapshot} {certified : ℕ} (hids : (plan.tasks.map (·.id)).Nodup)
    (h : Certifies plan demand queue now certified) (ht : t ∈ plan.tasks)
    (hdemand : demand t = false) : t.id ∉ queue.map (·.id) := by
  intro hmem
  obtain ⟨t', ht', hid⟩ := List.mem_map.mp hmem
  rw [← List.take_append_drop certified queue, List.mem_append, h.planned] at ht'
  obtain hfirst | hlast := ht'
  · obtain ⟨hmem', hdemand'⟩ := List.mem_filter.mp hfirst
    have heq := find_of_nodup hids hmem'
    rw [hid, find_of_nodup hids ht] at heq
    rw [← Option.some.inj heq, hdemand] at hdemand'
    cases hdemand'
  · exact h.appended t' hlast (hid ▸ List.mem_map_of_mem ht)

end Queue

section Looks

variable {fit : Fit} {demand : Task → Bool} {before after : FitTables} {rows rowsAfter fresh : Rows}
  {tasks queue appended : List Task} {reads : Reads} {certified : ℕ} {reason : Option Reason}

/-- The demand tasks that the plan's own pass serves on the rows of a replay -/
def servedAgain (fit : Fit) (demand : Task → Bool) (reads : Reads) (tasks : List Task) :
    List Task :=
  (reserveInflight fit).served demand (reads.rows.annotated fit.nodeFeaWorkerCounts) tasks

theorem replaySteps_plan (hfit : fit.Certified) (hids : (tasks.map (·.id)).Nodup)
    (hjobs : SameJobs rows reads.rows)
    (hmiddle : allocationSignature reads.rows = allocationSignature reads.before.rows)
    (h : Certifies (queuedTaskAllocationReservationPlan fit demand before rows rowsAfter after
      tasks) demand queue reads.before certified) :
    servedAgain fit demand reads tasks <+: queue ∧
    ∃ stop, replaySteps queue certified (queuedTaskAllocationReservationPlan fit demand before rows
        rowsAfter after tasks).steps 0 (reads.rows.annotated fit.nodeFeaWorkerCounts) =
      .ok ((reserveInflight fit).run (reads.rows.annotated fit.nodeFeaWorkerCounts)
        (servedAgain fit demand reads tasks), (servedAgain fit demand reads tasks).length, stop) ∧
      (stop = none → (servedAgain fit demand reads tasks).length = certified) := by
  have hrows : allocationSignature rows = allocationSignature reads.rows :=
    h.rows.trans hmiddle.symm
  have hlog := (blind hfit).log_eq (alike_of_signature fit.nodeFeaWorkerCounts hjobs hrows) tasks
  have hplanned : queue.take certified = tasks.filter demand := h.planned
  constructor
  · have hfirst := Pass.served_prefix (p := reserveInflight fit) demand
      (reads.rows.annotated fit.nodeFeaWorkerCounts) tasks
    rw [← hplanned] at hfirst
    exact hfirst.trans (List.take_prefix certified queue)
  · obtain ⟨stop, hsteps, hstop⟩ := @replaySteps_log fit demand queue tasks certified 0
      (reads.rows.annotated fit.nodeFeaWorkerCounts) (Nat.zero_le certified) h.length hplanned
      fun t ht hdemand ↦ h.other hids ht hdemand
    rw [Nat.zero_add] at hsteps hstop
    refine ⟨stop, ?_, hstop⟩
    rw [queuedTaskAllocationReservationPlan]
    dsimp only
    rw [hlog]
    exact hsteps

theorem replay_eq {plan : Plan} {copies : List Copy} {index : ℕ} {stop : Option Reason}
    (hstate : reservationPlanReplayState plan queue reads.before = .ok (certified, reason))
    (hsteps : replaySteps queue certified plan.steps 0
      (reads.rows.annotated fit.nodeFeaWorkerCounts) = .ok (copies, index, stop)) :
    replayReservationPlanPrefix fit.nodeFeaWorkerCounts plan queue reads =
      if stop.isNone && index != certified then .error .reservationTraceIncomplete
      else if plan.allocationSignature ≠ allocationSignature reads.after.rows then
        .error .allocationStateChangedDuringReplay
      else if plan.fitStateSignature ≠ reads.after.fitState then
        .error .fitStateChangedDuringReplay
      else .ok (copies, index, (stop.or reason).getD .allTasksReserved) := by
  rw [replayReservationPlanPrefix, hstate]
  simp only [bind, Except.bind, hsteps]

/-- A replay that succeeds has served the first tasks of the queue as the pass would have. -/
theorem replay_served (hfit : fit.Certified) (hids : (tasks.map (·.id)).Nodup)
    (hjobs : SameJobs rows reads.rows)
    (hmiddle : allocationSignature reads.rows = allocationSignature reads.before.rows)
    {copies : List Copy} {index : ℕ} {last : Reason}
    (h : replayReservationPlanPrefix fit.nodeFeaWorkerCounts (queuedTaskAllocationReservationPlan
      fit demand before rows rowsAfter after tasks) queue reads = .ok (copies, index, last)) :
    ∃ served, served = servedAgain fit demand reads tasks ∧ queue.take index = served ∧
      copies = (reserveInflight fit).run (reads.rows.annotated fit.nodeFeaWorkerCounts) served := by
  cases hstate : reservationPlanReplayState (queuedTaskAllocationReservationPlan fit demand
      before rows rowsAfter after tasks) queue reads.before with
  | error e =>
    rw [replayReservationPlanPrefix, hstate] at h
    cases h
  | ok state =>
    obtain ⟨certified, first⟩ := state
    have hcertifies := certifies_of_state hids rfl hstate
    obtain ⟨hbegins, stop, hsteps, -⟩ := replaySteps_plan hfit hids hjobs hmiddle hcertifies
    rw [replay_eq hstate hsteps] at h
    split at h
    · cases h
    · split at h
      · cases h
      · split at h
        · cases h
        · cases h
          exact ⟨_, rfl, (List.prefix_iff_eq_take.mp hbegins).symm, rfl⟩

/-- A replay that succeeds has found the fit state that the plan was made with. -/
theorem replay_fitState {counts : String → ℕ} {result : List Copy × ℕ × Reason}
    (hids : (tasks.map (·.id)).Nodup)
    (h : replayReservationPlanPrefix counts (queuedTaskAllocationReservationPlan fit demand before
      rows rowsAfter after tasks) queue reads = .ok result) :
    reservationFitStateSignature before = reads.before.fitState := by
  cases hstate : reservationPlanReplayState (queuedTaskAllocationReservationPlan fit demand before
      rows rowsAfter after tasks) queue reads.before with
  | error e =>
    rw [replayReservationPlanPrefix, hstate] at h
    cases h
  | ok state => exact (certifies_of_state hids rfl hstate).fitState

section Opening

variable {ω : Type} {openAllocation : ω → Task → Option Row × ω} {maxNew : ℕ}
  {submit : ω → List Row → ℕ × ω} {world : ω}

/-- What is served of the queue first is scanned as it was served, while the world stays. -/
theorem scan_served (fit : ω → Fit) :
    (servedAgain (fit world) demand reads tasks).foldl (scanTask fit openAllocation maxNew)
        { rows := reads.rows.annotated (fit world).nodeFeaWorkerCounts, world } =
      { rows := (reserveInflight (fit world)).run
          (reads.rows.annotated (fit world).nodeFeaWorkerCounts)
          (servedAgain (fit world) demand reads tasks),
        world } := by
  rw [servedAgain]
  refine Pass.foldl_served (fun rows ↦ ({ rows, world } : Scan ω)) ?_ _ _
  intro rows task reservation hchoose
  have hchoose' : chooseReservation (fit world) rows task = some reservation := hchoose
  simp only [scanTask, hchoose']
  rfl

/-- With a plan, the allocations that are opened and what is left in the world are those of a scan
of the whole queue. -/
theorem open_replayed (answers : ω → FitState → Answers) (hids : (tasks.map (·.id)).Nodup)
    (hjobs : SameJobs rows reads.rows)
    (hmiddle : allocationSignature reads.rows = allocationSignature reads.before.rows) :
    let fit : ω → Fit := fun world ↦ codeFit (answers world reads.before.fitState)
    let plan := queuedTaskAllocationReservationPlan
      (codeFit (answers world (reservationFitStateSignature before))) demand before rows rowsAfter
      after tasks
    let replayed := replayReservationPlanPrefix (fit world).nodeFeaWorkerCounts plan queue reads
    openFitAwareDemandAllocations fit openAllocation maxNew submit queue (some plan) reads fresh
        world =
      openFitAwareDemandAllocations fit openAllocation maxNew submit queue none reads
        (if replayed.isOk then reads.rows else fresh) world := by
  intro fit plan replayed
  rw [openFitAwareDemandAllocations, openFitAwareDemandAllocations]
  split
  · rfl
  · rw [Option.bind_some, Option.bind_none]
    cases h : replayReservationPlanPrefix (fit world).nodeFeaWorkerCounts plan queue reads with
    | error e => simp only [replayed, h, Except.toOption, Except.isOk, Except.toBool]; rfl
    | ok result =>
      obtain ⟨copies, index, reason⟩ := result
      -- the certificate says that the fit is the one of the plan
      have hplan : plan = queuedTaskAllocationReservationPlan (fit world) demand before rows
          rowsAfter after tasks := by
        simp only [plan, fit, replay_fitState hids h]
      have hcertified : (fit world).Certified := codeFit_certified _
      obtain ⟨served, hserved, htake, rfl⟩ :=
        replay_served hcertified hids hjobs hmiddle (hplan ▸ h)
      have hqueue : queue = served ++ queue.drop index := by
        rw [← htake, List.take_append_drop]
      have hscan : served.foldl (scanTask fit openAllocation maxNew)
          { rows := reads.rows.annotated (fit world).nodeFeaWorkerCounts, world } =
            { rows := (reserveInflight (fit world)).run
                (reads.rows.annotated (fit world).nodeFeaWorkerCounts) served,
              world } := by
        rw [hserved]
        exact scan_served fit
      have hall : queue.foldl (scanTask fit openAllocation maxNew)
          { rows := reads.rows.annotated (fit world).nodeFeaWorkerCounts, world } =
            (queue.drop index).foldl (scanTask fit openAllocation maxNew)
              { rows := (reserveInflight (fit world)).run
                  (reads.rows.annotated (fit world).nodeFeaWorkerCounts) served,
                world } := by
        conv_lhs => rw [hqueue, List.foldl_append, hscan]
      have hok : replayed.isOk = true := by
        simp only [replayed, h]
        rfl
      rw [if_pos hok]
      dsimp only [Except.toOption]
      rw [List.drop_zero, hall]

end Opening

section Demo

/-- The world is the number of allocations that have been opened. -/
def labAnswers (opened : ℕ) (fitState : FitState) : Answers where
  accounts := ["lab"]
  accountStorageBlocked _ more := decide (2 ≤ opened + more)
  aedtPoolProjectCpus := max 1 fitState.aedtPoolProjectCpus
  projectCpusPos := Nat.lt_of_lt_of_le Nat.one_pos (Nat.le_max_left _ _)

def labRow (id : ℕ) : Row :=
  { id, state := .warm, accountName := "lab", slurmJobId := "700", totalCpus := 8, freeCpus := 8,
    totalMemoryMb := 65536, freeMemoryMb := 65536 }

def warmRows (slurmJobId : String) : Rows where
  all := [{ labRow 3 with nodeName := "n1", drainReason := "queued FEA demand", slurmJobId },
    labRow 2, { labRow 1 with freeCpus := 4 }]
  newestFirst := by simp [labRow]

def mixedTasks : List Task :=
  [{ id := 11, cpus := 4 }, { id := 12, cpus := 64, aedtBackend := "pooled" },
    { id := 13, cpus := 4, schedulingProfile := .feaBursty, nodeName := "n1",
      nodeNamePolicy := "strict" },
    { id := 14, cpus := 4 }]

def isStandalone (t : Task) : Bool := t.aedtBackend == "standalone"

/-- The first row has been started anew since the plan was made. -/
def labReads : Reads where
  before := ⟨warmRows "702", {}⟩
  rows := warmRows "702"
  after := ⟨warmRows "702", {}⟩

theorem sameJobs_lab : SameJobs (warmRows "701") labReads.rows := by
  simp [SameJobs, labReads, warmRows, labRow]

theorem mixedTasks_nodup : (mixedTasks.map (·.id)).Nodup := by decide

theorem open_replayed_quiet :
    let fit : ℕ → Fit := fun opened ↦ codeFit (labAnswers opened labReads.before.fitState)
    let plan := queuedTaskAllocationReservationPlan
      (codeFit (labAnswers 0 (reservationFitStateSignature {}))) isStandalone {} (warmRows "701")
      (warmRows "701") {} mixedTasks
    let openAllocation : ℕ → Task → Option Row × ℕ := fun opened t ↦
      (some { labRow (4 + opened) with totalCpus := t.cpus, freeCpus := t.cpus }, opened + 1)
    let queue := mixedTasks.filter isStandalone ++ [{ id := 15, cpus := 16 }]
    openFitAwareDemandAllocations fit openAllocation 4 (fun opened rows ↦ (rows.length, opened))
      queue (some plan) labReads labReads.rows 0 = ((1, false), 1) := by
  intro fit plan openAllocation queue
  have hmiddle : allocationSignature labReads.rows = allocationSignature labReads.before.rows := rfl
  have hscan : openFitAwareDemandAllocations fit openAllocation 4
      (fun opened rows ↦ (rows.length, opened)) queue none labReads labReads.rows 0 =
        ((1, false), 1) := by decide +kernel
  calc
    _ = _ := open_replayed labAnswers mixedTasks_nodup sameJobs_lab hmiddle
    _ = _ := by rw [ite_self, hscan]

end Demo

theorem changes_self (signature : Signature) (fields : List String) (kind : String) :
    reservationRecordSignatureChanges signature signature fields kind = [] := by
  simp [reservationRecordSignatureChanges]

theorem fitStateChanges_self (fitState : FitState) :
    reservationFitStateChanges fitState fitState = [] := by
  simp [reservationFitStateChanges, changes_self]

theorem zip_tail_lt {κ : Type} [LinearOrder κ] {keys : List κ} (h : keys.Pairwise (· < ·)) :
    (keys.zip keys.tail).any (fun pair ↦ decide (pair.2 ≤ pair.1)) = false := by
  induction keys with
  | nil => rfl
  | cons first keys ih =>
    cases keys with
    | nil => rfl
    | cons second keys =>
      have hfirst := (List.pairwise_cons.mp h).1 second List.mem_cons_self
      have hrest := ih (List.pairwise_cons.mp h).2
      rw [List.tail_cons, List.zip_cons_cons, List.any_cons, decide_eq_false (not_le.mpr hfirst),
        Bool.false_or]
      exact hrest

/-- Everything that a replay reads is what the plan has certified. -/
structure Reads.Unchanged (reads : Reads) (rows : Rows) (fitState : FitState) : Prop where
  first : allocationSignature reads.before.rows = allocationSignature rows
  middle : allocationSignature reads.rows = allocationSignature rows
  last : allocationSignature reads.after.rows = allocationSignature rows
  firstState : reads.before.fitState = fitState
  lastState : reads.after.fitState = fitState

theorem state_unchanged (hids : (tasks.map (·.id)).Nodup)
    (hbuilt : allocationSignature rowsAfter = allocationSignature rows ∧
      reservationFitStateSignature after = reservationFitStateSignature before)
    (hreads : reads.Unchanged rows (reservationFitStateSignature before))
    (hsorted : ((tasks.filter demand ++ appended).map Task.orderKey).Pairwise (· < ·))
    (happended : ∀ t ∈ appended, t.id ∉ tasks.map (·.id)) :
    ∃ reason, reservationPlanReplayState (queuedTaskAllocationReservationPlan fit demand before
      rows rowsAfter after tasks) (tasks.filter demand ++ appended) reads.before =
        .ok ((tasks.filter demand).length, reason) := by
  obtain ⟨hrowsAfter, hafter⟩ := hbuilt
  generalize hplan : queuedTaskAllocationReservationPlan fit demand before rows rowsAfter after
    tasks = plan
  have htasks : plan.tasks = tasks := by rw [← hplan]; rfl
  have hplanned : plan.plannedDemandTaskIds = (tasks.filter demand).map (·.id) := by
    rw [← hplan]; rfl
  have hreusable : (!plan.reusable) = false := by
    rw [← hplan]
    simp [queuedTaskAllocationReservationPlan, Plan.reusable, hrowsAfter, hafter, changes_self,
      fitStateChanges_self]
  have hlength : plan.plannedDemandTaskIds.length = (tasks.filter demand).length := by
    rw [hplanned, List.length_map]
  have hunchanged : plannedTaskChange plan (((tasks.filter demand).map (·.id)).zip
      (tasks.filter demand ++ appended)) = none := by
    rw [← htasks] at hids
    have hsub : tasks.filter demand ⊆ plan.tasks := by
      rw [htasks]
      exact List.filter_subset_self tasks
    exact unchanged_of_take hids hsub appended
  have hnew : ¬ appended.any (fun t ↦ (plan.tasks.map (·.id)).contains t.id) = true := by
    rw [List.any_eq_true]
    rintro ⟨t, ht, hmem⟩
    rw [htasks, List.contains_iff_mem] at hmem
    exact happended t ht hmem
  have hlater : ¬ (tasks.filter demand).getLast?.any (fun last ↦
      appended.any fun t ↦ decide (t.orderKey ≤ last.orderKey)) = true := by
    rw [List.map_append, List.pairwise_append] at hsorted
    intro hany
    cases hlast : (tasks.filter demand).getLast? with
    | none =>
      rw [hlast] at hany
      cases hany
    | some last =>
      rw [hlast, Option.any_some, List.any_eq_true] at hany
      obtain ⟨t, ht, hle⟩ := hany
      have hlt := hsorted.2.2 last.orderKey (List.mem_map_of_mem (List.mem_of_getLast? hlast))
        t.orderKey (List.mem_map_of_mem ht)
      exact absurd (of_decide_eq_true hle) (not_le.mpr hlt)
  have hrows : plan.allocationSignature = allocationSignature reads.before.rows := by
    rw [← hplan, hreads.first]
    rfl
  have hfitState : plan.fitStateSignature = reads.before.fitState := by
    rw [← hplan, hreads.firstState]
    rfl
  have hshort : ¬ (tasks.filter demand ++ appended).length < (tasks.filter demand).length := by
    rw [List.length_append]
    omega
  refine ⟨if appended ≠ [] then some .queuedTailAppended else none, ?_⟩
  rw [reservationPlanReplayState]
  simp only [hlength, List.drop_left, List.take_left]
  rw [if_neg (by rw [hreusable]; exact Bool.false_ne_true),
    if_neg (by rw [zip_tail_lt hsorted]; exact Bool.false_ne_true), if_neg hshort, hplanned,
    hunchanged]
  dsimp only
  rw [if_neg hnew, if_neg hlater, if_neg (not_not_intro hrows), if_neg (not_not_intro hfitState)]

theorem replay_of_certified (hfit : fit.Certified) (hids : (tasks.map (·.id)).Nodup)
    (hjobs : SameJobs rows reads.rows)
    (hbuilt : allocationSignature rowsAfter = allocationSignature rows ∧
      reservationFitStateSignature after = reservationFitStateSignature before)
    (hreads : reads.Unchanged rows (reservationFitStateSignature before))
    (hsorted : ((tasks.filter demand ++ appended).map Task.orderKey).Pairwise (· < ·))
    (happended : ∀ t ∈ appended, t.id ∉ tasks.map (·.id)) :
    let plan := queuedTaskAllocationReservationPlan fit demand before rows rowsAfter after tasks
    let counts := fit.nodeFeaWorkerCounts
    let served := servedAgain fit demand reads tasks
    (∃ last, replayReservationPlanPrefix counts plan (tasks.filter demand ++ appended) reads =
      .ok ((reserveInflight fit).run (reads.rows.annotated counts) served, served.length, last)) ∧
    (reservationPlanCoversTasks counts plan (tasks.filter demand ++ appended) reads = true ↔
      served = tasks.filter demand ∧ appended = []) := by
  intro plan counts served
  obtain ⟨reason, hstate⟩ := state_unchanged hids hbuilt hreads hsorted happended
  have hcertifies := certifies_of_state hids rfl hstate
  obtain ⟨-, stop, hsteps, hstop⟩ := replaySteps_plan hfit hids hjobs
    (hreads.middle.trans hreads.first.symm) hcertifies
  have hcomplete : ¬ (stop.isNone && served.length != (tasks.filter demand).length) = true := by
    rw [Bool.and_eq_true, bne_iff_ne]
    exact fun hboth ↦ hboth.2 (hstop (Option.isNone_iff_eq_none.mp hboth.1))
  have hrows : ¬ plan.allocationSignature ≠ allocationSignature reads.after.rows :=
    not_not_intro hreads.last.symm
  have hfitState : ¬ plan.fitStateSignature ≠ reads.after.fitState :=
    not_not_intro hreads.lastState.symm
  have hreplay := replay_eq hstate hsteps
  rw [if_neg hcomplete, if_neg hrows, if_neg hfitState] at hreplay
  refine ⟨⟨_, hreplay⟩, ?_⟩
  rw [reservationPlanCoversTasks, hreplay]
  dsimp only
  rw [beq_iff_eq]
  have hbegins : served <+: tasks.filter demand :=
    Pass.served_prefix (p := reserveInflight fit) demand _ tasks
  constructor
  · intro hall
    have hlength : served.length = (tasks.filter demand).length + appended.length := by
      rw [← List.length_append]
      exact hall
    have hle := hbegins.length_le
    exact ⟨hbegins.eq_of_length (by omega), List.length_eq_zero_iff.mp (by omega)⟩
  · rintro ⟨hserved, rfl⟩
    rw [List.append_nil, ← hserved]

/-- A plan falls back only for a reason: where nothing that it has certified has changed, and later
tasks have been appended at most, it is replayed up to the first demand task that it has refused
and the first other task that it has not. -/
theorem replay_total (answers : FitState → Answers) (hids : (tasks.map (·.id)).Nodup)
    (hjobs : SameJobs rows reads.rows)
    (hbuilt : allocationSignature rowsAfter = allocationSignature rows ∧
      reservationFitStateSignature after = reservationFitStateSignature before)
    (hreads : reads.Unchanged rows (reservationFitStateSignature before))
    (hsorted : ((tasks.filter demand ++ appended).map Task.orderKey).Pairwise (· < ·))
    (happended : ∀ t ∈ appended, t.id ∉ tasks.map (·.id)) :
    let fit := codeFit (answers reads.before.fitState)
    let plan := queuedTaskAllocationReservationPlan
      (codeFit (answers (reservationFitStateSignature before))) demand before rows rowsAfter after
      tasks
    let counts := fit.nodeFeaWorkerCounts
    let served := servedAgain fit demand reads tasks
    (∃ last, replayReservationPlanPrefix counts plan (tasks.filter demand ++ appended) reads =
      .ok ((reserveInflight fit).run (reads.rows.annotated counts) served, served.length, last)) ∧
    (reservationPlanCoversTasks counts plan (tasks.filter demand ++ appended) reads = true ↔
      served = tasks.filter demand ∧ appended = []) := by
  intro fit plan
  have hplan : plan = queuedTaskAllocationReservationPlan fit demand before rows rowsAfter after
      tasks := by
    simp only [plan, fit, hreads.firstState]
  rw [hplan]
  exact replay_of_certified (codeFit_certified _) hids hjobs hbuilt hreads hsorted happended

theorem replay_total_appended :
    let fit := codeFit (labAnswers 0 labReads.before.fitState)
    let plan := queuedTaskAllocationReservationPlan
      (codeFit (labAnswers 0 (reservationFitStateSignature {}))) isStandalone {} (warmRows "701")
      (warmRows "701") {} mixedTasks
    let queue := mixedTasks.filter isStandalone ++ [{ id := 15 }]
    (∃ rows last, replayReservationPlanPrefix fit.nodeFeaWorkerCounts plan queue labReads =
      .ok (rows, 3, last)) ∧
    reservationPlanCoversTasks fit.nodeFeaWorkerCounts plan queue labReads = false := by
  intro fit plan queue
  have hserved : servedAgain fit isStandalone labReads mixedTasks =
      mixedTasks.filter isStandalone := by decide +kernel
  have hrows : allocationSignature (warmRows "702") = allocationSignature (warmRows "701") :=
    signature_of_columns rfl
  have hreads : labReads.Unchanged (warmRows "701") (reservationFitStateSignature {}) :=
    ⟨hrows, hrows, hrows, rfl, rfl⟩
  have hsorted : ((mixedTasks.filter isStandalone ++ [({ id := 15 } : Task)]).map
      Task.orderKey).Pairwise (· < ·) := by decide
  have happended : ∀ t ∈ [({ id := 15 } : Task)], t.id ∉ mixedTasks.map (·.id) := by decide
  obtain ⟨⟨last, hreplay⟩, hcovers⟩ := replay_total (labAnswers 0) mixedTasks_nodup sameJobs_lab
    ⟨rfl, rfl⟩ hreads hsorted happended
  rw [hserved] at hreplay hcovers
  refine ⟨⟨_, last, hreplay⟩, ?_⟩
  rw [Bool.eq_false_iff]
  intro h
  exact List.cons_ne_nil _ _ (hcovers.mp h).2

end Looks

end SlurmScheduler.Demand
