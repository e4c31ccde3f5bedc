import SlurmScheduler.Packed.Jobs

namespace SlurmScheduler.Packed

open Capacity (PestatNode)
open Relational (sortedBy sortedBy_perm)

theorem pyRange_of_le {start stop : ℤ} (h : stop ≤ start) : pyRange start stop = [] := by
  rw [pyRange, Int.toNat_of_nonpos (by omega), List.range_zero, List.map_nil]

theorem pyRange_append {start mid stop : ℤ} (h : start ≤ mid) (h' : mid ≤ stop) :
    pyRange start mid ++ pyRange mid stop = pyRange start stop := by
  have hlength : (stop - start).toNat = (mid - start).toNat + (stop - mid).toNat := by omega
  rw [pyRange, pyRange, pyRange, hlength, List.range_add, List.map_append, List.map_map]
  congr 1
  apply List.map_congr_left
  intro k _
  simp only [Function.comp_apply]
  omega

theorem pyRange_cons {start stop : ℤ} (h : start < stop) :
    pyRange start stop = start :: pyRange (start + 1) stop := by
  have hone : pyRange start (start + 1) = [start] := by
    rw [pyRange, show start + 1 - start = 1 by omega]
    simp
  have hboth : pyRange start (start + 1) ++ pyRange (start + 1) stop = pyRange start stop :=
    pyRange_append (by omega) (by omega)
  rw [← hboth, hone, List.singleton_append]

theorem mem_pyRange {start stop x : ℤ} : x ∈ pyRange start stop ↔ start ≤ x ∧ x < stop := by
  simp only [pyRange, List.mem_map, List.mem_range]
  constructor
  · rintro ⟨k, hk, rfl⟩
    omega
  · intro h
    exact ⟨(x - start).toNat, by omega, by omega⟩

theorem nodup_pyRange (start stop : ℤ) : (pyRange start stop).Nodup := by
  apply List.Nodup.map _ List.nodup_range
  intro i j hij
  have hij' : start + (i : ℤ) = start + (j : ℤ) := hij
  omega

def Job.simulations (job : Job) : List ℤ :=
  pyRange job.simulationStart (job.simulationStart + job.simulationCount)

def AllocationPlan.simulations (plan : AllocationPlan) : List ℤ :=
  pyRange plan.simulationStart (plan.simulationStart + plan.simulationCount)

namespace JobForm

variable (form : JobForm) {node : PestatNode} {c : Candidate}

theorem one_le_perJob : 1 ≤ form.perJob := le_max_left _ _

theorem candidate_some (h : form.candidate node = some c) :
    node.usable = true ∧ (form.partition = "" ∨ form.partition = "auto" ∨
      node.partition = form.partition) ∧ c = ⟨node, form.workers node, form.baselineWorkers node⟩ ∧
      0 < form.workers node ∧ 0 < form.baselineWorkers node := by
  rw [candidate] at h
  split at h
  · cases h
  · rename_i husable
    split at h
    · cases h
    · rename_i hpartition
      split at h
      · rename_i hworkers
        refine ⟨by simpa using husable, ?_, (Option.some.inj h).symm, hworkers⟩
        simp only [Bool.and_eq_true, bne_iff_ne, ne_eq, not_and, not_not] at hpartition
        by_cases hempty : form.partition = ""
        · exact .inl hempty
        · by_cases hauto : form.partition = "auto"
          · exact .inr (.inl hauto)
          · exact .inr (.inr (hpartition ⟨hempty, hauto⟩))
      · cases h

theorem slice_sublist {α : Type} (items : List α) (count : ℤ) : (slice items count).Sublist items := by
  rw [slice]
  split
  · exact List.take_sublist _ _
  · exact List.take_sublist _ _

theorem mem_candidates {nodes : List PestatNode} (h : c ∈ form.candidates nodes) :
    ∃ node ∈ nodes, form.candidate node = some c := by
  have hmem := (slice_sublist _ _).subset h
  rwa [Relational.mem_sortedBy, List.mem_filterMap] at hmem

theorem candidates_pos {nodes : List PestatNode} (h : c ∈ form.candidates nodes) :
    0 < c.workers := by
  obtain ⟨node, -, hnode⟩ := form.mem_candidates h
  obtain ⟨-, -, rfl, hpos, -⟩ := form.candidate_some hnode
  exact hpos

theorem candidates_subperm (nodes : List PestatNode) :
    ((form.candidates nodes).map (·.node)).Subperm nodes := by
  have hnodes : ((nodes.filterMap form.candidate).map (·.node)).Sublist nodes := by
    rw [List.map_filterMap]
    have hself : ∀ node : PestatNode,
        (form.candidate node).map (·.node) = none ∨
          (form.candidate node).map (·.node) = some node := by
      intro node
      cases hc : form.candidate node with
      | none => exact .inl rfl
      | some c =>
        obtain ⟨-, -, rfl, -⟩ := form.candidate_some hc
        exact .inr rfl
    induction nodes with
    | nil => exact List.Sublist.refl _
    | cons node nodes ih =>
      rw [List.filterMap_cons]
      rcases hself node with h | h
      · rw [h]
        exact ih.cons node
      · rw [h]
        exact ih.cons_cons node
  have hsorted : ((sortedBy (fun c : Candidate ↦ OrderDual.toDual c.key)
      (nodes.filterMap form.candidate)).map (·.node)).Subperm
        ((nodes.filterMap form.candidate).map (·.node)) := ((sortedBy_perm _).map _).subperm
  exact (((slice_sublist _ _).map _).subperm.trans hsorted).trans hnodes.subperm

theorem assign_simulations (cs : List Candidate) (hpos : ∀ c ∈ cs, 0 < c.workers)
    (nextSim remaining : ℤ) (hremaining : 0 ≤ remaining) :
    (form.assign nextSim remaining cs).flatMap AllocationPlan.simulations =
      pyRange nextSim (nextSim + min remaining (cs.map (·.workers)).sum) := by
  induction cs generalizing nextSim remaining with
  | nil =>
    rw [assign, List.flatMap_nil, pyRange_of_le]
    rw [List.map_nil, List.sum_nil, min_eq_right hremaining, add_zero]
  | cons c cs ih =>
    have hsum : 0 ≤ (cs.map (·.workers)).sum := by
      apply List.sum_nonneg
      intro x hx
      obtain ⟨c', hc', rfl⟩ := List.mem_map.mp hx
      exact (hpos c' (List.mem_cons_of_mem _ hc')).le
    have hc : 0 < c.workers := hpos c List.mem_cons_self
    rw [assign, List.map_cons, List.sum_cons]
    split
    · have hzero : remaining = 0 := by omega
      rw [List.flatMap_nil, pyRange_of_le]
      omega
    · rw [List.flatMap_cons, ih (fun c' hc' ↦ hpos c' (List.mem_cons_of_mem _ hc')) _ _ (by omega)]
      dsimp only [AllocationPlan.simulations]
      rw [pyRange_append (by omega) (by omega)]
      congr 1
      omega

def batchRange (batchIndex : ℤ) (total : ℤ) : List ℤ :=
  pyRange (batchIndex * form.perJob + 1)
    (batchIndex * form.perJob + 1 + min form.perJob (total - batchIndex * form.perJob))

theorem batchRange_flatMap (total first last : ℤ) :
    (pyRange first last).flatMap (form.batchRange · total) =
      pyRange (first * form.perJob + 1) (min total (last * form.perJob) + 1) := by
  have hper := form.one_le_perJob
  generalize hn : (last - first).toNat = n
  induction n generalizing first with
  | zero =>
    have hle : last * form.perJob ≤ first * form.perJob :=
      mul_le_mul_of_nonneg_right (by omega) (by omega)
    rw [pyRange_of_le (by omega), List.flatMap_nil, pyRange_of_le (by omega)]
  | succ n ih =>
    have hnext : (first + 1) * form.perJob = first * form.perJob + form.perJob := by ring
    have hle : (first + 1) * form.perJob ≤ last * form.perJob :=
      mul_le_mul_of_nonneg_right (by omega) (by omega)
    rw [pyRange_cons (by omega), List.flatMap_cons, ih (first + 1) (by omega), batchRange]
    by_cases hmore : (first + 1) * form.perJob ≤ total
    · have hwhole : first * form.perJob + 1 + min form.perJob (total - first * form.perJob) =
          (first + 1) * form.perJob + 1 := by omega
      rw [hwhole]
      exact pyRange_append (by omega) (by omega)
    · have hrest : pyRange ((first + 1) * form.perJob + 1) (min total (last * form.perJob) + 1) = [] :=
        pyRange_of_le (by omega)
      rw [hrest, List.append_nil]
      congr 1
      omega

theorem fallbackPlan_simulations (batchIndex : ℤ) :
    (form.fallbackPlan batchIndex).simulations = form.batchRange batchIndex form.totalSimulations :=
  rfl

theorem fallback_simulations (first last : ℤ) :
    (form.fallbackPlans (pyRange first last)).flatMap AllocationPlan.simulations =
      (pyRange first last).flatMap (form.batchRange · form.totalSimulations) := by
  generalize hn : (last - first).toNat = n
  induction n generalizing first with
  | zero => rw [pyRange_of_le (by omega), fallbackPlans, List.flatMap_nil, List.flatMap_nil]
  | succ n ih =>
    by_cases hover : form.totalSimulations < first * form.perJob + 1
    · have hnone : (pyRange first last).flatMap (form.batchRange · form.totalSimulations) = [] := by
        rw [batchRange_flatMap, pyRange_of_le (by omega)]
      rw [hnone, pyRange_cons (by omega), fallbackPlans, if_pos hover, List.flatMap_nil]
    · rw [pyRange_cons (by omega), fallbackPlans, if_neg hover, List.flatMap_cons, List.flatMap_cons,
        ih (first + 1) (by omega), fallbackPlan_simulations]

def capacity (nodes : List PestatNode) : ℤ :=
  if form.planDynamicAllocations nodes = [] then max 0 form.maxNewJobs * form.perJob
  else ((form.candidates nodes).map (·.workers)).sum

theorem plans_simulations (nodes : List PestatNode) :
    (form.plans nodes).flatMap AllocationPlan.simulations =
      pyRange 1 (min (max 0 form.totalSimulations) (form.capacity nodes) + 1) := by
  have hper := form.one_le_perJob
  rw [plans, capacity]
  split
  · rename_i hnone
    rw [if_pos hnone, fallback_simulations, batchRange_flatMap, zero_mul, zero_add]
    rcases le_total 0 form.maxNewJobs with hjobs | hjobs
    · have hcapacity : 0 ≤ form.maxNewJobs * form.perJob := mul_nonneg hjobs (by omega)
      rw [max_eq_right hjobs]
      rcases le_total 0 form.totalSimulations with htotal | htotal
      · rw [max_eq_right htotal]
      · rw [pyRange_of_le (by omega), pyRange_of_le (by omega)]
    · have hcapacity : form.maxNewJobs * form.perJob ≤ 0 :=
        mul_nonpos_of_nonpos_of_nonneg hjobs (by omega)
      rw [max_eq_left hjobs, zero_mul, pyRange_of_le (by omega), pyRange_of_le (by omega)]
  · rename_i hsome
    rw [if_neg hsome]
    rw [planDynamicAllocations] at hsome ⊢
    by_cases hzero : max 0 form.totalSimulations = 0
    · rw [if_pos hzero] at hsome
      exact absurd rfl hsome
    · rw [if_neg hzero, assign_simulations form _ (fun c hc ↦ form.candidates_pos hc) _ _ (by omega),
        add_comm]

/-- The jobs of a form take its simulations in their order: all of them in the one mode, and in
the other as many as there is room for. -/
theorem created_simulations (nodes : List PestatNode) :
    form.createPacked.flatMap Job.simulations = pyRange 1 (max 1 form.totalSimulations + 1) ∧
      (form.createDynamic nodes).flatMap Job.simulations =
        pyRange 1 (min (max 0 form.totalSimulations) (form.capacity nodes) + 1) := by
  constructor
  · have hper : (0 : ℚ) < form.perJob := by
      exact_mod_cast Int.lt_of_lt_of_le Int.zero_lt_one form.one_le_perJob
    have hlast : form.total ≤ ⌈(form.total : ℚ) / form.perJob⌉ * form.perJob := by
      have hceil := (div_le_iff₀ hper).mp (Int.le_ceil ((form.total : ℚ) / form.perJob))
      exact_mod_cast hceil
    have hbatches : form.createPacked.flatMap Job.simulations =
        (pyRange 0 ⌈(form.total : ℚ) / form.perJob⌉).flatMap (form.batchRange · form.total) := by
      rw [createPacked, List.flatMap_map]
      rfl
    rw [hbatches, batchRange_flatMap, zero_mul, zero_add, min_eq_left hlast, total]
  · rw [createDynamic, List.flatMap_map]
    exact form.plans_simulations nodes

structure Fits (node : PestatNode) (plan : AllocationPlan) : Prop where
  usable : node.usable = true
  name : plan.nodeName = node.hostname
  partition : plan.partition = node.partition
  asked : form.partition = "" ∨ form.partition = "auto" ∨ plan.partition = form.partition
  perWorker : plan.cpusPerWorker = form.cpusPerSimulation
  total : plan.totalCpus = plan.initialWorkers * form.cpusPerSimulation
  initial : 1 ≤ plan.initialWorkers
  initial_le : plan.initialWorkers ≤ plan.simulationCount
  count_le : plan.simulationCount ≤ form.maxWorkersPerJob
  cpus : plan.initialWorkers * max 1 form.cpusPerSimulation ≤ node.effectiveFreeCpus
  memory : plan.simulationCount * form.memPerSimMb ≤ node.freeMemoryMb

theorem assign_fits (cs : List Candidate)
    (hcs : ∀ c ∈ cs, form.candidate c.node = some c) (nextSim remaining : ℤ) :
    List.Forall₂ form.Fits ((cs.take (form.assign nextSim remaining cs).length).map (·.node))
      (form.assign nextSim remaining cs) := by
  induction cs generalizing nextSim remaining with
  | nil => exact .nil
  | cons c cs ih =>
    rw [assign]
    split
    · exact .nil
    · rename_i hremaining
      refine .cons ?_ (ih (fun c' hc' ↦ hcs c' (List.mem_cons_of_mem _ hc')) _ _)
      obtain ⟨husable, hpartition, heq, hworkers, hbaseline⟩ :=
        form.candidate_some (hcs c List.mem_cons_self)
      have hc : c.workers = form.workers c.node := congrArg Candidate.workers heq
      have hb : c.baselineWorkers = form.baselineWorkers c.node :=
        congrArg Candidate.baselineWorkers heq
      have hcount : min c.workers remaining ≤ form.workers c.node := hc ▸ min_le_left _ _
      have hinitial : min (min c.workers remaining) c.baselineWorkers ≤
          form.baselineWorkers c.node := hb ▸ min_le_right _ _
      have hcpus : form.baselineWorkers c.node * max 1 form.cpusPerSimulation ≤
          c.node.effectiveFreeCpus := Int.ediv_mul_le _ (by omega)
      have hmemory : form.workersByMem c.node * form.memPerSimMb ≤ c.node.freeMemoryMb :=
        Int.ediv_mul_le _ (by rw [memPerSimMb]; omega)
      exact {
        usable := husable
        name := rfl
        partition := rfl
        asked := hpartition
        perWorker := rfl
        total := rfl
        initial := by dsimp only; omega
        initial_le := min_le_left _ _
        count_le := hcount.trans (min_le_right _ _)
        cpus := (mul_le_mul_of_nonneg_right hinitial (by omega)).trans hcpus
        memory := (mul_le_mul_of_nonneg_right
          (hcount.trans ((min_le_left _ _).trans (min_le_right _ _)))
          (by rw [memPerSimMb]; omega)).trans hmemory }

theorem planned_fits (nodes : List PestatNode) :
    ∃ hosts : List PestatNode, hosts.Subperm nodes ∧
      List.Forall₂ form.Fits hosts (form.planDynamicAllocations nodes) := by
  rw [planDynamicAllocations]
  split
  · exact ⟨[], List.nil_subperm, .nil⟩
  · refine ⟨_, ?_, form.assign_fits (form.candidates nodes) ?_ 1 _⟩
    · exact ((List.take_sublist _ _).map _).subperm.trans (form.candidates_subperm nodes)
    · intro c hc
      obtain ⟨node, -, hnode⟩ := form.mem_candidates hc
      obtain ⟨-, -, rfl, -⟩ := form.candidate_some hnode
      exact hnode

end JobForm

end SlurmScheduler.Packed
