import SlurmScheduler.Packed.Endings

namespace SlurmScheduler.Packed

open Capacity (PestatNode)

/-- The jobs that are created for a form, and how many of its simulations they take -/
inductive JobForm.Created (form : JobForm) : List Job → ℤ → Prop
  | packed : Created form form.createPacked (max 1 form.totalSimulations)
  | dynamic (nodes : List PestatNode) :
      Created form (form.createDynamic nodes) (min (max 0 form.totalSimulations) (form.capacity nodes))

/-- A run of the script of a job at some moment -/
def Job.Reaches (job : Job) (out : Except Exit Runner) : Prop :=
  ∃ now readings n, (∀ m, Readings.Waits (readings m)) ∧ job.script.run now readings n = out

section Ranges

variable {form : JobForm} {jobs : List Job} {count : ℤ}

theorem script_simulations {job : Job} (hstart : 1 ≤ job.simulationStart)
    (hcount : 1 ≤ job.simulationCount) : job.script.simulations = job.simulations := by
  have hstart' : job.script.simStart = job.simulationStart := by
    change max 1 (orElse job.simulationStart 1) = job.simulationStart
    rw [orElse, if_neg (by omega), max_eq_right hstart]
  have hcount' : job.script.simCount = job.simulationCount := by
    change max 1 (orElse job.simulationCount _) = job.simulationCount
    rw [orElse, if_neg (by omega), max_eq_right hcount]
  rw [Script.simulations, Job.simulations, hstart', hcount']

theorem assign_starts {plan : AllocationPlan} (cs : List Candidate)
    (hpos : ∀ c ∈ cs, 0 < c.workers) (nextSim remaining : ℤ) (hnext : 1 ≤ nextSim)
    (h : plan ∈ form.assign nextSim remaining cs) :
    1 ≤ plan.simulationStart ∧ 1 ≤ plan.simulationCount := by
  induction cs generalizing nextSim remaining with
  | nil => cases h
  | cons c cs ih =>
    have hc := hpos c List.mem_cons_self
    rw [JobForm.assign] at h
    split at h
    · cases h
    · rename_i hremaining
      rcases List.mem_cons.mp h with rfl | hrest
      · exact ⟨hnext, by dsimp only; omega⟩
      · exact ih (fun c' hc' ↦ hpos c' (List.mem_cons_of_mem _ hc')) _ _ (by omega) hrest

theorem fallback_starts {plan : AllocationPlan} {indices : List ℤ} (hindices : ∀ i ∈ indices, 0 ≤ i)
    (h : plan ∈ form.fallbackPlans indices) : 1 ≤ plan.simulationStart ∧ 1 ≤ plan.simulationCount := by
  have hper := form.one_le_perJob
  induction indices with
  | nil => cases h
  | cons i indices ih =>
    rw [JobForm.fallbackPlans] at h
    split at h
    · cases h
    · rename_i hleft
      rcases List.mem_cons.mp h with rfl | hrest
      · have hi : 0 ≤ i * form.perJob := mul_nonneg (hindices i List.mem_cons_self) (by omega)
        refine ⟨?_, ?_⟩
        · change 1 ≤ i * form.perJob + 1
          omega
        · change 1 ≤ min form.perJob (form.totalSimulations - i * form.perJob)
          omega
      · exact ih (fun j hj ↦ hindices j (List.mem_cons_of_mem _ hj)) hrest

theorem batchJob_starts {i : ℤ} (hi : 0 ≤ i) (hlast : i < ⌈(form.total : ℚ) / form.perJob⌉) :
    1 ≤ (form.batchJob i).simulationStart ∧ 1 ≤ (form.batchJob i).simulationCount := by
  have hper := form.one_le_perJob
  have hper' : (0 : ℚ) < form.perJob := by exact_mod_cast (by omega : (0 : ℤ) < form.perJob)
  have hmul : 0 ≤ i * form.perJob := mul_nonneg hi (by omega)
  have hless : i * form.perJob < form.total := by
    have hdiv := (lt_div_iff₀ hper').mp (Int.lt_ceil.mp hlast)
    exact_mod_cast hdiv
  constructor
  · change 1 ≤ i * form.perJob + 1
    omega
  · change 1 ≤ min form.perJob (form.total - i * form.perJob)
    omega

theorem created_starts (h : form.Created jobs count) {job : Job} (hjob : job ∈ jobs) :
    1 ≤ job.simulationStart ∧ 1 ≤ job.simulationCount := by
  cases h with
  | packed =>
    obtain ⟨i, hi, rfl⟩ := List.mem_map.mp hjob
    exact batchJob_starts (mem_pyRange.mp hi).1 (mem_pyRange.mp hi).2
  | dynamic nodes =>
    obtain ⟨plan, hplan, rfl⟩ := List.mem_map.mp hjob
    have hstarts : 1 ≤ plan.simulationStart ∧ 1 ≤ plan.simulationCount := by
      rw [JobForm.plans] at hplan
      split at hplan
      · exact fallback_starts (fun i hi ↦ (mem_pyRange.mp hi).1) hplan
      · rw [JobForm.planDynamicAllocations] at hplan
        split at hplan
        · cases hplan
        · exact assign_starts _ (fun c hc ↦ form.candidates_pos hc) 1 _ le_rfl hplan
    exact hstarts

theorem created_range (h : form.Created jobs count) :
    jobs.flatMap (·.script.simulations) = pyRange 1 (count + 1) := by
  have hscripts : jobs.flatMap (·.script.simulations) = jobs.flatMap Job.simulations := by
    apply List.flatMap_congr
    intro job hjob
    obtain ⟨hstart, hcount⟩ := created_starts h hjob
    exact script_simulations hstart hcount
  rw [hscripts]
  cases h with
  | packed => exact (form.created_simulations []).1
  | dynamic nodes => exact (form.created_simulations nodes).2

end Ranges

section Shares

variable {α β : Type} {f : α → List ℤ} {g : β → List ℤ} {as : List α} {bs : List β}

theorem shares_le (h : List.Forall₂ (fun a b ↦ (g b : Multiset ℤ) ≤ f a) as bs) :
    (bs.flatMap g : Multiset ℤ) ≤ as.flatMap f := by
  induction h with
  | nil => exact le_rfl
  | cons hab _ ih =>
    rw [List.flatMap_cons, List.flatMap_cons, ← Multiset.coe_add, ← Multiset.coe_add]
    exact add_le_add hab ih

theorem shares_whole (h : List.Forall₂ (fun a b ↦ (g b : Multiset ℤ) ≤ f a) as bs)
    (hwhole : (as.flatMap f).length ≤ (bs.flatMap g).length) :
    List.Forall₂ (fun a b ↦ (g b).Perm (f a)) as bs := by
  induction h with
  | nil => exact .nil
  | cons hab hrest ih =>
    have hhead := Multiset.card_le_card hab
    have htail := Multiset.card_le_card (shares_le hrest)
    rw [Multiset.coe_card, Multiset.coe_card] at hhead htail
    rw [List.flatMap_cons, List.flatMap_cons, List.length_append, List.length_append] at hwhole
    refine .cons ?_ (ih (by omega))
    exact Multiset.coe_eq_coe.mp (Multiset.eq_of_le_of_card_le hab (by
      rw [Multiset.coe_card, Multiset.coe_card]
      omega))

theorem shares_perm (h : List.Forall₂ (fun a b ↦ (g b).Perm (f a)) as bs) :
    (bs.flatMap g).Perm (as.flatMap f) := by
  induction h with
  | nil => exact .refl _
  | cons hab _ ih =>
    rw [List.flatMap_cons, List.flatMap_cons]
    exact hab.append ih

theorem exists_of_forall₂ {R : α → β → Prop} (h : List.Forall₂ R as bs) {b : β} (hb : b ∈ bs) :
    ∃ a, R a b := by
  induction h with
  | nil => cases hb
  | cons hab _ ih =>
    rcases List.mem_cons.mp hb with rfl | hrest
    · exact ⟨_, hab⟩
    · exact ih hrest

theorem forall₂_and {R S : α → β → Prop} (h : List.Forall₂ R as bs) (h' : List.Forall₂ S as bs) :
    List.Forall₂ (fun a b ↦ R a b ∧ S a b) as bs := by
  induction h with
  | nil => exact .nil
  | cons hab _ ih =>
    cases h' with
    | cons hab' hrest' => exact .cons ⟨hab, hab'⟩ (ih hrest')

end Shares

/-- At every moment of the jobs of a form, each simulation has been started by one of them at most
and at most once, and none that the form has not asked for; and the jobs all end with a zero if
and only if each simulation of theirs is done once, and none with another status. -/
theorem submission_done (form : JobForm) (jobs : List Job) (count : ℤ)
    (hcreated : form.Created jobs count) (outs : List (Except Exit Runner))
    (hreaches : List.Forall₂ Job.Reaches jobs outs) :
    (outs.flatMap fun out ↦ startedIds (outcome out).printed).Nodup ∧
      (∀ out ∈ outs, ∀ simId ∈ startedIds (outcome out).printed, 1 ≤ simId ∧ simId ≤ count) ∧
      ∀ exits : List Exit, outs = exits.map .error →
        ((∀ e ∈ exits, e.status = 0) ↔
          (exits.flatMap fun e ↦ finishedIds e.runner.printed).Perm (pyRange 1 (count + 1)) ∧
            ∀ e ∈ exits, ∀ simId rc, .finished simId rc ∈ e.runner.printed → rc = 0) := by
  have hrange := created_range hcreated
  have hreports : List.Forall₂ (fun job out ↦ job.script.Reports (outcome out).printed) jobs outs := by
    refine hreaches.imp ?_
    rintro job out ⟨now, readings, n, hwaits, rfl⟩
    exact (run_reports job now readings hwaits n).1
  have hstarted : (outs.flatMap fun out ↦ startedIds (outcome out).printed : Multiset ℤ) ≤
      pyRange 1 (count + 1) := by
    rw [← hrange]
    exact shares_le (hreports.imp fun _ _ h ↦ Multiset.coe_le.mpr h.started.sublist.subperm)
  refine ⟨?_, ?_, ?_⟩
  · exact Multiset.coe_nodup.mp (Multiset.nodup_of_le hstarted
      (Multiset.coe_nodup.mpr (nodup_pyRange _ _)))
  · intro out hout simId hsim
    have hmem := Multiset.mem_of_le hstarted (Multiset.mem_coe.mpr (List.mem_flatMap.mpr ⟨out, hout, hsim⟩))
    have hbounds := mem_pyRange.mp (Multiset.mem_coe.mp hmem)
    omega
  · rintro exits rfl
    rw [List.forall₂_map_right_iff] at hreaches hreports
    have hstatus : List.Forall₂ (fun job e ↦ (e.status = 0 ↔ job.script.AllDone e.runner.printed))
        jobs exits := by
      refine hreaches.imp ?_
      rintro job e ⟨now, readings, n, hwaits, hrun⟩
      exact (run_reports job now readings hwaits n).2 e hrun
    have hfinished : List.Forall₂ (fun (job : Job) (e : Exit) ↦
        (finishedIds e.runner.printed : Multiset ℤ) ≤ job.script.simulations) jobs exits :=
      hreports.imp fun _ _ h ↦ h.finished.trans (Multiset.coe_le.mpr h.started.sublist.subperm)
    constructor
    · intro hzero
      have hall : List.Forall₂ (fun (job : Job) (e : Exit) ↦ job.script.AllDone e.runner.printed)
          jobs exits := by
        rw [List.forall₂_iff_zip] at hstatus ⊢
        exact ⟨hstatus.1, fun hmem ↦
          (hstatus.2 hmem).mp (hzero _ (List.of_mem_zip hmem).2)⟩
      constructor
      · rw [← hrange]
        exact shares_perm (hall.imp fun _ _ h ↦ h.1)
      · intro e he
        obtain ⟨job, hjob⟩ := exists_of_forall₂ hall he
        exact hjob.2
    · rintro ⟨hperm, hclean⟩ e he
      have hwhole : List.Forall₂ (fun (job : Job) (e : Exit) ↦
          (finishedIds e.runner.printed).Perm job.script.simulations) jobs exits := by
        apply shares_whole hfinished
        rw [hrange, hperm.length_eq]
      have hboth := forall₂_and hstatus hwhole
      obtain ⟨job, hjob⟩ := exists_of_forall₂ hboth he
      exact hjob.1.mpr ⟨hjob.2, hclean e he⟩

def pairForm : JobForm := { totalSimulations := 2, simulationsPerJob := 1 }

theorem submission_done_pair : ∃ exits : List Exit,
    List.Forall₂ Job.Reaches pairForm.createPacked (exits.map .error) ∧
      (exits.flatMap fun e ↦ finishedIds e.runner.printed).Perm (pyRange 1 3) := by
  let exit (simId : ℤ) : Exit :=
    .completed ⟨[], [], 1, 0, [.started simId 1 1, .finished simId 0]⟩
  have hjobs : pairForm.createPacked = [pairForm.batchJob 0, pairForm.batchJob 1] := by
    with_unfolding_all rfl
  have hreaches : List.Forall₂ Job.Reaches pairForm.createPacked ([exit 1, exit 2].map .error) := by
    rw [hjobs]
    exact .cons ⟨0, fun _ ↦ smooth, 2, fun _ ↦ smooth_waits, by with_unfolding_all rfl⟩
      (.cons ⟨0, fun _ ↦ smooth, 2, fun _ ↦ smooth_waits, by with_unfolding_all rfl⟩ .nil)
  refine ⟨[exit 1, exit 2], hreaches, ?_⟩
  have hdone := (submission_done pairForm _ 2 .packed _ hreaches).2.2 [exit 1, exit 2] rfl
  refine (hdone.mp ?_).1
  intro e he
  rcases List.mem_pair.mp he with rfl | rfl
  · rfl
  · rfl

section Footprints

variable {form : JobForm} {job : Job} {jobs : List Job} {plan : AllocationPlan} {count : ℤ}

theorem cpusPerSim_eq (job : Job) : job.cpusPerSim = max 1 job.cpusPerSimulation := by
  rw [Job.cpusPerSim, orElse]
  split
  · omega
  · rfl

theorem initialLimit_le_simCount (job : Job) : job.initialLimit ≤ job.simCount := by
  have hone := job.one_le_simCount
  rw [Job.initialLimit]
  omega

theorem maxLimit_le_simCount (job : Job) : job.maxLimit ≤ job.simCount := by
  have hle := initialLimit_le_simCount job
  rw [Job.maxLimit]
  omega

theorem initialLimit_eq (hinitial : 1 ≤ job.initialWorkers)
    (hle : job.initialWorkers ≤ job.simulationCount) : job.initialLimit = job.initialWorkers := by
  have hcount : job.simCount = job.simulationCount := by
    rw [Job.simCount, orElse, if_neg (by omega), max_eq_right (by omega)]
  have hworkers : ∀ b : ℤ, orElse job.initialWorkers b = job.initialWorkers := by
    intro b
    rw [orElse, if_neg (by omega)]
  rw [Job.initialLimit, hworkers, hcount]
  omega

/-- The workers of the start fit in the processors that are asked for. -/
def Job.Roomy (job : Job) : Prop :=
  job.script.initialLimit * job.script.cpusPerSim ≤ job.script.allocatedCpus

theorem roomy_of_cpus (hinitial : 1 ≤ job.initialWorkers)
    (hle : job.initialWorkers ≤ job.simulationCount)
    (hcpus : job.cpus = 0 ∨ job.initialWorkers * job.cpusPerSim ≤ job.cpus) : job.Roomy := by
  have hlimit := initialLimit_eq hinitial hle
  change job.initialLimit * job.cpusPerSim ≤
    max job.cpusPerSim (orElse job.cpus (job.initialLimit * job.cpusPerSim))
  rw [orElse, hlimit]
  rcases hcpus with hzero | hsome
  · rw [if_pos hzero]
    exact le_max_right _ _
  · split
    · exact le_max_right _ _
    · exact hsome.trans (le_max_right _ _)

theorem roomy_planned (hcpus : 0 ≤ form.cpusPerSimulation) (hper : plan.cpusPerWorker = form.cpusPerSimulation)
    (hinitial : 1 ≤ plan.initialWorkers) (hle : plan.initialWorkers ≤ plan.simulationCount)
    (htotal : plan.totalCpus = plan.initialWorkers * form.cpusPerSimulation) :
    (form.plannedJob plan).Roomy := by
  apply roomy_of_cpus hinitial hle
  rcases hcpus.eq_or_lt with hzero | hpos
  · left
    change plan.totalCpus = 0
    rw [htotal, ← hzero, mul_zero]
  · right
    have hsim : (form.plannedJob plan).cpusPerSim = form.cpusPerSimulation := by
      rw [cpusPerSim_eq]
      change max 1 plan.cpusPerWorker = form.cpusPerSimulation
      rw [hper]
      omega
    rw [hsim]
    exact htotal.ge

theorem roomy_batch (i : ℤ) (hcount : 1 ≤ (form.batchJob i).simulationCount) :
    (form.batchJob i).Roomy := by
  have hinitial : 1 ≤ (form.batchJob i).initialWorkers := by
    change 1 ≤ min (form.batchJob i).simulationCount (max 1 _)
    omega
  have hle : (form.batchJob i).initialWorkers ≤ (form.batchJob i).simulationCount := min_le_left _ _
  apply roomy_of_cpus hinitial hle
  right
  rw [cpusPerSim_eq]
  exact mul_le_mul_of_nonneg_right hle (le_trans zero_le_one (le_max_left _ _))

theorem roomy_fallback (hcpus : 0 ≤ form.cpusPerSimulation) {indices : List ℤ}
    (hindices : ∀ i ∈ indices, 0 ≤ i) (h : plan ∈ form.fallbackPlans indices) :
    (form.plannedJob plan).Roomy := by
  have hcount := (fallback_starts hindices h).2
  have hplan : ∃ i, plan = form.fallbackPlan i := by
    clear hcount
    induction indices with
    | nil => cases h
    | cons i indices ih =>
      rw [JobForm.fallbackPlans] at h
      split at h
      · cases h
      · rcases List.mem_cons.mp h with rfl | hrest
        · exact ⟨i, rfl⟩
        · exact ih (fun j hj ↦ hindices j (List.mem_cons_of_mem _ hj)) hrest
  obtain ⟨i, rfl⟩ := hplan
  have hinitial : (form.fallbackPlan i).initialWorkers = (form.fallbackPlan i).simulationCount := by
    change min (form.fallbackPlan i).simulationCount (max 1 (form.fallbackPlan i).simulationCount) =
      (form.fallbackPlan i).simulationCount
    omega
  refine roomy_planned hcpus rfl (by omega) hinitial.le ?_
  rw [hinitial]
  rfl

theorem roomy_fits (hcpus : 0 ≤ form.cpusPerSimulation) {node : PestatNode}
    (h : form.Fits node plan) : (form.plannedJob plan).Roomy :=
  roomy_planned hcpus h.perWorker h.initial h.initial_le h.total

theorem created_roomy (hcpus : 0 ≤ form.cpusPerSimulation) (h : form.Created jobs count)
    (hjob : job ∈ jobs) : job.Roomy := by
  have hstarts := created_starts h hjob
  cases h with
  | packed =>
    obtain ⟨i, -, rfl⟩ := List.mem_map.mp hjob
    exact roomy_batch i hstarts.2
  | dynamic nodes =>
    obtain ⟨plan, hplan, rfl⟩ := List.mem_map.mp hjob
    rw [JobForm.plans] at hplan
    split at hplan
    · exact roomy_fallback hcpus (fun i hi ↦ (mem_pyRange.mp hi).1) hplan
    · obtain ⟨hosts, -, hfits⟩ := form.planned_fits nodes
      obtain ⟨node, hnode⟩ := exists_of_forall₂ hfits hplan
      exact roomy_fits hcpus hnode

theorem edited_roomy (job : Job) (simulationCount : ℤ) :
    (job.updateSimulationCount simulationCount).Roomy := by
  have hinitial : 1 ≤ (job.updateSimulationCount simulationCount).initialWorkers := le_max_left _ _
  have hle : (job.updateSimulationCount simulationCount).initialWorkers ≤
      (job.updateSimulationCount simulationCount).simulationCount := by
    change max 1 (min (max 1 simulationCount) _) ≤ max 1 simulationCount
    omega
  apply roomy_of_cpus hinitial hle
  right
  exact le_refl _

/-- A job on a node, in what the node has free -/
structure JobForm.JobFits (form : JobForm) (node : PestatNode) (job : Job) : Prop where
  usable : node.usable = true
  name : form.nodeName = "" → job.nodeName = node.hostname
  partition : job.partition = node.partition
  cpus : job.script.allocatedCpus ≤ node.effectiveFreeCpus
  memory : job.script.maxLimit * form.memPerSimMb ≤ node.freeMemoryMb

theorem jobFits_of_fits {node : PestatNode}
    (h : form.Fits node plan) : form.JobFits node (form.plannedJob plan) where
  usable := h.usable
  name hempty := by
    change (if form.nodeName = "" then plan.nodeName else form.nodeName) = node.hostname
    rw [if_pos hempty, h.name]
  partition := h.partition
  cpus := by
    have hlimit : (form.plannedJob plan).initialLimit = plan.initialWorkers :=
      initialLimit_eq h.initial h.initial_le
    have hsim : (form.plannedJob plan).cpusPerSim = max 1 form.cpusPerSimulation := by
      rw [cpusPerSim_eq]
      exact congrArg (max 1) h.perWorker
    have hfree := h.cpus
    have hone : max 1 form.cpusPerSimulation ≤ plan.initialWorkers * max 1 form.cpusPerSimulation :=
      le_mul_of_one_le_left (by omega) h.initial
    change max (form.plannedJob plan).cpusPerSim (orElse plan.totalCpus
      ((form.plannedJob plan).initialLimit * (form.plannedJob plan).cpusPerSim)) ≤ _
    rw [hlimit, hsim, orElse]
    apply max_le (hone.trans hfree)
    split
    · exact hfree
    · rw [h.total]
      exact (mul_le_mul_of_nonneg_left (le_max_right _ _) (le_trans zero_le_one h.initial)).trans hfree
  memory := by
    have hcount : (form.plannedJob plan).simCount = plan.simulationCount := by
      have hone := h.initial
      have hle := h.initial_le
      change max 1 (orElse plan.simulationCount _) = plan.simulationCount
      rw [orElse, if_neg (by omega), max_eq_right (by omega)]
    have hmax : (form.plannedJob plan).maxLimit ≤ plan.simulationCount :=
      hcount ▸ maxLimit_le_simCount _
    exact (mul_le_mul_of_nonneg_right hmax (le_trans zero_le_one (le_max_left _ _))).trans h.memory

/-- A job that is planned for a node stays within what the node has free at the highest limit of
its workers, each on a node of its own, and no job that is created, or edited after that, starts
more workers than it asks processors for. -/
theorem submission_fits (form : JobForm) (nodes : List PestatNode)
    (hcpus : 0 ≤ form.cpusPerSimulation) :
    (∃ hosts : List PestatNode, hosts.Subperm nodes ∧
      List.Forall₂ form.JobFits hosts ((form.planDynamicAllocations nodes).map form.plannedJob)) ∧
    ∀ jobs count, form.Created jobs count → ∀ job ∈ jobs, ∀ edits : List ℤ,
      (edits.foldl Job.updateSimulationCount job).Roomy := by
  constructor
  · obtain ⟨hosts, hsub, hfits⟩ := form.planned_fits nodes
    exact ⟨hosts, hsub, List.forall₂_map_right_iff.mpr (hfits.imp fun _ _ h ↦ jobFits_of_fits h)⟩
  · intro jobs count hcreated job hjob edits
    rcases List.eq_nil_or_concat edits with rfl | ⟨earlier, last, rfl⟩
    · exact created_roomy hcpus hcreated hjob
    · rw [List.concat_eq_append, List.foldl_append]
      exact edited_roomy _ last

def freeNode : PestatNode := { hostname := "n1", cpuTotal := 2, freeMemoryMb := 4096 }

theorem submission_fits_three :
    (({ totalSimulations := 3 } : JobForm).planDynamicAllocations [freeNode]).length = 1 ∧
      ∃ hosts : List PestatNode, hosts.Subperm [freeNode] ∧
        List.Forall₂ ({ totalSimulations := 3 } : JobForm).JobFits hosts
          ((({ totalSimulations := 3 } : JobForm).planDynamicAllocations [freeNode]).map
            ({ totalSimulations := 3 } : JobForm).plannedJob) :=
  ⟨by with_unfolding_all rfl, (submission_fits { totalSimulations := 3 } [freeNode] (by decide)).1⟩

end Footprints

end SlurmScheduler.Packed
