import SlurmScheduler.Dispatch.Schema
import Mathlib.Data.Prod.Lex
import Mathlib.Data.Rat.Floor

namespace SlurmScheduler.Capacity

open Dispatch (Allocation SchedulingProfile)

/-- A copy of a row with the annotations of the plan. -/
structure PlannedAllocation extends toRow : Allocation where
  reservedFeaSlots : ℕ := 0
  reservedSchedulingProfile : Option SchedulingProfile := none
  nodeWorkerCount : Option ℕ := none
  allocationWorkerCount : Option ℕ := none

/-- A standalone task that refers to no other one. -/
structure DemandTask where
  schedulingProfile : SchedulingProfile := .standard
  isFeaInfra : Bool := false
  cpus : ℕ := 1
  memoryMb : ℕ := 4096
  gpus : ℕ := 0
  maxWorkersPerNode : ℕ := 0
  nodeName : String := ""
  strictNode : Bool := false
  canRelaxPreferredNode : Bool := false
  cpusPos : 0 < cpus := by decide
  memoryPos : 0 < memoryMb := by decide

structure NodeShadow where
  cpuCapacity : ℤ
  ownedMemoryMb : ℤ
  requestedCpus : ℤ
  requestedMemoryMb : ℤ

structure FitSettings where
  feaMaxAttachPerLoop : ℤ := 4
  feaNodeRequestedCpuFactor : ℚ := 3 / 2
  gpuPrewarmCpuReservePerFreeGpu : ℕ := 0

/-- What a fit asks of the samples and of the tables, which do not see the annotations. -/
structure FitQueries where
  feaAllocationAcceptsTask : ℕ → Bool := fun _ ↦ true
  pestatFresh : ℕ → Bool := fun _ ↦ true
  memorySlots : ℕ → ℤ := fun _ ↦ 0
  baselineSlots : ℕ → ℤ := fun _ ↦ 0
  baselineSlotsLeft : ℕ → ℤ := fun _ ↦ 0
  cpuSlots : ℕ → ℤ := fun _ ↦ 0
  rampSlotsLeft : ℕ → ℤ := fun _ ↦ 0
  /-- `fea_allocation_pressures` -/
  requestedCpus : ℕ → ℕ := fun _ ↦ 0
  nodeFeaWorkers : String → ℕ := fun _ ↦ 0
  allocationWorkers : ℕ → ℕ := fun _ ↦ 0
  /-- `fea_node_resource_pressures`, of the nodes with two allocations or more -/
  nodeShadow : String → Option NodeShadow := fun _ ↦ none
  allocationModelScore : ℕ → ℤ := fun _ ↦ 0
  matchesConstraints : List PlannedAllocation → PlannedAllocation → DemandTask → Bool :=
    fun _ _ _ ↦ true
  gpuModelMatches : ℕ → Bool := fun _ ↦ true
  /-- The conditions of `warm_strict_fea_demand_pool_can_wait_for_task` on the row and the account. -/
  demandPoolWaits : ℕ → Bool := fun _ ↦ false

section Fit

variable (st : FitSettings) (q : FitQueries) (rows : List PlannedAllocation)
  (a : PlannedAllocation) (t : DemandTask)

def DemandTask.isFea : Bool := t.schedulingProfile == .feaBursty

/-- `reserved_fea_slots_for_node` -/
def reservedOnNode (nodeName : String) : ℕ :=
  ((rows.filter (·.nodeName == nodeName)).map (·.reservedFeaSlots)).sum

def isPending : Bool := a.state == .pending

def feaDynamicExtraSlots : ℤ :=
  if isPending a then st.feaMaxAttachPerLoop
  else if !q.pestatFresh a.id || !q.feaAllocationAcceptsTask a.id then 0
  else if 0 < q.baselineSlots a.id then
    max 0 (min (min (q.memorySlots a.id) (q.baselineSlots a.id))
      (min st.feaMaxAttachPerLoop (q.baselineSlotsLeft a.id)))
  else
    max 0 (min (min (q.memorySlots a.id) (q.cpuSlots a.id))
      (min st.feaMaxAttachPerLoop (q.rampSlotsLeft a.id)))

def feaNodeCpuCapRemaining : Option ℤ :=
  if isPending a || a.id == 0 || a.totalCpus == 0 then none
  else some (max 0
    ⌊(a.totalCpus * st.feaNodeRequestedCpuFactor - q.requestedCpus a.id) / (max 1 t.cpus : ℕ)⌋)

def feaEffectiveWorkerLimit (currentWorkers : ℤ) : ℤ :=
  let limit := if t.maxWorkersPerNode = 0 then currentWorkers + feaDynamicExtraSlots st q a
    else max t.maxWorkersPerNode (currentWorkers + feaDynamicExtraSlots st q a)
  match feaNodeCpuCapRemaining st q a t with
  | none => limit
  | some remaining => min limit (currentWorkers + remaining)

def feaNodeShadowCapRemaining : Option ℤ :=
  if isPending a || a.nodeName == "" then none else
  (q.nodeShadow a.nodeName).map fun shadow ↦
    if shadow.cpuCapacity ≤ 0 || shadow.ownedMemoryMb ≤ 0 then 0
    else
      let reserved : ℤ := reservedOnNode rows a.nodeName
      let cpus : ℤ := (max 1 t.cpus : ℕ)
      let memoryMb : ℤ := (max 1 t.memoryMb : ℕ)
      min (max 0 ((shadow.cpuCapacity - (shadow.requestedCpus + reserved * cpus)) / cpus))
        (max 0 ((shadow.ownedMemoryMb - (shadow.requestedMemoryMb + reserved * memoryMb)) / memoryMb))

def startupSlots : Option ℤ :=
  if isPending a && (a.resourcePool == "" || a.resourcePool == "cpu") &&
      0 < st.feaNodeRequestedCpuFactor then
    some (⌊a.totalCpus * min 1 st.feaNodeRequestedCpuFactor⌋ / (max 1 t.cpus : ℕ))
  else none

def gpuSlots : Option ℤ :=
  if 0 < t.gpus then some ((a.freeGpus / max 1 t.gpus : ℕ) : ℤ) else none

/-- `slots = min(slots, bound)`, where there is a bound -/
def cut (slots : ℤ) (bound : Option ℤ) : ℤ := bound.elim slots (min slots)

def nodeWorkers : ℤ := (a.nodeWorkerCount.getD (q.nodeFeaWorkers a.nodeName) : ℕ)

def feaSlots : ℤ :=
  let slots := cut st.feaMaxAttachPerLoop (startupSlots st a t)
  if a.nodeName != "" then
    let slots := min slots (max 0 (feaEffectiveWorkerLimit st q a t (nodeWorkers q a) -
      nodeWorkers q a - reservedOnNode rows a.nodeName))
    let slots := min slots (feaDynamicExtraSlots st q a)
    let slots := cut slots (gpuSlots a t)
    max 0 (cut slots (feaNodeShadowCapRemaining q rows a t))
  else
    let slots := if 0 < t.maxWorkersPerNode then
        min slots (max 0 (t.maxWorkersPerNode - q.allocationWorkers a.id))
      else slots
    let slots := cut slots (gpuSlots a t)
    max 0 (cut slots (feaNodeShadowCapRemaining q rows a t) - a.reservedFeaSlots)

def borrowableCpus : ℕ :=
  if 0 < a.totalGpus && a.freeGpus == a.totalGpus then a.freeCpus
  else a.freeCpus - a.freeGpus * st.gpuPrewarmCpuReservePerFreeGpu

def standardSlots : ℕ :=
  let memorySlots := a.freeMemoryMb / max 1 t.memoryMb
  if 0 < t.gpus then
    let gpuSlots := a.freeGpus / max 1 t.gpus
    let cpuSlots := if t.cpus ≤ 4 && 0 < gpuSlots then gpuSlots else a.freeCpus / max 1 t.cpus
    min memorySlots (min gpuSlots cpuSlots)
  else min memorySlots (borrowableCpus st a / max 1 t.cpus)

def fitSlotsForAllocation : ℤ :=
  if t.isFea then
    if t.isFeaInfra then 1
    else if !isPending a && !q.feaAllocationAcceptsTask a.id then 0
    else feaSlots st q rows a t
  else standardSlots st a t

def allocationCanRunTask (includePending : Bool) : Bool :=
  q.matchesConstraints rows a t &&
  if t.isFea then
    (t.gpus == 0 || (q.gpuModelMatches a.id && t.gpus ≤ a.freeGpus)) &&
      (t.isFeaInfra || includePending || q.feaAllocationAcceptsTask a.id)
  else t.memoryMb ≤ a.freeMemoryMb &&
    if 0 < t.gpus then q.gpuModelMatches a.id && t.gpus ≤ a.freeGpus && t.cpus ≤ a.freeCpus
    else if 0 < a.totalGpus then t.cpus ≤ borrowableCpus st a
    else t.cpus ≤ a.freeCpus

def PlannedAllocation.pendingView : PlannedAllocation := { a with state := .pending }

/-- `warm_strict_fea_demand_pool_can_wait_for_task` -/
def warmPoolCanWait : Bool :=
  a.state == .warm && q.demandPoolWaits a.id && t.isFea && t.strictNode && t.nodeName != "" &&
    a.nodeName == t.nodeName && allocationCanRunTask st q rows a.pendingView t true &&
    0 < fitSlotsForAllocation st q rows a.pendingView t

/-- `apply_inflight_capacity_reservation` -/
def PlannedAllocation.reserve : PlannedAllocation :=
  if t.isFea then
    { a with
      reservedSchedulingProfile := some .feaBursty
      reservedFeaSlots := a.reservedFeaSlots + 1
      freeGpus := a.freeGpus - t.gpus }
  else
    { a with
      reservedSchedulingProfile := some .standard
      freeMemoryMb := a.freeMemoryMb - t.memoryMb
      freeCpus := a.freeCpus - t.cpus
      allocationWorkerCount := a.allocationWorkerCount.map (· + 1)
      freeGpus := a.freeGpus - t.gpus }

end Fit

section Reserve

variable (st : FitSettings) (q : FitQueries) (includePending : Bool)

def effectiveTaskVariants (t : DemandTask) : List DemandTask :=
  if t.canRelaxPreferredNode then [t, { t with nodeName := "" }] else [t]

def fitting (rows : List PlannedAllocation) (t : DemandTask) : List PlannedAllocation :=
  rows.filter fun a ↦ allocationCanRunTask st q rows a t includePending &&
    0 < fitSlotsForAllocation st q rows a t

def waiting (rows : List PlannedAllocation) (t : DemandTask) : List PlannedAllocation :=
  rows.filter fun a ↦ warmPoolCanWait st q rows a t

def preference (t : DemandTask) (a : PlannedAllocation) : ℤ ×ₗ ℕ ×ₗ ℕ ×ₗ ℕ :=
  toLex (q.allocationModelScore a.id, toLex (a.freeGpus, toLex
    (if 0 < t.gpus then a.freeCpus else borrowableCpus st a, a.freeMemoryMb)))

/-- Where a task is reserved: on an allocation that it fits, or on a warm pool that waits for it. -/
inductive Reserved
  | nowhere
  | fits (allocationId : ℕ)
  | waits (allocationId : ℕ)
  deriving DecidableEq

def reserveOn (rows : List PlannedAllocation) (aid : ℕ) (t : DemandTask) :
    List PlannedAllocation :=
  rows.map fun a ↦ if a.id = aid then a.reserve t else a

def maxBy {α κ : Type} [LinearOrder κ] (key : α → κ) : List α → Option α
  | [] => none
  | a :: l =>
      match maxBy key l with
      | none => some a
      | some b => if key a < key b then some b else some a

def reserveInflightCapacityForTask (rows : List PlannedAllocation) (t : DemandTask) :
    Reserved × List PlannedAllocation :=
  match (effectiveTaskVariants t).findSome? fun t' ↦
      (maxBy (preference st q t) (fitting st q includePending rows t')).map fun a ↦ (a.id, t') with
  | some (aid, t') => (.fits aid, reserveOn rows aid t')
  | none =>
      if !includePending then (.nowhere, rows) else
      match (effectiveTaskVariants t).findSome? fun t' ↦
          (maxBy (preference st q t) (waiting st q rows t')).map fun a ↦ (a.id, t') with
      | some (aid, t') => (.waits aid, reserveOn rows aid t')
      | none => (.nowhere, rows)

def reserveEach (t : DemandTask) : ℕ → List PlannedAllocation → List Reserved
  | 0, _ => []
  | n + 1, rows =>
      let first := reserveInflightCapacityForTask st q includePending rows t
      first.1 :: reserveEach t n first.2

end Reserve

def Steps (x x' : ℤ) : Prop := x' ≤ x ∧ (1 ≤ x → x' < x)

section Cut

variable {x x' : ℤ} {b b' : Option ℤ}

theorem rel_imp {r s : ℤ → ℤ → Prop} (h : ∀ l l', r l l' → s l l') (hb : Option.Rel r b b') :
    Option.Rel s b b' := by
  cases hb with
  | some hl => exact .some (h _ _ hl)
  | none => exact .none

theorem cut_le_cut (h : x' ≤ x) (hb : Option.Rel (fun l l' ↦ l' ≤ l) b b') :
    cut x' b' ≤ cut x b := by
  cases hb with
  | some hl => exact min_le_min h hl
  | none => exact h

theorem Steps.cut (h : Steps x x') (hb : Option.Rel Steps b b') :
    Steps (cut x b) (cut x' b') := by
  cases hb with
  | @some l l' hl =>
      obtain ⟨hle, hlt⟩ := h
      obtain ⟨hle', hlt'⟩ := hl
      refine ⟨min_le_min hle hle', fun hpos ↦ ?_⟩
      unfold Capacity.cut at hpos ⊢
      dsimp only [Option.elim] at hpos ⊢
      have hx := hlt (hpos.trans (min_le_left _ _))
      have hl := hlt' (hpos.trans (min_le_right _ _))
      omega
  | none => exact h

theorem steps_div {n d : ℕ} (hd : 0 < d) :
    Steps ((n / max 1 d : ℕ) : ℤ) (((n - d) / max 1 d : ℕ) : ℤ) := by
  rw [max_eq_right hd]
  refine ⟨?_, fun hpos ↦ ?_⟩
  · exact Int.ofNat_le.mpr (Nat.div_le_div_right (Nat.sub_le _ _))
  · have hle : d ≤ n := by
      by_contra hlt
      rw [Nat.div_eq_of_lt (not_le.mp hlt)] at hpos
      omega
    have hnext := Nat.div_eq_sub_div hd hle
    omega

/-- Declared units of which each reservation takes as many. -/
theorem div_reserved (capacity requested reserved : ℤ) {d : ℕ} (hd : 0 < d) :
    (capacity - (requested + reserved * d)) / d = (capacity - requested) / d - reserved := by
  have hsplit : capacity - (requested + reserved * d) = capacity - requested + -reserved * d := by
    ring
  rw [hsplit, Int.add_mul_ediv_right _ _ (by omega)]
  ring

end Cut

section Changes

variable (st : FitSettings) (q : FitQueries) {rows : List PlannedAllocation}
  {a : PlannedAllocation} {t : DemandTask}

@[simp] theorem reserve_id : (a.reserve t).id = a.id := by
  unfold PlannedAllocation.reserve
  split <;> rfl

@[simp] theorem reserve_nodeName : (a.reserve t).nodeName = a.nodeName := by
  unfold PlannedAllocation.reserve
  split <;> rfl

@[simp] theorem reserve_freeGpus : (a.reserve t).freeGpus = a.freeGpus - t.gpus := by
  unfold PlannedAllocation.reserve
  split <;> rfl

theorem reserve_reservedFeaSlots (h : t.isFea = true) :
    (a.reserve t).reservedFeaSlots = a.reservedFeaSlots + 1 := by
  rw [PlannedAllocation.reserve, if_pos h]

theorem le_reserve_reservedFeaSlots :
    a.reservedFeaSlots ≤ (a.reserve t).reservedFeaSlots := by
  unfold PlannedAllocation.reserve
  split
  · exact Nat.le_succ _
  · exact le_rfl

theorem ids_reserveOn (aid : ℕ) : (reserveOn rows aid t).map (·.id) = rows.map (·.id) := by
  unfold reserveOn
  rw [List.map_map]
  refine List.map_congr_left fun a _ ↦ ?_
  dsimp only [Function.comp_apply]
  split
  · exact reserve_id
  · rfl

theorem reservedOnNode_cons (nodeName : String) : reservedOnNode (a :: rows) nodeName =
    (if a.nodeName = nodeName then a.reservedFeaSlots else 0) + reservedOnNode rows nodeName := by
  by_cases h : a.nodeName = nodeName <;> simp [reservedOnNode, h]

theorem reservedOnNode_le (aid : ℕ) (nodeName : String) :
    reservedOnNode rows nodeName ≤ reservedOnNode (reserveOn rows aid t) nodeName := by
  induction rows with
  | nil => exact le_rfl
  | cons b rows ih =>
      unfold reserveOn at ih ⊢
      rw [List.map_cons, reservedOnNode_cons, reservedOnNode_cons]
      have hslots := le_reserve_reservedFeaSlots (a := b) (t := t)
      refine Nat.add_le_add ?_ ih
      by_cases hb : b.id = aid
      · rw [if_pos hb, reserve_nodeName]
        split
        · exact hslots
        · exact le_rfl
      · rw [if_neg hb]

/-- A bursty worker takes a slot of the node of its allocation. -/
theorem reservedOnNode_lt (ha : a ∈ rows) (h : t.isFea = true) :
    reservedOnNode rows a.nodeName < reservedOnNode (reserveOn rows a.id t) a.nodeName := by
  induction rows with
  | nil => cases ha
  | cons b rows ih =>
      have hmono : reservedOnNode rows a.nodeName ≤
          reservedOnNode (reserveOn rows a.id t) a.nodeName := reservedOnNode_le a.id a.nodeName
      have hslots := le_reserve_reservedFeaSlots (a := b) (t := t)
      unfold reserveOn at ih hmono ⊢
      rw [List.map_cons, reservedOnNode_cons, reservedOnNode_cons]
      rcases List.mem_cons.mp ha with rfl | hlater
      · rw [if_pos rfl, if_pos rfl, reserve_nodeName, if_pos rfl, reserve_reservedFeaSlots h]
        omega
      · have hlt := ih hlater
        refine Nat.add_lt_add_of_le_of_lt ?_ hlt
        by_cases hb : b.id = a.id
        · rw [if_pos hb, reserve_nodeName]
          split
          · exact hslots
          · exact le_rfl
        · rw [if_neg hb]

variable (rows a t)

/-- The part of the fit that reservations lower. -/
def loweredSlots : ℤ :=
  if t.isFea then
    if !isPending a && !q.feaAllocationAcceptsTask a.id then 0
    else if a.nodeName != "" then
      cut (cut (max 0 (feaEffectiveWorkerLimit st q a t (nodeWorkers q a) - nodeWorkers q a -
        reservedOnNode rows a.nodeName)) (gpuSlots a t)) (feaNodeShadowCapRemaining q rows a t)
    else
      let slots := cut st.feaMaxAttachPerLoop (startupSlots st a t)
      let slots := if 0 < t.maxWorkersPerNode then
          min slots (max 0 (t.maxWorkersPerNode - q.allocationWorkers a.id))
        else slots
      cut slots (gpuSlots a t) - a.reservedFeaSlots
  else standardSlots st a t

/-- The part that they do not lower: the attach limit of a loop, the slots of a new pool and the
measured ramp. -/
def steadySlots : Option ℤ :=
  if t.isFea && a.nodeName != "" then
    some (min (cut st.feaMaxAttachPerLoop (startupSlots st a t)) (feaDynamicExtraSlots st q a))
  else none

variable {rows a t}

theorem fit_eq (hhost : t.isFea = true → t.isFeaInfra = false) :
    fitSlotsForAllocation st q rows a t =
      max 0 (cut (loweredSlots st q rows a t) (steadySlots st q a t)) := by
  unfold fitSlotsForAllocation loweredSlots steadySlots
  cases hfea : t.isFea with
  | false => simp [cut]
  | true =>
      rw [hhost hfea]
      simp only [if_true, Bool.true_and, Bool.false_eq_true, if_false]
      by_cases haccepts : (!isPending a && !q.feaAllocationAcceptsTask a.id) = true
      · simp only [haccepts, if_true, cut]
        cases (if a.nodeName != "" then some _ else none : Option ℤ) <;> simp
      · simp only [haccepts, Bool.false_eq_true, if_false]
        unfold feaSlots
        by_cases hnode : (a.nodeName != "") = true
        · simp only [hnode, if_true]
          generalize cut st.feaMaxAttachPerLoop (startupSlots st a t) = startup
          generalize feaDynamicExtraSlots st q a = extra
          unfold cut
          cases gpuSlots a t <;> cases feaNodeShadowCapRemaining q rows a t <;>
            dsimp only [Option.elim] <;> omega
        · have hblank : a.nodeName = "" := by simpa using hnode
          have hshadow : feaNodeShadowCapRemaining q rows a t = none := by
            simp [feaNodeShadowCapRemaining, hblank]
          simp only [hnode, hshadow, cut, Option.elim, Bool.false_eq_true, if_false]

theorem shadow_rel {later : List PlannedAllocation} {a' : PlannedAllocation}
    (hpending : isPending a' = isPending a) (hname : a'.nodeName = a.nodeName)
    (hle : reservedOnNode rows a.nodeName ≤ reservedOnNode later a.nodeName) :
    Option.Rel (fun l l' ↦ l' ≤ l ∧
        (reservedOnNode rows a.nodeName < reservedOnNode later a.nodeName → Steps l l'))
      (feaNodeShadowCapRemaining q rows a t) (feaNodeShadowCapRemaining q later a' t) := by
  unfold feaNodeShadowCapRemaining
  rw [hpending, hname]
  split
  · exact .none
  · cases q.nodeShadow a.nodeName with
    | none => exact .none
    | some shadow =>
        refine .some ?_
        dsimp only
        by_cases hnone : (decide (shadow.cpuCapacity ≤ 0) || decide (shadow.ownedMemoryMb ≤ 0)) =
            true
        · rw [if_pos hnone, if_pos hnone]
          exact ⟨le_rfl, fun _ ↦ ⟨le_rfl, fun hpos ↦ absurd hpos (by decide)⟩⟩
        · rw [if_neg hnone, if_neg hnone, max_eq_right (Nat.succ_le_of_lt t.cpusPos),
            max_eq_right (Nat.succ_le_of_lt t.memoryPos), div_reserved _ _ _ t.cpusPos,
            div_reserved _ _ _ t.memoryPos, div_reserved _ _ _ t.cpusPos,
            div_reserved _ _ _ t.memoryPos]
          unfold Steps
          omega

theorem gpuSlots_steps : Option.Rel Steps (gpuSlots a t) (gpuSlots (a.reserve t) t) := by
  unfold gpuSlots
  by_cases hgpus : 0 < t.gpus
  · rw [if_pos hgpus, if_pos hgpus, reserve_freeGpus]
    exact .some (steps_div hgpus)
  · rw [if_neg hgpus, if_neg hgpus]
    exact .none

theorem feaEffectiveWorkerLimit_reserve (n : ℤ) :
    feaEffectiveWorkerLimit st q (a.reserve t) t n = feaEffectiveWorkerLimit st q a t n := by
  unfold PlannedAllocation.reserve
  split <;> rfl

theorem startupSlots_reserve : startupSlots st (a.reserve t) t = startupSlots st a t := by
  unfold PlannedAllocation.reserve
  split <;> rfl

theorem nodeWorkers_reserve : nodeWorkers q (a.reserve t) = nodeWorkers q a := by
  unfold PlannedAllocation.reserve
  split <;> rfl

theorem isPending_reserve : isPending (a.reserve t) = isPending a := by
  unfold PlannedAllocation.reserve
  split <;> rfl

theorem standardSlots_steps (h : t.isFea = false) :
    Steps (standardSlots st a t) (standardSlots st (a.reserve t) t) := by
  have hreserve : a.reserve t = { a with
      reservedSchedulingProfile := some .standard
      freeMemoryMb := a.freeMemoryMb - t.memoryMb
      freeCpus := a.freeCpus - t.cpus
      allocationWorkerCount := a.allocationWorkerCount.map (· + 1)
      freeGpus := a.freeGpus - t.gpus } := by
    rw [PlannedAllocation.reserve, if_neg (by simp [h])]
  have hmemory := steps_div (n := a.freeMemoryMb) t.memoryPos
  rw [hreserve]
  unfold standardSlots
  dsimp only
  by_cases hgpus : 0 < t.gpus
  · have hgpu := steps_div (n := a.freeGpus) hgpus
    have hcpu := steps_div (n := a.freeCpus) t.cpusPos
    rw [if_pos hgpus, if_pos hgpus]
    unfold Steps at hmemory hgpu hcpu ⊢
    generalize a.freeMemoryMb / max 1 t.memoryMb = memory at *
    generalize (a.freeMemoryMb - t.memoryMb) / max 1 t.memoryMb = memory' at *
    generalize a.freeGpus / max 1 t.gpus = gpu at *
    generalize (a.freeGpus - t.gpus) / max 1 t.gpus = gpu' at *
    generalize a.freeCpus / max 1 t.cpus = cpu at *
    generalize (a.freeCpus - t.cpus) / max 1 t.cpus = cpu' at *
    by_cases hfew : t.cpus ≤ 4
    · simp only [hfew, decide_true, Bool.true_and, decide_eq_true_eq]
      split <;> split <;> omega
    · simp only [hfew, decide_false, Bool.false_and, Bool.false_eq_true, if_false]
      omega
  · have hborrow : borrowableCpus st { a with
        reservedSchedulingProfile := some .standard
        freeMemoryMb := a.freeMemoryMb - t.memoryMb
        freeCpus := a.freeCpus - t.cpus
        allocationWorkerCount := a.allocationWorkerCount.map (· + 1)
        freeGpus := a.freeGpus - t.gpus } = borrowableCpus st a - t.cpus := by
      have hnone : t.gpus = 0 := Nat.eq_zero_of_not_pos hgpus
      unfold borrowableCpus
      dsimp only
      rw [hnone, Nat.sub_zero]
      split
      · rfl
      · omega
    have hcpu := steps_div (n := borrowableCpus st a) t.cpusPos
    rw [if_neg hgpus, if_neg hgpus, hborrow]
    unfold Steps at hmemory hcpu ⊢
    omega

theorem loweredSlots_self (ha : a ∈ rows) : Steps (loweredSlots st q rows a t)
    (loweredSlots st q (reserveOn rows a.id t) (a.reserve t) t) := by
  unfold loweredSlots
  cases hfea : t.isFea with
  | false => exact standardSlots_steps st hfea
  | true =>
      have hnode := reservedOnNode_lt ha hfea
      simp only [if_true, isPending_reserve, reserve_id, reserve_nodeName,
        feaEffectiveWorkerLimit_reserve, startupSlots_reserve, nodeWorkers_reserve]
      split
      · exact ⟨le_rfl, fun hpos ↦ absurd hpos (by decide)⟩
      split
      · refine Steps.cut (Steps.cut ?_ gpuSlots_steps) ?_
        · unfold Steps
          omega
        · exact rel_imp (fun _ _ h ↦ h.2 hnode)
            (shadow_rel q isPending_reserve reserve_nodeName hnode.le)
      · rw [reserve_reservedFeaSlots hfea]
        generalize (if 0 < t.maxWorkersPerNode then _ else _ : ℤ) = slots
        have hgpu : cut slots (gpuSlots (a.reserve t) t) ≤ cut slots (gpuSlots a t) :=
          cut_le_cut le_rfl (rel_imp (fun _ _ h ↦ h.1) gpuSlots_steps)
        unfold Steps
        omega

/-- A reservation on another allocation raises none of its bounds. -/
theorem loweredSlots_other (aid : ℕ) : loweredSlots st q (reserveOn rows aid t) a t ≤
    loweredSlots st q rows a t := by
  have hnode : reservedOnNode rows a.nodeName ≤
      reservedOnNode (reserveOn rows aid t) a.nodeName := reservedOnNode_le aid a.nodeName
  unfold loweredSlots
  split
  · split
    · exact le_rfl
    split
    · refine cut_le_cut (cut_le_cut ?_ ?_) ?_
      · omega
      · cases gpuSlots a t with
        | some l => exact .some le_rfl
        | none => exact .none
      · exact rel_imp (fun _ _ h ↦ h.1) (shadow_rel q rfl rfl hnode)
    · exact le_rfl
  · exact le_rfl

end Changes

section Runs

variable {st : FitSettings} {q : FitQueries} {includePending : Bool}
  {rows later : List PlannedAllocation} {a : PlannedAllocation} {t : DemandTask}

theorem mem_maxBy {α κ : Type} [LinearOrder κ] {key : α → κ} {l : List α} {x : α}
    (h : maxBy key l = some x) : x ∈ l := by
  induction l generalizing x with
  | nil => cases h
  | cons y l ih =>
      rw [maxBy] at h
      split at h
      · cases h
        exact List.mem_cons_self
      · rename_i z hz
        split at h <;> cases h
        · exact List.mem_cons_of_mem _ (ih hz)
        · exact List.mem_cons_self

/-- A variant of a task differs in the node that it names only. -/
theorem variant_alike (st : FitSettings) (q : FitQueries) (rows : List PlannedAllocation)
    (a : PlannedAllocation) {t' : DemandTask} (h : t' ∈ effectiveTaskVariants t) :
    reserveOn rows a.id t' = reserveOn rows a.id t ∧
      fitSlotsForAllocation st q rows a t' = fitSlotsForAllocation st q rows a t := by
  unfold effectiveTaskVariants at h
  split at h
  · rcases List.mem_cons.mp h with rfl | h
    · exact ⟨rfl, rfl⟩
    · rw [List.mem_singleton.mp h]
      exact ⟨rfl, rfl⟩
  · rw [List.mem_singleton.mp h]
    exact ⟨rfl, rfl⟩

/-- Where a task is reserved, and what becomes of the rows. -/
theorem reserve_cases (st : FitSettings) (q : FitQueries) (includePending : Bool)
    (rows : List PlannedAllocation) (t : DemandTask) :
    (∃ a ∈ rows, 0 < fitSlotsForAllocation st q rows a t ∧
        reserveInflightCapacityForTask st q includePending rows t =
          (.fits a.id, reserveOn rows a.id t)) ∨
      (∃ a ∈ rows, reserveInflightCapacityForTask st q includePending rows t =
          (.waits a.id, reserveOn rows a.id t)) ∨
      reserveInflightCapacityForTask st q includePending rows t = (.nowhere, rows) := by
  unfold reserveInflightCapacityForTask
  split
  · rename_i aid t' hfound
    obtain ⟨t'', hvariant, hmax⟩ := List.exists_of_findSome?_eq_some hfound
    obtain ⟨a, ha, heq⟩ := Option.map_eq_some_iff.mp hmax
    cases heq
    have hmem := List.mem_filter.mp (mem_maxBy ha)
    simp only [Bool.and_eq_true, decide_eq_true_eq] at hmem
    obtain ⟨hrows, hfit⟩ := variant_alike st q rows a hvariant
    exact .inl ⟨a, hmem.1, hfit ▸ hmem.2.2, by rw [hrows]⟩
  · split
    · exact .inr (.inr rfl)
    split
    · rename_i aid t' hfound
      obtain ⟨t'', hvariant, hmax⟩ := List.exists_of_findSome?_eq_some hfound
      obtain ⟨a, ha, heq⟩ := Option.map_eq_some_iff.mp hmax
      cases heq
      obtain ⟨hrows, -⟩ := variant_alike st q rows a hvariant
      exact .inr (.inl ⟨a, (List.mem_filter.mp (mem_maxBy ha)).1, by rw [hrows]⟩)
    · exact .inr (.inr rfl)

theorem mem_reserveOn (ha : a ∈ rows) (aid : ℕ) :
    (if a.id = aid then a.reserve t else a) ∈ reserveOn rows aid t := List.mem_map_of_mem ha

theorem cut_le (x : ℤ) (b : Option ℤ) : cut x b ≤ x := by
  cases b with
  | none => exact le_rfl
  | some m => exact min_le_left _ _

/-- The tasks that an allocation gets because they fit are no more than the part of the fit that
they lower. -/
theorem fits_le_lowered (hhost : t.isFea = true → t.isFeaInfra = false) (n : ℕ) (ha : a ∈ rows)
    (hids : (rows.map (·.id)).Nodup) :
    ((reserveEach st q includePending t n rows).count (.fits a.id) : ℤ) ≤
      max 0 (loweredSlots st q rows a t) := by
  induction n generalizing rows a with
  | zero => exact le_max_left _ _
  | succ n ih =>
      rw [reserveEach]
      rcases reserve_cases st q includePending rows t with ⟨b, hb, hfit, hstep⟩ | ⟨b, hb, hstep⟩ |
        hstep <;> rw [hstep] <;> dsimp only
      · have hmem := mem_reserveOn (t := t) ha b.id
        have hrest := ih hmem ((ids_reserveOn b.id).symm ▸ hids)
        by_cases hsame : a.id = b.id
        · obtain rfl : a = b := List.inj_on_of_nodup_map hids ha hb hsame
          rw [if_pos rfl, reserve_id] at hrest
          have hpos : 1 ≤ loweredSlots st q rows a t := by
            rw [fit_eq st q hhost] at hfit
            have hcut := cut_le (loweredSlots st q rows a t) (steadySlots st q a t)
            omega
          have hlower := (loweredSlots_self st q (t := t) ha).2 hpos
          rw [List.count_cons_self]
          omega
        · rw [if_neg hsame] at hrest
          have hlower : loweredSlots st q (reserveOn rows b.id t) a t ≤
              loweredSlots st q rows a t := loweredSlots_other st q b.id
          rw [List.count_cons_of_ne (by simpa using fun h ↦ hsame h.symm)]
          omega
      · have hmem := mem_reserveOn (t := t) ha b.id
        have hrest := ih hmem ((ids_reserveOn b.id).symm ▸ hids)
        rw [List.count_cons_of_ne (by simp)]
        by_cases hsame : a.id = b.id
        · obtain rfl : a = b := List.inj_on_of_nodup_map hids ha hb hsame
          rw [if_pos rfl, reserve_id] at hrest
          have hlower := (loweredSlots_self st q (t := t) ha).1
          omega
        · rw [if_neg hsame] at hrest
          have hlower : loweredSlots st q (reserveOn rows b.id t) a t ≤
              loweredSlots st q rows a t := loweredSlots_other st q b.id
          omega
      · rw [List.count_cons_of_ne (by simp)]
        exact ih ha hids

/-- A live allocation whose tasks name no worker limit is bounded by what reservations lower. -/
theorem lowered_le_steady_of_live (hlive : isPending a = false) (hlimit : t.maxWorkersPerNode = 0) :
    ∀ s ∈ steadySlots st q a t,
      loweredSlots st q rows a t ≤ s ∨ loweredSlots st q rows a t ≤ 0 := by
  intro s hs
  unfold steadySlots at hs
  split at hs
  · rename_i hnamed
    cases hs
    simp only [Bool.and_eq_true] at hnamed
    have hstartup : startupSlots st a t = none := by simp [startupSlots, hlive]
    have hextra : 0 ≤ feaDynamicExtraSlots st q a ∧
        (feaDynamicExtraSlots st q a ≤ st.feaMaxAttachPerLoop ∨
          feaDynamicExtraSlots st q a = 0) := by
      unfold feaDynamicExtraSlots
      rw [hlive]
      simp only [Bool.false_eq_true, if_false]
      split
      · exact ⟨le_rfl, .inr rfl⟩
      split <;> omega
    have hworkers : feaEffectiveWorkerLimit st q a t (nodeWorkers q a) ≤
        nodeWorkers q a + feaDynamicExtraSlots st q a := by
      unfold feaEffectiveWorkerLimit
      rw [if_pos hlimit]
      split
      · exact le_rfl
      · exact min_le_left _ _
    rw [hstartup]
    unfold loweredSlots
    rw [if_pos hnamed.1, if_pos hnamed.2]
    split
    · exact .inr le_rfl
    · have hcut := (cut_le (cut (max 0 (feaEffectiveWorkerLimit st q a t (nodeWorkers q a) -
        nodeWorkers q a - reservedOnNode rows a.nodeName)) (gpuSlots a t))
          (feaNodeShadowCapRemaining q rows a t)).trans (cut_le _ _)
      unfold cut at hcut ⊢
      dsimp only [Option.elim] at hcut ⊢
      omega
  · cases hs

end Runs

/-- An allocation gets, because they fit, no more of the identical tasks than its fit before the
first of them; where the task is bursty and the allocation names its node, as long as the fit is
bounded by what reservations lower.  Hosts of the pool are apart. -/
theorem reservations_within_fit (st : FitSettings) (q : FitQueries) (includePending : Bool)
    (n : ℕ) {rows : List PlannedAllocation} {a : PlannedAllocation} {t : DemandTask}
    (hids : (rows.map (·.id)).Nodup) (ha : a ∈ rows)
    (hhost : t.isFea = true → t.isFeaInfra = false)
    (hlower : ∀ s ∈ steadySlots st q a t,
      loweredSlots st q rows a t ≤ s ∨ loweredSlots st q rows a t ≤ 0) :
    ((reserveEach st q includePending t n rows).count (.fits a.id) : ℤ) ≤
      fitSlotsForAllocation st q rows a t := by
  refine (fits_le_lowered hhost n ha hids).trans_eq ?_
  rw [fit_eq st q hhost]
  cases hsteady : steadySlots st q a t with
  | none => rfl
  | some s =>
      have hbound := hlower s hsteady
      unfold cut
      dsimp only [Option.elim]
      omega

def twoPools : List PlannedAllocation :=
  [{ id := 1, totalCpus := 16, freeCpus := 16, totalMemoryMb := 65536, freeMemoryMb := 65536 },
   { id := 2, nodeName := "n2", state := .active, totalCpus := 16, freeCpus := 16
     totalMemoryMb := 65536, freeMemoryMb := 65536 }]

def solver : DemandTask where
  schedulingProfile := .feaBursty
  cpus := 4

theorem reservations_within_fit_two_pools :
    ((reserveEach {} { baselineSlots := fun _ ↦ 3, memorySlots := fun _ ↦ 8
                       baselineSlotsLeft := fun _ ↦ 4 } true solver 9 twoPools).count
        (.fits 2) : ℤ) ≤
      fitSlotsForAllocation {} { baselineSlots := fun _ ↦ 3, memorySlots := fun _ ↦ 8
                                 baselineSlotsLeft := fun _ ↦ 4 } twoPools
        { id := 2, nodeName := "n2", state := .active, totalCpus := 16, freeCpus := 16
          totalMemoryMb := 65536, freeMemoryMb := 65536 } solver :=
  reservations_within_fit _ _ true 9 (by decide) (by simp [twoPools]) (fun _ ↦ rfl)
    (lowered_le_steady_of_live rfl rfl)

/-- The slots of a new pool on a node are not lowered, so they do not bound the workers. -/
example :
    let opened : PlannedAllocation := { id := 1, nodeName := "n1", totalCpus := 8, freeCpus := 8 }
    fitSlotsForAllocation {} {} [opened] opened solver = 2 ∧
      (reserveEach {} {} true solver 9 [opened]).count (.fits 1) = 4 := by decide +kernel

def pressedPool : PlannedAllocation where
  id := 1
  nodeName := "n1"
  state := .warm
  slurmJobId := "7"
  drainReason := "queued FEA demand"
  totalCpus := 16
  freeCpus := 16
  totalMemoryMb := 65536
  freeMemoryMb := 65536

def strictSolver : DemandTask where
  schedulingProfile := .feaBursty
  cpus := 4
  nodeName := "n1"
  strictNode := true

def poolHost : DemandTask where
  schedulingProfile := .feaBursty
  isFeaInfra := true
  cpus := 13

/-- Hosts of the pool always have a fit of one, and a warm pool keeps tasks that do not fit it. -/
theorem reservations_beyond_fit :
    (¬ ∀ (st : FitSettings) (q : FitQueries) (n : ℕ) (rows : List PlannedAllocation),
      (rows.map (·.id)).Nodup → ∀ a ∈ rows, ∀ t : DemandTask, t.isFeaInfra = true →
        ((reserveEach st q true t n rows).countP
          (fun r ↦ r == .fits a.id || r == .waits a.id) : ℤ) ≤
            fitSlotsForAllocation st q rows a t) ∧
      ¬ ∀ (st : FitSettings) (q : FitQueries) (n : ℕ) (rows : List PlannedAllocation),
        (rows.map (·.id)).Nodup → ∀ a ∈ rows, ∀ t : DemandTask, t.isFeaInfra = false →
          ((reserveEach st q true t n rows).countP
            (fun r ↦ r == .fits a.id || r == .waits a.id) : ℤ) ≤
              fitSlotsForAllocation st q rows a t := by
  constructor
  · intro h
    have hhosts := h {} {} 2 [pressedPool] (List.nodup_singleton _) _ List.mem_cons_self poolHost
      rfl
    exact absurd hhosts (by decide)
  · intro h
    have hwaits := h {} { feaAllocationAcceptsTask := fun _ ↦ false
                          demandPoolWaits := fun _ ↦ true } 1 [pressedPool]
      (List.nodup_singleton _) _ List.mem_cons_self strictSolver rfl
    exact absurd hwaits (by decide +kernel)

end SlurmScheduler.Capacity
