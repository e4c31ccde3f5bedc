import SlurmScheduler.Capacity.Shapes
import SlurmScheduler.Dispatch.Writes

namespace SlurmScheduler.Capacity

open Relational
open Dispatch (Allocation liveStates)

section Pinned

variable {column : Allocation → ℕ} {rows later : List Allocation} {nodeName : String}

theorem pinned_append :
    pinned column (rows ++ later) nodeName = pinned column rows nodeName +
      pinned column later nodeName := by
  simp [pinned]

theorem pinned_reverse : pinned column rows.reverse nodeName = pinned column rows nodeName :=
  (((List.reverse_perm rows).filter _).map column).sum_eq

theorem pinned_singleton (a : Allocation) : pinned column [a] nodeName =
    if a.nodeName = nodeName ∧ nodeName ≠ "" then column a else 0 := by
  by_cases h : a.nodeName = nodeName ∧ nodeName ≠ ""
  · simp [pinned, h]
  · rw [if_neg h, pinned, List.filter_cons_of_neg (by simpa using h)]
    rfl

theorem pinned_live_cons (a : Allocation) (rows : List Allocation) :
    pinned column ((a :: rows).filter (liveStates.contains ·.state)) nodeName =
      (if liveStates.contains a.state = true ∧ a.nodeName = nodeName ∧ nodeName ≠ "" then column a
        else 0) + pinned column (rows.filter (liveStates.contains ·.state)) nodeName := by
  by_cases ha : liveStates.contains a.state = true
  · rw [List.filter_cons, if_pos ha, ← List.singleton_append, pinned_append, pinned_singleton]
    simp only [ha, true_and]
  · rw [List.filter_cons, if_neg ha, if_neg fun h ↦ ha h.1, Nat.zero_add]

end Pinned

theorem exists_of_mapM_ok {α β ε : Type} {f : α → Except ε β} {l : List α} {bs : List β} {b : β}
    (h : l.mapM f = .ok bs) (hb : b ∈ bs) : ∃ a ∈ l, f a = .ok b := by
  induction l generalizing bs with
  | nil =>
      cases h
      cases hb
  | cons a l ih =>
      rw [List.mapM_cons] at h
      cases ha : f a with
      | error e =>
          rw [ha] at h
          cases h
      | ok b' =>
          cases hl : l.mapM f with
          | error e =>
              rw [ha, hl] at h
              cases h
          | ok bs' =>
              rw [ha, hl] at h
              cases h
              rcases List.mem_cons.mp hb with rfl | hb
              · exact ⟨a, List.mem_cons_self, ha⟩
              · obtain ⟨a', ha', hmade⟩ := ih hl hb
                exact ⟨a', List.mem_cons_of_mem _ ha', hmade⟩

def liveRows (allocations : Table Allocation) : List Allocation :=
  allocations.select (liveStates.contains ·.state)

/-- A ledger of all live rows counts what is pinned to a node. -/
theorem pinned_ledgerRows {allocations : Table Allocation} (column : Allocation → ℕ)
    (nodeName : String) (hread : (liveRows allocations).length ≤ 10000) :
    pinned column (ledgerRows allocations) nodeName =
      pinned column (liveRows allocations) nodeName := by
  have hall : ledgerRows allocations = (liveRows allocations).reverse :=
    List.take_of_length_le (by rwa [List.length_reverse])
  rw [hall, pinned_reverse]

namespace ShapeInputs

variable (inp : ShapeInputs)

def Whole (cpus memoryMb : ℤ) : Prop :=
  ∃ k, 1 ≤ k ∧ cpus = k * inp.sessionCpus ∧ memoryMb = k * inp.sessionMemoryMb ∧
    (0 < inp.request.aedtPoolMaxSessions → k ≤ inp.request.aedtPoolMaxSessions)

/-- A shape is whole sessions, which fit the node beside all that is pinned to it. -/
structure Lawful (shape : Shape) : Prop where
  whole : inp.Whole shape.cpus shape.memoryMb
  known : shape.nodeName ≠ "" → ∃ node ∈ inp.nodes, node.hostname = shape.nodeName
  fits : shape.nodeName ≠ "" → ∀ node ∈ inp.nodes, node.hostname = shape.nodeName →
    shape.cpus + pinnedCpus (liveRows inp.allocations) shape.nodeName ≤ node.cpuTotal ∧
    shape.memoryMb + pinnedMemoryMb (liveRows inp.allocations) shape.nodeName ≤ node.memoryMb

def first : Option Candidate :=
  match inp.candidates with
  | .ok found => (sortedBy (rank found) found).head?
  | .error _ => none

/-- The request is for shared cores on a node that accepts projects, and the ledger reads every
live row. -/
structure ForPool : Prop where
  shared : inp.wantsSharedCpuPool = true
  eligible : inp.request.requireFeaEligibleNode = true
  read : (liveRows inp.allocations).length ≤ 10000

theorem limited_le (sessions : ℤ) : inp.limited sessions ≤ sessions ∧
    (0 < inp.request.aedtPoolMaxSessions →
      inp.limited sessions ≤ inp.request.aedtPoolMaxSessions) := by
  unfold limited sessionLimit
  split
  · exact ⟨le_rfl, fun h ↦ by omega⟩
  · exact ⟨min_le_left _ _, fun h ↦ by omega⟩

theorem nodes_nodup : (inp.nodes.map (·.hostname)).Nodup := by
  unfold nodes
  split
  · rw [List.map_map]
    exact inp.inventoryKeys
  · exact inp.pestatKeys

variable {inp}

structure CandidateFits (inp : ShapeInputs) (c : Candidate) : Prop where
  shared : inp.wantsSharedCpuPool = true
  whole : inp.Whole c.cpus c.memoryMb
  cpus_le : c.cpus ≤ inp.freeCpus c.node
  memoryMb_le : c.memoryMb ≤ inp.freeMemoryMb c.node

theorem availableCpus_le {node : PestatNode} (h : inp.wantsSharedCpuPool = true) :
    inp.availableCpus node ≤ inp.freeCpus node := by
  have hgpu : inp.wantsGpu = false := by
    simp only [wantsSharedCpuPool, Bool.and_eq_true, Bool.not_eq_true'] at h
    exact h.1
  unfold availableCpus
  rw [hgpu]
  dsimp only [Bool.false_and]
  omega

theorem sessionCount_le (node : PestatNode) (hcpus : 0 < inp.sessionCpus)
    (hmemory : 0 < inp.sessionMemoryMb) :
    inp.sessionCount node * inp.sessionCpus ≤ inp.availableCpus node ∧
      inp.sessionCount node * inp.sessionMemoryMb ≤ inp.freeMemoryMb node := by
  unfold sessionCount
  dsimp only
  generalize hbudget : _ / inp.sessionCpus = budget
  have hlimited := (inp.limited_le (min budget (min (inp.availableCpus node / inp.sessionCpus)
    (inp.freeMemoryMb node / inp.sessionMemoryMb)))).1
  constructor
  · refine (Int.le_ediv_iff_mul_le hcpus).mp (hlimited.trans ?_)
    exact (min_le_right _ _).trans (min_le_left _ _)
  · refine (Int.le_ediv_iff_mul_le hmemory).mp (hlimited.trans ?_)
    exact (min_le_right _ _).trans (min_le_right _ _)

theorem candidate_fits {node : PestatNode} {c : Candidate} (hcpus : 0 < inp.sessionCpus)
    (hmemory : 0 < inp.sessionMemoryMb) (h : inp.candidate node = .ok (some c)) :
    c.node = node ∧ CandidateFits inp c := by
  unfold candidate at h
  split at h
  · cases h
  split at h
  · cases h
  split at h
  · cases h
  split at h
  · cases h
  rename_i hshared _ hcount
  have hshared : inp.wantsSharedCpuPool = true := by simpa using hshared
  obtain ⟨hfree, hfreeMemory⟩ := sessionCount_le node hcpus hmemory
  have hpositive : 1 ≤ inp.sessionCount node * inp.sessionCpus :=
    Int.mul_pos (not_le.mp hcount) hcpus
  cases h
  have hsame : max 1 (min (inp.sessionCount node * inp.sessionCpus) (inp.availableCpus node)) =
      inp.sessionCount node * inp.sessionCpus := by
    rw [min_eq_left hfree, max_eq_right hpositive]
  refine ⟨rfl, hshared, ⟨inp.sessionCount node, by omega, hsame, rfl, ?_⟩, ?_, hfreeMemory⟩
  · exact (inp.limited_le _).2
  · exact hsame.trans_le (hfree.trans (availableCpus_le hshared))

theorem mem_candidates {found : List Candidate} {c : Candidate} (h : inp.candidates = .ok found)
    (hc : c ∈ found) : ∃ node ∈ inp.nodes, inp.candidate node = .ok (some c) := by
  unfold candidates at h
  cases hall : inp.nodes.mapM inp.candidate with
  | error e =>
      rw [hall] at h
      cases h
  | ok answers =>
      rw [hall] at h
      cases h
      obtain ⟨answer, hanswer, rfl⟩ := List.mem_filterMap.mp hc
      obtain ⟨node, hnode, hmade⟩ := exists_of_mapM_ok hall hanswer
      exact ⟨node, hnode, hmade⟩

theorem first_fits {c : Candidate} (hcpus : 0 < inp.sessionCpus)
    (hmemory : 0 < inp.sessionMemoryMb) (h : inp.first = some c) :
    c.node ∈ inp.nodes ∧ CandidateFits inp c := by
  unfold first at h
  split at h
  · rename_i found hfound
    obtain ⟨node, hnode, hmade⟩ :=
      mem_candidates hfound (mem_sortedBy.mp (List.mem_of_mem_head? (Option.mem_def.mpr h)))
    obtain ⟨rfl, hfits⟩ := candidate_fits hcpus hmemory hmade
    exact ⟨hnode, hfits⟩
  · cases h

/-- A shape is the one of the first candidate, or it waits in a partition. -/
theorem choose_cases {shape : Shape} (h : inp.chooseAllocationShape = .ok (some shape)) :
    0 < inp.sessionCpus ∧ 0 < inp.sessionMemoryMb ∧
      ((∃ c, inp.first = some c ∧ shape = inp.shapeFor c) ∨
        inp.candidates = .ok [] ∧ inp.fallbackShape = some shape) := by
  unfold chooseAllocationShape at h
  split at h
  · cases h
  rename_i hsession
  simp only [Bool.or_eq_true, decide_eq_true_eq, not_or, not_le] at hsession
  refine ⟨hsession.1, hsession.2, ?_⟩
  cases hfound : inp.candidates with
  | error e =>
      rw [hfound] at h
      cases h
  | ok found =>
      rw [hfound] at h
      cases hhead : (sortedBy (rank found) found).head? with
      | some c =>
          refine .inl ⟨c, by rw [first, hfound]; exact hhead, ?_⟩
          simpa [Except.map, hhead] using h.symm
      | none =>
          refine .inr ⟨?_, by simpa [Except.map, hhead] using h⟩
          have hempty : ([] : List Candidate).length = found.length := by
            rw [← List.head?_eq_none_iff.mp hhead]
            exact length_sortedBy
          rw [List.length_eq_zero_iff.mp hempty.symm]

theorem fallbackSessionCount_le :
    0 < inp.request.aedtPoolMaxSessions →
      inp.fallbackSessionCount ≤ inp.request.aedtPoolMaxSessions := by
  intro hmax
  unfold fallbackSessionCount
  dsimp only
  split
  · exact (inp.limited_le _).2 hmax
  · exact (min_le_left _ _).trans ((inp.limited_le _).2 hmax)

/-- The free cores of a partition do not cut a request for shared cores. -/
theorem lawful_fallback {shape : Shape} (hshared : inp.wantsSharedCpuPool = true)
    (h : inp.fallbackShape = some shape) : inp.Lawful shape := by
  unfold fallbackShape at h
  split at h
  · rename_i hwaits
    have hsome : 1 ≤ inp.fallbackSessionCount := by
      simp only [waits, Bool.and_eq_true, decide_eq_true_eq] at hwaits
      exact hwaits.1.1.2
    have huncut : inp.limitApplies = false := by simp [limitApplies, hshared]
    cases h
    refine ⟨⟨inp.fallbackSessionCount, hsome, ?_, rfl, fallbackSessionCount_le⟩,
      fun hpinned ↦ absurd rfl hpinned, fun hpinned ↦ absurd rfl hpinned⟩
    exact if_neg (by simp [huncut])
  · cases h

theorem candidate_within {c : Candidate} (hfits : CandidateFits inp c)
    (hcpus : 0 < inp.sessionCpus) (hmemory : 0 < inp.sessionMemoryMb) :
    c.cpus + pinnedCpus (ledgerRows inp.allocations) c.node.hostname ≤ c.node.cpuTotal ∧
      c.memoryMb + pinnedMemoryMb (ledgerRows inp.allocations) c.node.hostname ≤
        c.node.memoryMb := by
  obtain ⟨k, hk, hc, hm, -⟩ := hfits.whole
  have hsome : 0 < c.cpus := hc ▸ Int.mul_pos hk hcpus
  have hsomeMemory : 0 < c.memoryMb := hm ▸ Int.mul_pos hk hmemory
  have hfree := hfits.cpus_le
  have hfreeMemory := hfits.memoryMb_le
  unfold freeCpus at hfree
  unfold freeMemoryMb at hfreeMemory
  exact ⟨by omega, by omega⟩

/-- A candidate fits its node beside all that is pinned to it. -/
theorem lawful_node {c : Candidate} (hpool : inp.ForPool) (hnode : c.node ∈ inp.nodes)
    (hfits : CandidateFits inp c) (hcpus : 0 < inp.sessionCpus)
    (hmemory : 0 < inp.sessionMemoryMb) : inp.Lawful (inp.shapeFor c) := by
  have hspread : inp.spreads c = false := by simp [spreads, hpool.eligible]
  have hname : inp.nodeNameFor c = c.node.hostname := by
    rw [nodeNameFor, if_neg (by simp [hpool.eligible])]
  rw [shapeFor, if_neg (by simp [hspread])]
  refine ⟨hfits.whole, fun _ ↦ ⟨c.node, hnode, hname.symm⟩, fun _ node hmem hhost ↦ ?_⟩
  dsimp only at hhost ⊢
  rw [hname] at hhost ⊢
  obtain rfl : node = c.node := List.inj_on_of_nodup_map inp.nodes_nodup hmem hnode hhost
  have hwithin := candidate_within hfits hcpus hmemory
  unfold pinnedCpus pinnedMemoryMb at hwithin ⊢
  rwa [pinned_ledgerRows _ _ hpool.read, pinned_ledgerRows _ _ hpool.read] at hwithin

theorem choose_lawful {shape : Shape} (hpool : inp.ForPool)
    (h : inp.chooseAllocationShape = .ok (some shape)) : inp.Lawful shape := by
  obtain ⟨hcpus, hmemory, ⟨c, hc, rfl⟩ | ⟨-, hwaits⟩⟩ := choose_cases h
  · obtain ⟨hnode, hfits⟩ := first_fits hcpus hmemory hc
    exact lawful_node hpool hnode hfits hcpus hmemory
  · exact lawful_fallback hpool.shared hwaits

/-- What `tick` of the pool asks of `open_allocation_record`: the cores and the memory of one
session. -/
def poolRequest (config : Pool.AedtPoolConfig) (projectMemoryMb : ℕ)
    (requestedNodeName requestedPartition : String) (sessionQuota : ℤ) : ShapeRequest where
  resourcePool := "cpu"
  requestedCpus := 1 + config.projectCpus * config.projectsPerSession
  requestedMemoryMb := projectMemoryMb * config.projectsPerSession
  aedtPoolMaxSessions := sessionQuota
  requireFeaEligibleNode := true
  cpuOnlyNodes := true
  requestedNodeName := requestedNodeName
  requestedPartition := requestedPartition

theorem forPool_of_poolRequest {config : Pool.AedtPoolConfig} {projectMemoryMb : ℕ}
    {requestedNodeName requestedPartition : String} {sessionQuota : ℤ}
    (hrequest : inp.request = poolRequest config projectMemoryMb requestedNodeName
      requestedPartition sessionQuota)
    (hread : (liveRows inp.allocations).length ≤ 10000) : inp.ForPool := by
  have hcpu : "gpu:".toList.isPrefixOf "cpu".toList = false := by decide
  refine ⟨?_, by rw [hrequest]; rfl, hread⟩
  unfold wantsSharedCpuPool wantsGpu
  rw [hrequest]
  simp only [poolRequest, hcpu, Bool.false_or, lt_self_iff_false, decide_false, Bool.not_false,
    Bool.and_self]

def recorded (inp : ShapeInputs) (accountName reason : String) (shape : Shape) : Allocation where
  id := 0
  accountName := accountName
  partition := shape.partition
  nodeName := if inp.request.resourcePool == "" || inp.request.resourcePool == "cpu" ||
      inp.request.requestedNodeName != "" then shape.nodeName else ""
  totalCpus := shape.cpus.toNat
  totalMemoryMb := shape.memoryMb.toNat
  totalGpus := shape.gpus.toNat
  resourcePool := inp.request.resourcePool
  exclusiveNode := inp.request.exclusiveNode
  drainReason := reason
  pendingReason := Dispatch.submissionReserved

end ShapeInputs

/-- The cores and the memory of the physical nodes. -/
structure NodeSizes where
  cpus : String → ℕ
  memoryMb : String → ℕ

namespace NodeSizes

variable (size : NodeSizes)

def Shown (inp : ShapeInputs) : Prop := ∀ node ∈ inp.nodes,
  node.cpuTotal = size.cpus node.hostname ∧ node.memoryMb = size.memoryMb node.hostname

/-- The live allocations that are pinned to a node fit it. -/
def Within (nodeName : String) (allocations : Table Allocation) : Prop :=
  pinnedCpus (liveRows allocations) nodeName ≤ size.cpus nodeName ∧
    pinnedMemoryMb (liveRows allocations) nodeName ≤ size.memoryMb nodeName

/-- Pool allocations are opened one after the other, and rows change their state; none comes back
to life. -/
inductive PoolRun (t : Table Allocation) : Table Allocation → Prop
  | refl : PoolRun t t
  | opened {inp : ShapeInputs} {shape : Shape} (accountName reason : String) (now : Pool.Time) :
      PoolRun t inp.allocations → size.Shown inp → inp.ForPool →
      inp.chooseAllocationShape = .ok (some shape) →
      PoolRun t (inp.allocations.insert ((inp.recorded accountName reason shape).created now))
  | changed {t' : Table Allocation} (p : Allocation → Bool) (f : Allocation → Allocation)
      (hid : ∀ a, (f a).id = a.id) : PoolRun t t' →
      (∀ a, (f a).nodeName = a.nodeName ∧ (f a).totalCpus = a.totalCpus ∧
        (f a).totalMemoryMb = a.totalMemoryMb) →
      (∀ a, liveStates.contains (f a).state = true → liveStates.contains a.state = true) →
      PoolRun t (t'.update p f hid)

variable {size} {nodeName : String}

/-- A pool allocation is opened beside what is pinned to its node. -/
theorem within_opened {inp : ShapeInputs} {shape : Shape} {accountName reason : String}
    {now : Pool.Time} (hshown : size.Shown inp) (hlawful : inp.Lawful shape)
    (h : size.Within nodeName inp.allocations) : size.Within nodeName
      (inp.allocations.insert ((inp.recorded accountName reason shape).created now)) := by
  set row := (inp.recorded accountName reason shape).created now inp.allocations.nextKey with hrow
  have hlive : liveRows (inp.allocations.insert
      ((inp.recorded accountName reason shape).created now)) =
        liveRows inp.allocations ++ [row] := by
    unfold liveRows Table.select Table.insert
    rw [List.filter_append]
    rfl
  unfold Within pinnedCpus pinnedMemoryMb at h ⊢
  rw [hlive, pinned_append, pinned_append, pinned_singleton, pinned_singleton]
  by_cases hhere : row.nodeName = nodeName ∧ nodeName ≠ ""
  · rw [if_pos hhere, if_pos hhere]
    have hname : shape.nodeName = nodeName := by
      obtain ⟨hname, hpinned⟩ := hhere
      change (if _ then shape.nodeName else "") = nodeName at hname
      split at hname
      · exact hname
      · exact absurd hname.symm hpinned
    subst hname
    obtain ⟨node, hnode, hhost⟩ := hlawful.known hhere.2
    obtain ⟨hroom, hroomMemory⟩ := hlawful.fits hhere.2 node hnode hhost
    obtain ⟨hcpus, hmemory⟩ := hshown node hnode
    rw [hhost] at hcpus hmemory
    have htotal : row.totalCpus = shape.cpus.toNat := rfl
    have htotalMemory : row.totalMemoryMb = shape.memoryMb.toNat := rfl
    unfold pinnedCpus at hroom
    unfold pinnedMemoryMb at hroomMemory
    exact ⟨by omega, by omega⟩
  · rw [if_neg hhere, if_neg hhere]
    exact h

/-- Rows that keep their nodes and their sizes, and do not come back to life, pin no more. -/
theorem pinned_update_le {column : Allocation → ℕ} {t : Table Allocation} {p : Allocation → Bool}
    {f : Allocation → Allocation} (hid : ∀ a, (f a).id = a.id)
    (hkeeps : ∀ a, (f a).nodeName = a.nodeName ∧ column (f a) = column a)
    (hlive : ∀ a, liveStates.contains (f a).state = true → liveStates.contains a.state = true) :
    pinned column (liveRows (t.update p f hid)) nodeName ≤ pinned column (liveRows t) nodeName := by
  unfold liveRows Table.select Table.update
  dsimp only
  induction t.rows with
  | nil => exact le_rfl
  | cons a rows ih =>
      rw [List.map_cons, pinned_live_cons, pinned_live_cons]
      refine Nat.add_le_add ?_ ih
      by_cases hp : p a = true
      · rw [if_pos hp, (hkeeps a).1, (hkeeps a).2]
        split
        · rename_i hchanged
          rw [if_pos ⟨hlive a hchanged.1, hchanged.2⟩]
        · exact Nat.zero_le _
      · rw [if_neg hp]

theorem within_changed {t : Table Allocation} {p : Allocation → Bool}
    {f : Allocation → Allocation} (hid : ∀ a, (f a).id = a.id)
    (hkeeps : ∀ a, (f a).nodeName = a.nodeName ∧ (f a).totalCpus = a.totalCpus ∧
      (f a).totalMemoryMb = a.totalMemoryMb)
    (hlive : ∀ a, liveStates.contains (f a).state = true → liveStates.contains a.state = true)
    (h : size.Within nodeName t) : size.Within nodeName (t.update p f hid) :=
  ⟨(pinned_update_le hid (fun a ↦ ⟨(hkeeps a).1, (hkeeps a).2.1⟩) hlive).trans h.1,
    (pinned_update_le hid (fun a ↦ ⟨(hkeeps a).1, (hkeeps a).2.2⟩) hlive).trans h.2⟩

theorem PoolRun.within {t t' : Table Allocation} (hrun : size.PoolRun t t')
    (h : size.Within nodeName t) : size.Within nodeName t' := by
  induction hrun with
  | refl => exact h
  | opened accountName reason now _ hshown hpool hchosen ih =>
      exact within_opened hshown (ShapeInputs.choose_lawful hpool hchosen) ih
  | changed p f hid _ hkeeps hlive ih => exact within_changed hid hkeeps hlive ih

end NodeSizes

/-- A shape that the AEDT pool gets is whole sessions that fit their node, and no sequence of pool
allocations overcommits a node. -/
theorem pool_shapes_law (size : NodeSizes) :
    (∀ inp : ShapeInputs, inp.ForPool →
        ∀ shape, inp.chooseAllocationShape = .ok (some shape) → inp.Lawful shape) ∧
      ∀ t t' : Table Allocation, size.PoolRun t t' →
        ∀ nodeName, size.Within nodeName t → size.Within nodeName t' :=
  ⟨fun _ hpool _ h ↦ ShapeInputs.choose_lawful hpool h, fun _ _ hrun _ h ↦ hrun.within h⟩

def idleNode : ShapeInputs where
  pestat := [{ hostname := "c1", partition := "cpu2", cpuTotal := 256, memoryMb := 1031519
               freeMemoryMb := 900000 }]
  request := ShapeInputs.poolRequest { projectsPerSession := 3 } 32768 "" "auto" 0

def idleShape : Shape where
  partition := "cpu2"
  nodeName := "c1"
  cpus := 52
  memoryMb := 393216
  gpus := 0
  gpuModel := ""
  exclusiveNode := false

theorem pool_shapes_law_idle :
    idleNode.chooseAllocationShape = .ok (some idleShape) ∧ idleNode.Lawful idleShape ∧
      NodeSizes.Within ⟨fun _ ↦ 256, fun _ ↦ 1031519⟩ "c1" (idleNode.allocations.insert
        ((idleNode.recorded "lab" "AEDT pool project demand" idleShape).created 100)) := by
  have hshape : idleNode.chooseAllocationShape = .ok (some idleShape) := by decide
  have hpool : idleNode.ForPool := ShapeInputs.forPool_of_poolRequest rfl (by decide)
  have hshown : NodeSizes.Shown ⟨fun _ ↦ 256, fun _ ↦ 1031519⟩ idleNode := by
    intro node hnode
    rw [List.mem_singleton.mp hnode]
    exact ⟨rfl, rfl⟩
  obtain ⟨hlawful, hwithin⟩ := pool_shapes_law ⟨fun _ ↦ 256, fun _ ↦ 1031519⟩
  exact ⟨hshape, hlawful idleNode hpool idleShape hshape,
    hwithin _ _ (.opened _ _ _ .refl hshown hpool hshape) "c1" ⟨by decide, by decide⟩⟩

/-- A shape for sessions of 13 cores on a node of 64 cores that has GPUs, while the nodes of
another partition have 30. -/
def gpuNodes : ShapeInputs where
  inventory :=
    [{ nodeName := "g1", partition := "gpu1", state := "idle", cpus := 64, memoryMb := 786432
       gpuCount := 4 },
     { nodeName := "g2", partition := "gpu2", state := "mix", cpus := 34, memoryMb := 786432
       gpuCount := 4 }]
  pestat :=
    [{ hostname := "g1", partition := "gpu1", cpuTotal := 64, memoryMb := 786432
       freeMemoryMb := 700000 }]
  request := { requestedCpus := 13, requestedMemoryMb := 98304 }

def busyPartition : ShapeInputs where
  queries := { choosePartition := "cpu1" }
  pestat := [{ hostname := "c1", partition := "cpu1", cpuUsed := 34, cpuTotal := 64
               memoryMb := 786432, freeMemoryMb := 786432 }]
  request := { requestedCpus := 13, requestedMemoryMb := 98304, requireFeaEligibleNode := true
               exclusiveNode := true }

/-- An allocation fills a node, and `n` later ones wait for some node. -/
theorem exists_full_node (n : ℕ) : ∃ (t : Table Allocation) (first : Allocation)
    (later : List Allocation), liveRows t = first :: later ∧ first.nodeName = "c1" ∧
      first.totalCpus = 256 ∧ later.length = n ∧ ∀ a ∈ later, a.nodeName = "" := by
  induction n with
  | zero =>
      exact ⟨Table.empty.insert fun id ↦
          { id, accountName := "lab", state := .warm, nodeName := "c1", totalCpus := 256 },
        _, [], rfl, rfl, rfl, rfl, fun a ha ↦ absurd ha List.not_mem_nil⟩
  | succ n ih =>
      obtain ⟨t, first, later, hrows, hname, hcpus, hlength, hlater⟩ := ih
      have hnext : liveRows (t.insert fun id ↦ { id, accountName := "lab", state := .pending }) =
          liveRows t ++ [{ id := t.nextKey, accountName := "lab", state := .pending }] := by
        unfold liveRows Table.select
        rw [Table.insert, List.filter_append]
        rfl
      refine ⟨_, first, later ++ [_], by rw [hnext, hrows]; rfl, hname, hcpus, ?_, ?_⟩
      · rw [List.length_append, hlength, List.length_singleton]
      · intro a ha
        rcases List.mem_append.mp ha with ha | ha
        · exact hlater a ha
        · rw [List.mem_singleton.mp ha]

theorem pinned_of_unnamed {column : Allocation → ℕ} {rows : List Allocation} {nodeName : String}
    (h : ∀ a ∈ rows, a.nodeName = "") : pinned column rows nodeName = 0 := by
  have hnone : rows.filter (fun a ↦ a.nodeName == nodeName && nodeName != "") = [] := by
    refine List.filter_eq_nil_iff.mpr fun a ha ↦ ?_
    simp only [h a ha, Bool.and_eq_true, beq_iff_eq, bne_iff_ne]
    exact fun hboth ↦ hboth.2 hboth.1.symm
  rw [pinned, hnone]
  rfl

/-- To a ledger whose rows name no node, every node looks idle. -/
theorem choose_of_unnamed {t : Table Allocation} (h : ∀ a ∈ ledgerRows t, a.nodeName = "") :
    ({ idleNode with allocations := t } : ShapeInputs).chooseAllocationShape =
      idleNode.chooseAllocationShape := by
  have hledger (column : Allocation → ℕ) (nodeName : String) :
      pinned column (ledgerRows t) nodeName = 0 := pinned_of_unnamed h
  have hpending (column : Allocation → ℕ) (nodeName : String) :
      pinned column ((ledgerRows t).filter (·.state == .pending)) nodeName = 0 :=
    pinned_of_unnamed fun a ha ↦ h a (List.mem_filter.mp ha).1
  have hcpus : ({ idleNode with allocations := t } : ShapeInputs).freeCpus =
      idleNode.freeCpus := by
    funext node
    unfold ShapeInputs.freeCpus pinnedCpus ShapeInputs.pendingRows
    rw [hledger, hpending]
    rfl
  have hmemory : ({ idleNode with allocations := t } : ShapeInputs).freeMemoryMb =
      idleNode.freeMemoryMb := by
    funext node
    unfold ShapeInputs.freeMemoryMb pinnedMemoryMb ShapeInputs.pendingRows
    rw [hledger, hpending]
    rfl
  have hcandidate : ({ idleNode with allocations := t } : ShapeInputs).candidate =
      idleNode.candidate := by
    funext node
    unfold ShapeInputs.candidate ShapeInputs.considers ShapeInputs.sessionCount
      ShapeInputs.availableCpus
    rw [hcpus, hmemory]
    rfl
  unfold ShapeInputs.chooseAllocationShape ShapeInputs.candidates
  rw [hcandidate]
  rfl

/-- A spread request, an exclusive one and a ledger of more than ten thousand rows each split a
session or overcommit a node. -/
theorem lawful_only_for_pool :
    (¬ ∀ (inp : ShapeInputs) (shape : Shape), inp.wantsSharedCpuPool = true →
        (liveRows inp.allocations).length ≤ 10000 →
        inp.chooseAllocationShape = .ok (some shape) → inp.Lawful shape) ∧
      (¬ ∀ (inp : ShapeInputs) (shape : Shape), inp.request.requireFeaEligibleNode = true →
        (liveRows inp.allocations).length ≤ 10000 →
        inp.chooseAllocationShape = .ok (some shape) → inp.Lawful shape) ∧
      ¬ ∀ (inp : ShapeInputs) (shape : Shape), inp.wantsSharedCpuPool = true →
        inp.request.requireFeaEligibleNode = true →
        inp.chooseAllocationShape = .ok (some shape) → inp.Lawful shape := by
  refine ⟨fun h ↦ ?_, fun h ↦ ?_, fun h ↦ ?_⟩
  · have hshape : gpuNodes.chooseAllocationShape = .ok (some
        { partition := "gpu1,gpu2", nodeName := "", cpus := 30, memoryMb := 393216, gpus := 0
          gpuModel := "", exclusiveNode := false }) := by
      decide
    obtain ⟨k, -, hcpus, -⟩ := (h gpuNodes _ (by decide) (by decide) hshape).whole
    change (30 : ℤ) = k * 13 at hcpus
    omega
  · have hshape : busyPartition.chooseAllocationShape = .ok (some
        { partition := "cpu1", nodeName := "", cpus := 30, memoryMb := 393216, gpus := 0
          gpuModel := "", exclusiveNode := true }) := by
      decide
    obtain ⟨k, -, hcpus, -⟩ := (h busyPartition _ rfl (by decide) hshape).whole
    change (30 : ℤ) = k * 13 at hcpus
    omega
  · obtain ⟨t, first, later, hrows, hname, hcpus, hlength, hlater⟩ := exists_full_node 10000
    have hread : ledgerRows t = later.reverse := by
      change ((liveRows t).reverse).take 10000 = _
      rw [hrows, List.reverse_cons, List.take_left' (by rw [List.length_reverse, hlength])]
    have hidle : idleNode.chooseAllocationShape = .ok (some idleShape) := by decide
    have hshape := (choose_of_unnamed fun a ha ↦
      hlater a (List.mem_reverse.mp (hread ▸ ha))).trans hidle
    have hroom := ((h { idleNode with allocations := t } idleShape
      (show idleNode.wantsSharedCpuPool = true by decide) rfl hshape).fits
      (by decide) _ List.mem_cons_self rfl).1
    have hpinned : 256 ≤ pinnedCpus (liveRows t) "c1" := by
      change 256 ≤ pinned _ (liveRows t) "c1"
      rw [hrows, ← List.singleton_append, pinned_append, pinned_singleton,
        if_pos ⟨hname, by decide⟩, hcpus]
      exact Nat.le_add_right _ _
    change (52 : ℤ) + pinnedCpus (liveRows t) "c1" ≤ 256 at hroom
    omega

end SlurmScheduler.Capacity
