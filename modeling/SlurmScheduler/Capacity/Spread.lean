import SlurmScheduler.Relational.Rotation
import Mathlib.Data.String.Basic

namespace SlurmScheduler.Capacity

open Relational

structure InventoryRow where
  nodeName : String := ""
  partition : String := ""
  state : String := ""
  cpus : ℤ := 0
  memoryMb : ℤ := 0
  gpuCount : ℤ := 0
  cpuScore : ℤ := 0

structure SpreadSettings where
  lower : String → String
  isSingleJobPartition : String → Bool
  cpuPoolAllowGpuPartitions : Bool
  gpuCpuReserve : ℤ

structure SpreadEntry where
  cpuScore : ℤ := 0
  capacity : ℤ := 0
  memoryMb : ℤ := 0
  isCpuOnly : Bool

structure Spread where
  partitions : List String
  cpus : ℤ
  memoryMb : ℤ
  deriving DecidableEq

namespace InventoryRow

variable (settings : SpreadSettings) (floor : ℤ) (row : InventoryRow)

def isGpu : Bool := "gpu".toList.isPrefixOf row.partition.toList || 0 < row.gpuCount

def usable : Bool := ["idle", "mix", "mixed"].contains (settings.lower row.state)

def capacity : ℤ := row.cpus - if row.isGpu then settings.gpuCpuReserve else 0

def counts : Bool :=
  row.partition != "" && !settings.isSingleJobPartition row.partition && row.usable settings &&
    (!row.isGpu || settings.cpuPoolAllowGpuPartitions) && floor ≤ row.capacity settings

end InventoryRow

def SpreadEntry.raise (e : SpreadEntry) (settings : SpreadSettings) (row : InventoryRow) :
    SpreadEntry :=
  { e with
    cpuScore := max e.cpuScore row.cpuScore
    capacity := max e.capacity (row.capacity settings)
    memoryMb := max e.memoryMb row.memoryMb }

/-- `best_by_partition.setdefault` and the maxima after it. -/
def record (settings : SpreadSettings) (row : InventoryRow) :
    List (String × SpreadEntry) → List (String × SpreadEntry)
  | [] => [(row.partition, { isCpuOnly := !row.isGpu : SpreadEntry }.raise settings row)]
  | (partition, e) :: rest =>
      if partition = row.partition then (partition, e.raise settings row) :: rest
      else (partition, e) :: record settings row rest

def bestByPartition (settings : SpreadSettings) (floor : ℤ) (inventory : List InventoryRow) :
    List (String × SpreadEntry) :=
  inventory.foldl
    (fun best row ↦ if row.counts settings floor then record settings row best else best) []

def spreadFloor (cpus requestedCpus : ℤ) : ℤ := max 1 (max requestedCpus (cpus / 2))

/-- `sorted(…, reverse=True)` on the score, the kind and the capacity of the entries -/
def SpreadEntry.rank (e : String × SpreadEntry) : (ℤ ×ₗ Bool ×ₗ ℤ)ᵒᵈ :=
  OrderDual.toDual (toLex (e.2.cpuScore, toLex (e.2.isCpuOnly, e.2.capacity)))

/-- `int(grantable_memory * 0.9)` -/
def nineTenths (memoryMb : ℤ) : ℤ := memoryMb * 9 / 10

def cpuPoolSpread (settings : SpreadSettings) (inventory : List InventoryRow)
    (cpus memoryMb requestedCpus : ℤ) : Spread :=
  let floor := spreadFloor cpus requestedCpus
  let best := bestByPartition settings floor inventory
  match (best.map (·.2.capacity)).min?, (best.map (·.2.memoryMb)).min? with
  | some capacity, some grantable =>
      { partitions := (sortedBy SpreadEntry.rank best).map (·.1)
        cpus := max floor (min cpus capacity)
        memoryMb := max 1024 (min memoryMb (nineTenths grantable)) }
  | _, _ => ⟨[], cpus, memoryMb⟩

section Best

variable {settings : SpreadSettings} {floor : ℤ} {row : InventoryRow}
  {best : List (String × SpreadEntry)} {p : String} {e : SpreadEntry} {rows : List InventoryRow}

theorem keys_record : p ∈ (record settings row best).map (·.1) ↔
    p ∈ best.map (·.1) ∨ p = row.partition := by
  induction best with
  | nil => simp [record]
  | cons b best ih =>
      rw [record]
      split
      · rename_i hb
        simp only [List.map_cons, List.mem_cons]
        grind
      · simp only [List.map_cons, List.mem_cons, ih, or_assoc]

theorem record_nodup (h : (best.map (·.1)).Nodup) : ((record settings row best).map (·.1)).Nodup := by
  induction best with
  | nil => simp [record]
  | cons b best ih =>
      obtain ⟨hb, hbest⟩ := List.nodup_cons.mp h
      rw [record]
      split
      · exact h
      · rename_i hne
        refine List.nodup_cons.mpr ⟨fun hmem ↦ ?_, ih hbest⟩
        exact (keys_record.mp hmem).elim hb hne

/-- An entry of another partition stays, and the one of the row is raised. -/
theorem mem_record (h : (best.map (·.1)).Nodup) (he : (p, e) ∈ record settings row best) :
    (p ≠ row.partition ∧ (p, e) ∈ best) ∨ (p = row.partition ∧ ∃ e₀,
      ((p, e₀) ∈ best ∨ p ∉ best.map (·.1) ∧ e₀ = { isCpuOnly := !row.isGpu }) ∧
        e = e₀.raise settings row) := by
  induction best with
  | nil =>
      rw [record, List.mem_singleton, Prod.mk.injEq] at he
      exact .inr ⟨he.1, _, .inr ⟨by simp, rfl⟩, he.2⟩
  | cons b best ih =>
      obtain ⟨hb, hbest⟩ := List.nodup_cons.mp h
      rw [record] at he
      split at he
      · rename_i hpartition
        rcases List.mem_cons.mp he with heq | hmem
        · rw [Prod.mk.injEq] at heq
          exact .inr ⟨heq.1.trans hpartition, b.2, .inl (by rw [heq.1]; exact List.mem_cons_self ..), heq.2⟩
        · refine .inl ⟨fun hp ↦ hb ?_, List.mem_cons_of_mem _ hmem⟩
          show b.1 ∈ best.map (·.1)
          rw [hpartition, ← hp]
          exact List.mem_map.mpr ⟨_, hmem, rfl⟩
      · rename_i hne
        rcases List.mem_cons.mp he with heq | hmem
        · rw [Prod.mk.injEq] at heq
          exact .inl ⟨heq.1 ▸ hne, by rw [heq.1, heq.2]; exact List.mem_cons_self ..⟩
        · refine (ih hbest hmem).imp (fun h ↦ ⟨h.1, List.mem_cons_of_mem _ h.2⟩) ?_
          rintro ⟨hp, e₀, he₀, hraise⟩
          refine ⟨hp, e₀, he₀.imp (List.mem_cons_of_mem _) fun h ↦ ⟨?_, h.2⟩, hraise⟩
          rw [List.map_cons, List.mem_cons]
          exact fun hor ↦ hor.elim (fun hpb ↦ hne (hpb ▸ hp)) h.1

def rowsOf (settings : SpreadSettings) (floor : ℤ) (inventory : List InventoryRow) (p : String) :
    List InventoryRow :=
  inventory.filter fun row ↦ row.counts settings floor && row.partition == p

structure Collects (settings : SpreadSettings) (rows : List InventoryRow) (e : SpreadEntry) :
    Prop where
  capacity_le : ∀ row ∈ rows, row.capacity settings ≤ e.capacity
  capacity_mem : ∃ row ∈ rows, row.capacity settings = e.capacity
  memory_le : ∀ row ∈ rows, row.memoryMb ≤ e.memoryMb
  memory_mem : e.memoryMb = 0 ∨ ∃ row ∈ rows, row.memoryMb = e.memoryMb
  memory_nonneg : 0 ≤ e.memoryMb

theorem Collects.first (h : 0 ≤ row.capacity settings) (cpuOnly : Bool) :
    Collects settings [row] ({ isCpuOnly := cpuOnly : SpreadEntry }.raise settings row) where
  capacity_le := by simp [SpreadEntry.raise]
  capacity_mem := ⟨row, List.mem_cons_self .., (max_eq_right h).symm⟩
  memory_le := by simp [SpreadEntry.raise]
  memory_mem := by
    rcases le_total 0 row.memoryMb with hm | hm
    · exact .inr ⟨row, List.mem_cons_self .., (max_eq_right hm).symm⟩
    · exact .inl (max_eq_left hm)
  memory_nonneg := le_max_left ..

theorem Collects.raise (h : Collects settings rows e) :
    Collects settings (rows ++ [row]) (e.raise settings row) where
  capacity_le := by
    intro r hr
    rcases List.mem_append.mp hr with hr | hr
    · exact (h.capacity_le r hr).trans (le_max_left ..)
    · rw [List.mem_singleton.mp hr]; exact le_max_right ..
  capacity_mem := by
    obtain ⟨r, hr, hcapacity⟩ := h.capacity_mem
    rcases le_total (row.capacity settings) e.capacity with hle | hle
    · exact ⟨r, List.mem_append_left _ hr, hcapacity.trans (max_eq_left hle).symm⟩
    · exact ⟨row, List.mem_append_right _ (List.mem_cons_self ..), (max_eq_right hle).symm⟩
  memory_le := by
    intro r hr
    rcases List.mem_append.mp hr with hr | hr
    · exact (h.memory_le r hr).trans (le_max_left ..)
    · rw [List.mem_singleton.mp hr]; exact le_max_right ..
  memory_mem := by
    rcases le_total row.memoryMb e.memoryMb with hle | hle
    · refine h.memory_mem.imp (fun h ↦ (max_eq_left hle).trans h) ?_
      rintro ⟨r, hr, hmemory⟩
      exact ⟨r, List.mem_append_left _ hr, hmemory.trans (max_eq_left hle).symm⟩
    · exact .inr ⟨row, List.mem_append_right _ (List.mem_cons_self ..), (max_eq_right hle).symm⟩
  memory_nonneg := h.memory_nonneg.trans (le_max_left ..)

/-- One entry for each partition with a row that counts, and the maxima of these rows in it. -/
structure Covers (settings : SpreadSettings) (floor : ℤ) (inventory : List InventoryRow)
    (best : List (String × SpreadEntry)) : Prop where
  nodup : (best.map (·.1)).Nodup
  keys : ∀ p, p ∈ best.map (·.1) ↔ rowsOf settings floor inventory p ≠ []
  collects : ∀ p e, (p, e) ∈ best → Collects settings (rowsOf settings floor inventory p) e

theorem rowsOf_append (inventory : List InventoryRow) (row : InventoryRow) (p : String) :
    rowsOf settings floor (inventory ++ [row]) p = rowsOf settings floor inventory p ++
      if row.counts settings floor && row.partition == p then [row] else [] := by
  rw [rowsOf, List.filter_append, List.filter_cons]
  rfl

theorem capacity_nonneg (hfloor : 0 ≤ floor) (h : row.counts settings floor = true) :
    0 ≤ row.capacity settings := by
  simp only [InventoryRow.counts, Bool.and_eq_true, decide_eq_true_eq] at h
  exact hfloor.trans h.2

theorem covers_bestByPartition (hfloor : 0 ≤ floor) (inventory : List InventoryRow) :
    Covers settings floor inventory (bestByPartition settings floor inventory) := by
  induction inventory using List.reverseRecOn with
  | nil => exact ⟨List.nodup_nil, fun p ↦ by simp [bestByPartition, rowsOf], by simp [bestByPartition]⟩
  | append_singleton inventory row ih =>
      rw [bestByPartition, List.foldl_append, List.foldl_cons, List.foldl_nil, ← bestByPartition]
      split
      · rename_i hcounts
        refine ⟨record_nodup ih.nodup, fun p ↦ ?_, fun p e he ↦ ?_⟩
        · rw [keys_record, ih.keys, rowsOf_append]
          by_cases hp : row.partition = p
          · simp [hcounts, hp]
          · rw [if_neg (by simp [hp]), List.append_nil]
            exact or_iff_left (Ne.symm hp)
        · rw [rowsOf_append]
          rcases mem_record ih.nodup he with ⟨hne, hmem⟩ | ⟨rfl, e₀, hbefore, rfl⟩
          · rw [if_neg (by simp [Ne.symm hne]), List.append_nil]
            exact ih.collects p e hmem
          · rw [if_pos (by simp [hcounts])]
            rcases hbefore with hmem | ⟨hnot, rfl⟩
            · exact (ih.collects _ e₀ hmem).raise
            · rw [ih.keys, not_not] at hnot
              rw [hnot]
              exact .first (capacity_nonneg hfloor hcounts) _
      · rename_i hcounts
        have hsame (p : String) : rowsOf settings floor (inventory ++ [row]) p =
            rowsOf settings floor inventory p := by
          rw [rowsOf_append, if_neg (by simp [hcounts]), List.append_nil]
        exact ⟨ih.nodup, fun p ↦ by rw [hsame]; exact ih.keys p,
          fun p e he ↦ by rw [hsame]; exact ih.collects p e he⟩

end Best

section Grants

variable {settings : SpreadSettings} {inventory : List InventoryRow}
  {cpus memoryMb requestedCpus : ℤ}

def Listed (settings : SpreadSettings) (floor : ℤ) (inventory : List InventoryRow) (p : String) :
    Prop :=
  rowsOf settings floor inventory p ≠ []

/-- Every listed partition has one usable node for the whole request. -/
def Spread.Startable (settings : SpreadSettings) (inventory : List InventoryRow)
    (requestedCpus : ℤ) (s : Spread) : Prop :=
  ∀ p ∈ s.partitions, requestedCpus ≤ s.cpus ∧ ∃ row ∈ inventory, row.partition = p ∧
    row.usable settings = true ∧ s.cpus ≤ row.capacity settings ∧ s.memoryMb ≤ row.memoryMb

/-- The cores of the node are enough: for the request, or because a listed partition has no node
with more. -/
def CoresSuffice (settings : SpreadSettings) (floor : ℤ) (inventory : List InventoryRow)
    (cpus : ℤ) (row : InventoryRow) : Prop :=
  floor ≤ row.capacity settings ∧ (cpus ≤ row.capacity settings ∨
    ∃ p, Listed settings floor inventory p ∧
      ∀ r ∈ rowsOf settings floor inventory p, r.capacity settings ≤ row.capacity settings)

/-- The memory of the node is enough: for the request, or because a listed partition has no node
with nine tenths of more. -/
def MemorySuffices (settings : SpreadSettings) (floor : ℤ) (inventory : List InventoryRow)
    (memoryMb : ℤ) (row : InventoryRow) : Prop :=
  1024 ≤ row.memoryMb ∧ (memoryMb ≤ row.memoryMb ∨ ∃ p, Listed settings floor inventory p ∧
    ∀ r ∈ rowsOf settings floor inventory p, nineTenths r.memoryMb ≤ row.memoryMb)

theorem nineTenths_mono {m m' : ℤ} (h : m ≤ m') : nineTenths m ≤ nineTenths m' := by
  unfold nineTenths
  omega

theorem capacity_le_iff {floor c : ℤ} {best : List (String × SpreadEntry)}
    (h : Covers settings floor inventory best) (hc : (best.map (·.2.capacity)).min? = some c)
    (row : InventoryRow) : c ≤ row.capacity settings ↔ ∃ p, Listed settings floor inventory p ∧
      ∀ r ∈ rowsOf settings floor inventory p, r.capacity settings ≤ row.capacity settings := by
  obtain ⟨hmem, hleast⟩ := List.min?_eq_some_iff.mp hc
  constructor
  · intro hle
    obtain ⟨⟨p, e⟩, he, rfl⟩ := List.mem_map.mp hmem
    exact ⟨p, (h.keys p).mp (List.mem_map.mpr ⟨_, he, rfl⟩),
      fun r hr ↦ ((h.collects p e he).capacity_le r hr).trans hle⟩
  · rintro ⟨p, hp, hrows⟩
    obtain ⟨⟨p, e⟩, he, rfl⟩ := List.mem_map.mp ((h.keys p).mpr hp)
    obtain ⟨r, hr, hcapacity⟩ := (h.collects p e he).capacity_mem
    exact (hleast _ (List.mem_map.mpr ⟨_, he, rfl⟩)).trans (hcapacity ▸ hrows r hr)

/-- Nine tenths of the least of the largest memories, for a node that has a memory at all. -/
theorem memory_le_iff {floor m : ℤ} {best : List (String × SpreadEntry)}
    (h : Covers settings floor inventory best) (hm : (best.map (·.2.memoryMb)).min? = some m)
    {row : InventoryRow} (hrow : 0 ≤ row.memoryMb) :
    nineTenths m ≤ row.memoryMb ↔ ∃ p, Listed settings floor inventory p ∧
      ∀ r ∈ rowsOf settings floor inventory p, nineTenths r.memoryMb ≤ row.memoryMb := by
  obtain ⟨hmem, hleast⟩ := List.min?_eq_some_iff.mp hm
  constructor
  · intro hle
    obtain ⟨⟨p, e⟩, he, rfl⟩ := List.mem_map.mp hmem
    exact ⟨p, (h.keys p).mp (List.mem_map.mpr ⟨_, he, rfl⟩),
      fun r hr ↦ (nineTenths_mono ((h.collects p e he).memory_le r hr)).trans hle⟩
  · rintro ⟨p, hp, hrows⟩
    obtain ⟨⟨p, e⟩, he, rfl⟩ := List.mem_map.mp ((h.keys p).mpr hp)
    have hle : nineTenths m ≤ nineTenths e.memoryMb :=
      nineTenths_mono (hleast _ (List.mem_map.mpr ⟨_, he, rfl⟩))
    rcases (h.collects p e he).memory_mem with hzero | ⟨r, hr, hmemory⟩
    · rw [hzero] at hle
      exact hle.trans hrow
    · exact hle.trans (hmemory ▸ hrows r hr)

/-- The floor of a request is never negative, so the table of its partitions is complete. -/
theorem covers_spread : Covers settings (spreadFloor cpus requestedCpus) inventory
    (bestByPartition settings (spreadFloor cpus requestedCpus) inventory) :=
  covers_bestByPartition (le_trans zero_le_one (le_max_left ..)) inventory

theorem mem_spread_partitions (memoryMb : ℤ) {p : String} :
    p ∈ (cpuPoolSpread settings inventory cpus memoryMb requestedCpus).partitions ↔
      Listed settings (spreadFloor cpus requestedCpus) inventory p := by
  rw [Listed, ← covers_spread.keys, cpuPoolSpread]
  split
  · exact ((sortedBy_perm _).map _).mem_iff
  · rename_i hnone
    cases hbest : bestByPartition settings (spreadFloor cpus requestedCpus) inventory with
    | nil => rfl
    | cons b best => simp [hbest, List.min?_cons] at hnone

theorem spread_le_iff {p : String} (row : InventoryRow)
    (hp : p ∈ (cpuPoolSpread settings inventory cpus memoryMb requestedCpus).partitions) :
    ((cpuPoolSpread settings inventory cpus memoryMb requestedCpus).cpus ≤ row.capacity settings ↔
        CoresSuffice settings (spreadFloor cpus requestedCpus) inventory cpus row) ∧
      ((cpuPoolSpread settings inventory cpus memoryMb requestedCpus).memoryMb ≤ row.memoryMb ↔
        MemorySuffices settings (spreadFloor cpus requestedCpus) inventory memoryMb row) := by
  rw [cpuPoolSpread] at hp ⊢
  split at hp
  · rename_i c m hc hm
    refine ⟨?_, ?_⟩
    · rw [max_le_iff, min_le_iff, capacity_le_iff covers_spread hc]
      rfl
    · rw [max_le_iff, min_le_iff]
      exact and_congr_right fun hrow ↦
        or_congr_right (memory_le_iff covers_spread hm (le_trans (by decide) hrow))
  · cases hp

/-- A spread request can start in every partition that it lists if and only if each of them has a
node that is large enough both in cores and in memory; the two are measured one by one. -/
theorem spread_startable_iff (settings : SpreadSettings) (inventory : List InventoryRow)
    (cpus memoryMb requestedCpus : ℤ) :
    (cpuPoolSpread settings inventory cpus memoryMb requestedCpus).Startable settings inventory
        requestedCpus ↔
      ∀ p, Listed settings (spreadFloor cpus requestedCpus) inventory p →
        ∃ row ∈ inventory, row.partition = p ∧ row.usable settings = true ∧
          CoresSuffice settings (spreadFloor cpus requestedCpus) inventory cpus row ∧
          MemorySuffices settings (spreadFloor cpus requestedCpus) inventory memoryMb row := by
  refine forall_congr' fun p ↦ ?_
  rw [← mem_spread_partitions memoryMb]
  refine forall_congr' fun hp ↦ ?_
  have hrequested : requestedCpus ≤
      (cpuPoolSpread settings inventory cpus memoryMb requestedCpus).cpus := by
    rw [cpuPoolSpread] at hp ⊢
    split at hp
    · rename_i c m hc hm
      simp only
      exact ((le_max_left ..).trans (le_max_right ..)).trans (le_max_left ..)
    · cases hp
  rw [and_iff_right hrequested]
  refine exists_congr fun row ↦ and_congr_right fun _ ↦ and_congr_right fun _ ↦
    and_congr_right fun _ ↦ ?_
  rw [(spread_le_iff row hp).1, (spread_le_iff row hp).2]

def plainSettings : SpreadSettings where
  lower := id
  isSingleJobPartition _ := false
  cpuPoolAllowGpuPartitions := true
  gpuCpuReserve := 0

/-- The node with the cores is not the node with the memory. -/
theorem spread_not_startable : ¬ (cpuPoolSpread plainSettings
    [{ nodeName := "a", partition := "p", state := "idle", cpus := 64, memoryMb := 64000 },
      { nodeName := "b", partition := "p", state := "idle", cpus := 40, memoryMb := 512000 }]
    64 200000 16).Startable plainSettings
    [{ nodeName := "a", partition := "p", state := "idle", cpus := 64, memoryMb := 64000 },
      { nodeName := "b", partition := "p", state := "idle", cpus := 40, memoryMb := 512000 }] 16 := by
  intro h
  have := h "p" (by decide)
  revert this
  decide

end Grants

end SlurmScheduler.Capacity
