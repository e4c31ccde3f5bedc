import SlurmScheduler.Dispatch.Allocations
import SlurmScheduler.Pool.SharedRows

namespace SlurmScheduler.Dispatch

open Relational Statement
open Pool (TaskStatus AllocationStatus)

namespace Write

def ofTasks : Write → Bool
  | createTask .. | updateTask .. | updateTaskIfStatus .. | updateTaskIfAttachClaim .. => true
  | updatePooledTaskIfReservedCapacity .. | pool .. => true
  | _ => false

def recorded : Write → List Remote
  | remote r => [r]
  | _ => []

end Write

variable {s : State} {w : Write}

theorem exec_tasks (h : w.ofTasks = false) : (w.exec s).tasks = s.tasks := by
  cases w <;> first | rfl | cases h

theorem exec_remote : (w.exec s).remote = s.remote ++ w.recorded := by
  cases w <;> first | rfl | exact (List.append_nil _).symm

theorem allocation?_onAllocations {p : Allocation → Bool} {f : Allocation → Allocation}
    {hf : ∀ a, (f a).id = a.id} (id : ℕ) : (s.onAllocations p f hf).allocation? id =
      (s.allocation? id).map fun a ↦ if p a then f a else a := @Table.find?_update _ _ _ _ _ hf id

theorem task?_onTasks {p : Task → Bool} {f : Task → Task} {hf : ∀ t, (f t).id = t.id} (id : ℕ) :
    (s.onTasks p f hf).task? id = (s.task? id).map fun t ↦ if p t then f t else t :=
  @Table.find?_update _ _ _ _ _ hf id

theorem mem_onTasks {p : Task → Bool} {f : Task → Task} {hf : ∀ t, (f t).id = t.id} {r : Task} :
    r ∈ (s.onTasks p f hf).tasks ↔ ∃ t ∈ s.tasks, (if p t then f t else t) = r :=
  @Table.mem_update _ _ _ _ _ hf r

theorem mem_of_allocation? {id : ℕ} {a : Allocation} (h : s.allocation? id = some a) :
    a ∈ s.allocations ∧ a.id = id := Table.find?_eq_some.mp h

theorem mem_of_task? {id : ℕ} {t : Task} (h : s.task? id = some t) : t ∈ s.tasks ∧ t.id = id :=
  Table.find?_eq_some.mp h

theorem task?_of_mem {t : Task} (h : t ∈ s.tasks) : s.task? t.id = some t :=
  Table.find?_eq_some.mpr ⟨h, rfl⟩

theorem allocation?_of_mem {a : Allocation} (h : a ∈ s.allocations) :
    s.allocation? a.id = some a := Table.find?_eq_some.mpr ⟨h, rfl⟩

theorem allocation?_updateAllocation {id : ℕ} {a seen : Allocation} {c : AllocationChange}
    (h : s.allocation? id = some a) (hseen : seen.id = id) :
    (Write.exec (.updateAllocation seen c) s).allocation? id = some (c.stamp s.clock a) := by
  have hkey : a.id = seen.id := (mem_of_allocation? h).2.trans hseen.symm
  refine (allocation?_onAllocations id).trans ?_
  simp [h, hkey]

theorem mem_listTasksByStatuses {statuses : List TaskStatus} {limit : ℕ} {t : Task}
    (h : t ∈ s.listTasksByStatuses statuses limit) : t ∈ s.tasks ∧ t.status ∈ statuses := by
  have hselect := List.mem_of_mem_take h
  rw [List.mem_reverse, Table.mem_select, List.contains_iff_mem] at hselect
  exact hselect

theorem mem_liveTaskClaims {id : ℕ} {t : Task} :
    t ∈ s.liveTaskClaims id ↔ t ∈ s.tasks ∧ t.claims id = true := Table.mem_select

theorem mem_listAllocationsWithLive {limit liveLimit : ℕ} {a : Allocation}
    (h : a ∈ s.listAllocationsWithLive limit liveLimit) : a ∈ s.allocations :=
  List.mem_reverse.mp (List.mem_of_mem_filter h)

theorem claims_iff {t : Task} {id : ℕ} :
    t.claims id = true ↔ t.allocationId = id ∧ t.status ∈ claiming := by
  simp [Task.claims, claiming]

theorem task?_absorb (s : State) (db : Pool.Db) (id : ℕ) : (s.absorb db).task? id =
    (s.task? id).map fun t ↦
      { t with toTask := { (db.tasks.find? t.id).getD t.toTask with id := t.id } } :=
  @task?_onTasks s (fun _ ↦ true)
    (fun t ↦ { t with toTask := { (db.tasks.find? t.id).getD t.toTask with id := t.id } })
    (fun _ ↦ rfl) id

theorem allocation?_absorb (s : State) (db : Pool.Db) (id : ℕ) : (s.absorb db).allocation? id =
    (s.allocation? id).map fun a ↦
      { a with
        toAllocation := { (db.allocations.find? a.id).getD a.toAllocation with id := a.id } } :=
  @allocation?_onAllocations s (fun _ ↦ true)
    (fun a ↦ { a with
      toAllocation := { (db.allocations.find? a.id).getD a.toAllocation with id := a.id } })
    (fun _ ↦ rfl) id

theorem task?_pool (w : Pool.Write) (s : State) : ∃ g : Pool.Task → Pool.Task,
    (∀ t : Pool.Task, t.Kept (g t)) ∧ ∀ id, (Write.exec (.pool w) s).task? id =
      (s.task? id).map fun t ↦ { t with toTask := g t.toTask } := by
  obtain ⟨g, hg, hrows⟩ := Pool.exec_tasks w s.poolView
  refine ⟨g, hg, fun id ↦ (task?_absorb s _ id).trans ?_⟩
  cases hfind : s.tasks.find? id with
  | none => simp [State.task?, hfind]
  | some t =>
      have hmem : g t.toTask ∈ (w.exec s.poolView).tasks := by
        rw [Table.mem_def, hrows]
        exact List.mem_map_of_mem (List.mem_map_of_mem (Table.find?_eq_some.mp hfind).1)
      have hrow : (w.exec s.poolView).tasks.find? t.id = some (g t.toTask) :=
        Table.find?_eq_some.mpr ⟨hmem, (hg t.toTask).id⟩
      have hid : { g t.toTask with id := t.id } = g t.toTask := by rw [← (hg t.toTask).id]
      simp only [State.task?, hfind, Option.map_some, hrow, Option.getD_some, hid]

theorem allocation?_pool (w : Pool.Write) (s : State) : ∃ g : Pool.Allocation → Pool.Allocation,
    (∀ a : Pool.Allocation, a.Moved (g a)) ∧ ∀ id, (Write.exec (.pool w) s).allocation? id =
      (s.allocation? id).map fun a ↦ { a with toAllocation := g a.toAllocation } := by
  obtain ⟨g, hg, hrows⟩ := Pool.exec_allocations w s.poolView
  refine ⟨g, hg, fun id ↦ (allocation?_absorb s _ id).trans ?_⟩
  cases hfind : s.allocations.find? id with
  | none => simp [State.allocation?, hfind]
  | some a =>
      have hmem : g a.toAllocation ∈ (w.exec s.poolView).allocations := by
        rw [Table.mem_def, hrows]
        exact List.mem_map_of_mem (List.mem_map_of_mem (Table.find?_eq_some.mp hfind).1)
      have hrow : (w.exec s.poolView).allocations.find? a.id = some (g a.toAllocation) :=
        Table.find?_eq_some.mpr ⟨hmem, (hg a.toAllocation).id⟩
      have hid : { g a.toAllocation with id := a.id } = g a.toAllocation := by
        rw [← (hg a.toAllocation).id]
      simp only [State.allocation?, hfind, Option.map_some, hrow, Option.getD_some, hid]

inductive TaskStep (s : State) (t t' : Task) : Write → Prop
  | same (w : Write) : t' = t → TaskStep s t t' w
  | key (seen : Task) (c : TaskChange) : t.id = seen.id → t' = c.stamp s.clock t →
      TaskStep s t t' (.updateTask seen c)
  | status (seen : Task) (expected : List TaskStatus) (c : TaskChange) : t.id = seen.id →
      t.status ∈ expected → t' = c.stamp s.clock t →
      TaskStep s t t' (.updateTaskIfStatus seen expected c)
  | attempt (seen : Task) (token : String) (launchNotStarted : Bool) (c : TaskChange) :
      t.attachClaim seen.id token launchNotStarted = true → t' = c.stamp s.clock t →
      TaskStep s t t' (.updateTaskIfAttachClaim seen token launchNotStarted c)
  | pooled (seen : Task) (claim : PooledClaim) (c : TaskChange) : t.id = seen.id →
      s.reservedCapacity claim t = true → t' = c.stamp s.clock t →
      TaskStep s t t' (.updatePooledTaskIfReservedCapacity seen claim c)
  | pool (w : Pool.Write) (u : Pool.Task) : t.toTask.Kept u → t' = { t with toTask := u } →
      TaskStep s t t' (.pool w)

inductive AllocationStep (s : State) (a a' : Allocation) : Write → Prop
  | same (w : Write) : a' = a → AllocationStep s a a' w
  | key (seen : Allocation) (c : AllocationChange) : a.id = seen.id → a' = c.stamp s.clock a →
      AllocationStep s a a' (.updateAllocation seen c)
  | claim (id : ℕ) (phase : String) (c : AllocationChange) : a.submissionClaim id phase = true →
      a' = c.stamp s.clock a →
      AllocationStep s a a' (.updateAllocationIfSubmissionClaim id phase c)
  | capacity (seen : Allocation) (stats : Reserved) : a.id = seen.id →
      a' = (capacityRow seen stats).stamp s.clock a →
      AllocationStep s a a' (.updateAllocationCapacity seen stats)
  | pool (w : Pool.Write) (b : Pool.Allocation) : a.toAllocation.Moved b →
      a' = { a with toAllocation := b } → AllocationStep s a a' (.pool w)

theorem TaskStep.id_eq {t t' : Task} (h : TaskStep s t t' w) : t'.id = t.id := by
  cases h with
  | same _ h => rw [h]
  | key seen c _ h => rw [h, c.id_stamp]
  | status seen expected c _ _ h => rw [h, c.id_stamp]
  | attempt seen token b c _ h => rw [h, c.id_stamp]
  | pooled seen claim c _ _ h => rw [h, c.id_stamp]
  | pool w u hu h => rw [h]; exact hu.id

theorem AllocationStep.id_eq {a a' : Allocation} (h : AllocationStep s a a' w) :
    a'.id = a.id := by
  cases h with
  | same _ h => rw [h]
  | key seen c _ h => rw [h, c.id_stamp]
  | claim id phase c _ h => rw [h, c.id_stamp]
  | capacity seen stats _ h => rw [h]; rfl
  | pool w b hb h => rw [h]; exact hb.id

theorem exists_taskStep (w : Write) {t : Task} (ht : t ∈ s.tasks) :
    ∃ t', (w.exec s).task? t.id = some t' ∧ TaskStep s t t' w := by
  have hfind := task?_of_mem ht
  have hsame : ∀ s' : State, s'.tasks = s.tasks → s'.task? t.id = some t := fun s' h ↦ by
    rw [State.task?, h]
    exact hfind
  have hupdate : ∀ (p : Task → Bool) (f : Task → Task) (hf : ∀ t, (f t).id = t.id),
      (p t = true → TaskStep s t (f t) w) →
      ∃ t', (s.onTasks p f hf).task? t.id = some t' ∧ TaskStep s t t' w := by
    intro p f hf hstep
    refine ⟨if p t then f t else t, (task?_onTasks t.id).trans (by rw [hfind, Option.map_some]), ?_⟩
    split
    · exact hstep ‹_›
    · exact .same w rfl
  cases w with
  | createTask columns =>
      exact ⟨t, Table.find?_eq_some.mpr ⟨List.mem_append_left _ ht, rfl⟩, .same _ rfl⟩
  | updateTask seen c => exact hupdate _ _ _ fun h ↦ .key seen c (eq_of_beq h) rfl
  | updateTaskIfStatus seen expected c =>
      refine hupdate _ _ _ fun h ↦ ?_
      rw [Bool.and_eq_true, beq_iff_eq, List.contains_iff_mem] at h
      exact .status seen expected c h.1 h.2 rfl
  | updateTaskIfAttachClaim seen token b c =>
      exact hupdate _ _ _ fun h ↦ .attempt seen token b c h rfl
  | updatePooledTaskIfReservedCapacity seen claim c =>
      refine hupdate _ _ _ fun h ↦ ?_
      rw [Bool.and_eq_true, beq_iff_eq] at h
      exact .pooled seen claim c h.1 h.2 rfl
  | pool w =>
      obtain ⟨g, hg, hrow⟩ := task?_pool w s
      exact ⟨_, by rw [hrow, hfind, Option.map_some], .pool w _ (hg _) rfl⟩
  | _ => exact ⟨t, hsame _ rfl, .same _ rfl⟩

theorem exists_allocationStep (w : Write) {a : Allocation} (ha : a ∈ s.allocations) :
    ∃ a', (w.exec s).allocation? a.id = some a' ∧ AllocationStep s a a' w := by
  have hfind := allocation?_of_mem ha
  have hsame : ∀ s' : State, s'.allocations = s.allocations → s'.allocation? a.id = some a :=
    fun s' h ↦ by
      rw [State.allocation?, h]
      exact hfind
  have hupdate : ∀ (p : Allocation → Bool) (f : Allocation → Allocation)
      (hf : ∀ a, (f a).id = a.id), (p a = true → AllocationStep s a (f a) w) →
      ∃ a', (s.onAllocations p f hf).allocation? a.id = some a' ∧ AllocationStep s a a' w := by
    intro p f hf hstep
    refine ⟨if p a then f a else a,
      (allocation?_onAllocations a.id).trans (by rw [hfind, Option.map_some]), ?_⟩
    split
    · exact hstep ‹_›
    · exact .same w rfl
  cases w with
  | createAllocation columns =>
      exact ⟨a, Table.find?_eq_some.mpr ⟨List.mem_append_left _ ha, rfl⟩, .same _ rfl⟩
  | updateAllocation seen c => exact hupdate _ _ _ fun h ↦ .key seen c (eq_of_beq h) rfl
  | updateAllocationIfSubmissionClaim id phase c =>
      exact hupdate _ _ _ fun h ↦ .claim id phase c h rfl
  | updateAllocationCapacity seen stats =>
      exact hupdate _ _ _ fun h ↦ .capacity seen stats (eq_of_beq h) rfl
  | pool w =>
      obtain ⟨g, hg, hrow⟩ := allocation?_pool w s
      exact ⟨_, by rw [hrow, hfind, Option.map_some], .pool w _ (hg _) rfl⟩
  | _ => exact ⟨a, hsame _ rfl, .same _ rfl⟩

theorem taskStep_of_mem {t t' : Task} (ht : t ∈ s.tasks) (ht' : t' ∈ (w.exec s).tasks)
    (hid : t'.id = t.id) : TaskStep s t t' w := by
  obtain ⟨u, hu, hstep⟩ := exists_taskStep w ht
  have hrow : (w.exec s).task? t.id = some t' := Table.find?_eq_some.mpr ⟨ht', hid⟩
  rw [hu, Option.some.injEq] at hrow
  exact hrow ▸ hstep

theorem allocationStep_of_mem {a a' : Allocation} (ha : a ∈ s.allocations)
    (ha' : a' ∈ (w.exec s).allocations) (hid : a'.id = a.id) : AllocationStep s a a' w := by
  obtain ⟨b, hb, hstep⟩ := exists_allocationStep w ha
  have hrow : (w.exec s).allocation? a.id = some a' := Table.find?_eq_some.mpr ⟨ha', hid⟩
  rw [hb, Option.some.injEq] at hrow
  exact hrow ▸ hstep

end SlurmScheduler.Dispatch
