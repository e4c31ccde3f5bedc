import SlurmScheduler.Pool.Closing

namespace SlurmScheduler.Pool

open Relational

structure Task.Kept (t u : Task) : Prop where
  id : u.id = t.id
  allocationId : u.allocationId = t.allocationId
  aedtBackend : u.aedtBackend = t.aedtBackend
  dedupeKey : u.dedupeKey = t.dedupeKey
  status : u.status = t.status ∨ (t.status = .queued ∧ u.status = .cancelled)
  same : t.status ≠ .queued → u = t

structure Allocation.Moved (a b : Allocation) : Prop where
  id : b.id = a.id
  accountName : b.accountName = a.accountName
  slurmJobId : b.slurmJobId = a.slurmJobId
  state : b.state = a.state ∨ (a.state.drainable = true ∧ b.state = .draining) ∨
    (a.state = .draining ∧ b.state = .active)

theorem Task.Kept.refl (t : Task) : t.Kept t := ⟨rfl, rfl, rfl, rfl, .inl rfl, fun _ ↦ rfl⟩

theorem Allocation.Moved.refl (a : Allocation) : a.Moved a := ⟨rfl, rfl, rfl, .inl rfl⟩

def SameShared (db db' : Db) : Prop := db'.tasks = db.tasks ∧ db'.allocations = db.allocations

theorem SameShared.trans {db db' db'' : Db} (h : SameShared db db') (h' : SameShared db' db'') :
    SameShared db db'' := ⟨h'.1.trans h.1, h'.2.trans h.2⟩

theorem refreshSessions_shared (sids : List ℕ) (now : Time) (db : Db) :
    SameShared db (refreshSessions sids now db) := by
  obtain ⟨sessions, hframe⟩ := refreshSessions_frame sids now db
  rw [hframe]
  exact ⟨rfl, rfl⟩

theorem foldl_shared {α : Type} {f : Db → α → Db} (h : ∀ db a, SameShared db (f db a))
    (as : List α) (db : Db) : SameShared db (as.foldl f db) := by
  induction as generalizing db with
  | nil => exact ⟨rfl, rfl⟩
  | cons a as ih => exact (h db a).trans (ih (f db a))

theorem failCohort_shared (key : String) (now : Time) (reason : String) (settle : Bool)
    (db : Db) : SameShared db (failCohort key now reason settle db) := by
  cases settle <;> exact ⟨rfl, rfl⟩

theorem failTargetCohorts_shared (sid : ℕ) (now : Time) (reason : String) (db : Db) :
    SameShared db (failTargetCohorts sid now reason db) :=
  foldl_shared (fun db key ↦ failCohort_shared key now reason false db) _ db

theorem closeOccupants_shared (sid : ℕ) (c : Closure) (live : ℕ) (expires now : Time) (db : Db) :
    SameShared db (closeOccupants sid c live expires now db) := by
  unfold closeOccupants
  split
  · exact ⟨rfl, rfl⟩
  · split <;> exact ⟨rfl, rfl⟩

theorem claimCanarySlot_shared (slotId admissionId leaseId : ℕ) (now : Time) (db : Db) :
    SameShared db (claimCanarySlot slotId admissionId leaseId now db) := by
  unfold claimCanarySlot
  dsimp only
  split <;> exact ⟨rfl, rfl⟩

def Write.touchesShared : Write → Bool
  | .pinTask .. | .unpinTask .. | .retireBlockedStart .. => true
  | .restoreAllocation .. | .reportAedtDeath .. | .solverTimeout .. | .confirmDeath .. => true
  | .closeSession .. | .rotateAllocations .. | .drainUnhealthyAllocations .. => true
  | .reviveAllocation .. => true
  | _ => false

theorem exec_shared {w : Write} (h : w.touchesShared = false) (db : Db) :
    SameShared db (w.exec db) := by
  cases w with
  | failCohort key now reason settle refresh =>
      exact (failCohort_shared key now reason settle db).trans (refreshSessions_shared _ _ _)
  | reserve terms tasks now => exact foldl_shared (f := reserveSlot terms now) (fun _ _ ↦ ⟨rfl, rfl⟩) tasks db
  | openCanary sid group profile slots expires now =>
      refine SameShared.trans ?_ (foldl_shared ?_ slots _)
      · exact ⟨rfl, rfl⟩
      · exact fun _ _ ↦ ⟨rfl, rfl⟩
  | supersedeLease leaseId sid archivedKey now =>
      exact SameShared.trans ⟨rfl, rfl⟩ (refreshSessions_shared _ _ _)
  | admitLease q reservation canary now =>
      cases reservation <;> cases canary
      · exact ⟨rfl, rfl⟩
      · exact ⟨(claimCanarySlot_shared _ _ _ _ _).1, (claimCanarySlot_shared _ _ _ _ _).2⟩
      · exact ⟨rfl, rfl⟩
      · exact ⟨(claimCanarySlot_shared _ _ _ _ _).1, (claimCanarySlot_shared _ _ _ _ _).2⟩
  | place l sid slot offerExpires now =>
      simp only [Write.exec]
      unfold place seatLease refreshSession consumeReservation
      dsimp only
      split <;> split <;> exact ⟨rfl, rfl⟩
  | revokeOffer l expires now =>
      simp only [Write.exec]
      unfold revokeOffer
      dsimp only
      refine SameShared.trans ?_ (refreshSessions_shared _ _ _)
      split <;> exact ⟨rfl, rfl⟩
  | requeueOffer l now => exact SameShared.trans ⟨rfl, rfl⟩ (refreshSessions_shared _ _ _)
  | rejectOffer l cohort now =>
      refine SameShared.trans ?_ (refreshSessions_shared _ _ _)
      cases cohort with
      | none => exact ⟨rfl, rfl⟩
      | some key => exact (failCohort_shared key now _ false db).trans ⟨rfl, rfl⟩
  | beginRelease leaseId sid reason now => cases sid <;> exact ⟨rfl, rfl⟩
  | cancelLease leaseId sid reason now =>
      exact SameShared.trans ⟨rfl, rfl⟩ (refreshSessions_shared _ _ _)
  | expireOffer leaseId sid now => exact SameShared.trans ⟨rfl, rfl⟩ (refreshSessions_shared _ _ _)
  | completeRelease sid leaseId success message now => cases success <;> exact ⟨rfl, rfl⟩
  | _ => first | exact ⟨rfl, rfl⟩ | cases h

/-- The rows that an update leaves are the images of the rows before it. -/
theorem rows_update {α : Type} {rows : List α} {p : α → Bool} {f : α → α} {R : α → α → Prop}
    (hrefl : ∀ a, R a a) (h : ∀ a, p a = true → R a (f a)) :
    ∃ g : α → α, (∀ a, R a (g a)) ∧ (rows.map fun a ↦ if p a then f a else a) = rows.map g := by
  refine ⟨fun a ↦ if p a then f a else a, fun a ↦ ?_, rfl⟩
  dsimp only
  split
  · exact h a ‹_›
  · exact hrefl a

theorem exec_tasks (w : Write) (db : Db) :
    ∃ g : Task → Task, (∀ t : Task, t.Kept (g t)) ∧ (w.exec db).tasks.rows = db.tasks.rows.map g := by
  have hsame : ∀ db' : Db, db'.tasks = db.tasks → ∃ g : Task → Task,
      (∀ t : Task, t.Kept (g t)) ∧ db'.tasks.rows = db.tasks.rows.map g := fun db' h ↦
    ⟨id, Task.Kept.refl, by rw [h, List.map_id]⟩
  have hqueued : ∀ {t : Task} {c : Bool}, (c && t.status == .queued) = true → t.status = .queued :=
    fun h ↦ by simpa using (Bool.and_eq_true_iff.mp h).2
  cases w with
  | pinTask taskId allocationId nodeName cpus now =>
      exact rows_update Task.Kept.refl fun t ht ↦
        ⟨rfl, rfl, rfl, rfl, .inl rfl, fun h ↦ absurd (hqueued ht) h⟩
  | unpinTask taskId now =>
      exact rows_update Task.Kept.refl fun t ht ↦
        ⟨rfl, rfl, rfl, rfl, .inl rfl, fun h ↦ absurd (hqueued ht) h⟩
  | retireBlockedStart s reason now =>
      refine rows_update Task.Kept.refl fun t ht ↦ ?_
      have hstatus : t.status = .queued := by
        simp only [Bool.and_eq_true, beq_iff_eq] at ht
        exact ht.1.1
      exact ⟨rfl, rfl, rfl, rfl, .inr ⟨hstatus, rfl⟩, fun h ↦ absurd hstatus h⟩
  | closeSession sid aid c live expires now =>
      have hbefore : SameShared db (finishSession sid c now
          (closeOccupants sid c live expires now
            (failTargetCohorts sid now (closeReason sid c) db))) :=
        ((failTargetCohorts_shared _ _ _ db).trans (closeOccupants_shared _ _ _ _ _ _)).trans
          ⟨rfl, rfl⟩
      refine hsame _ ?_
      simp only [Write.exec, closeSession]
      split
      · exact hbefore.1
      · exact hbefore.1
  | _ => exact hsame _ (by first | rfl | exact (exec_shared rfl db).1)

theorem drained_moved {a b : Allocation} (h : a.state.drainable = true)
    (hid : b.id = a.id) (haccount : b.accountName = a.accountName)
    (hjob : b.slurmJobId = a.slurmJobId) (hstate : b.state = .draining) : a.Moved b :=
  ⟨hid, haccount, hjob, .inr (.inl ⟨h, hstate⟩)⟩

theorem drainAllocation_rows (aid : ℕ) (reason : String) (now : Time) (db : Db) :
    ∃ g : Allocation → Allocation, (∀ a : Allocation, a.Moved (g a)) ∧
      (drainAllocation aid reason now db).allocations.rows = db.allocations.rows.map g :=
  rows_update Allocation.Moved.refl fun _ ha ↦
    drained_moved (Bool.and_eq_true_iff.mp ha).2 rfl rfl rfl rfl

theorem exec_allocations (w : Write) (db : Db) :
    ∃ g : Allocation → Allocation, (∀ a : Allocation, a.Moved (g a)) ∧
      (w.exec db).allocations.rows = db.allocations.rows.map g := by
  have hsame : ∀ db' : Db, db'.allocations = db.allocations → ∃ g : Allocation → Allocation,
      (∀ a : Allocation, a.Moved (g a)) ∧ db'.allocations.rows = db.allocations.rows.map g := fun db' h ↦
    ⟨id, Allocation.Moved.refl, by rw [h, List.map_id]⟩
  have hrevived : ∀ {a : Allocation} {c c' : Bool},
      (c && a.state == .draining && c') = true → a.state = .draining := fun h ↦ by
    simp only [Bool.and_eq_true, beq_iff_eq] at h
    exact h.1.2
  cases w with
  | restoreAllocation aid now =>
      exact rows_update Allocation.Moved.refl fun a ha ↦
        ⟨rfl, rfl, rfl, .inr (.inr ⟨hrevived ha, rfl⟩)⟩
  | reviveAllocation aid now =>
      exact rows_update Allocation.Moved.refl fun a ha ↦
        ⟨rfl, rfl, rfl, .inr (.inr ⟨hrevived ha, rfl⟩)⟩
  | reportAedtDeath sid aid message now => exact drainAllocation_rows aid _ now _
  | solverTimeout leaseId sid aid message until_ now => exact drainAllocation_rows aid _ now _
  | confirmDeath sid aid message evidence now => exact drainAllocation_rows aid _ now _
  | closeSession sid aid c live expires now =>
      simp only [Write.exec, closeSession_allocations]
      split
      · exact drainAllocation_rows aid _ now db
      · exact hsame db rfl
  | rotateAllocations cutoff now =>
      refine rows_update Allocation.Moved.refl fun a ha ↦ ?_
      have hserving : a.state.serving = true := by
        simp only [Bool.and_eq_true] at ha
        exact ha.1.1
      refine drained_moved ?_ rfl rfl rfl rfl
      revert hserving
      cases a.state <;> decide
  | drainUnhealthyAllocations cutoff now =>
      refine rows_update Allocation.Moved.refl fun a ha ↦ ?_
      exact drained_moved (Bool.and_eq_true_iff.mp ha).1 rfl rfl rfl rfl
  | _ => exact hsame _ (by first | rfl | exact (exec_shared rfl db).2)

end SlurmScheduler.Pool
