import SlurmScheduler.Relational.Rotation
import Mathlib.Data.String.Basic

namespace SlurmScheduler.Dispatch

open Relational

/-- The columns of a queued FEA task that its turn depends on. -/
structure QueuedTask where
  id : ℕ
  project : String := ""
  priority : ℤ := 0
  deriving DecidableEq

def QueuedTask.order (t : QueuedTask) : ℤ ×ₗ ℕ := toLex (-t.priority, t.id)

/-- `_fea_project_last_claim`, which `load_fea_project_claim_cursor` restores -/
abbrev ClaimCursor : Type := ℤ → Option String

def prioritiesOf (tasks : List QueuedTask) : List ℤ :=
  (sortedBy (fun p ↦ p) (tasks.map (·.priority)).dedup).reverse

def projectsOf (tasks : List QueuedTask) (priority : ℤ) : List String :=
  sortedBy (fun p ↦ p) ((tasks.filter (·.priority == priority)).map (·.project)).dedup

/-- `grouped[priority][project]` -/
def queueOf (tasks : List QueuedTask) (priority : ℤ) (project : String) : List QueuedTask :=
  tasks.filter fun t ↦ t.priority == priority && t.project == project

def rotated (names : List String) : Option String → List String
  | none => names
  | some last => names.drop (bisectRight names last) ++ names.take (bisectRight names last)

/-- `while projects`: one task of each queue in a round. -/
def rounds : ℕ → List (List QueuedTask) → List QueuedTask
  | 0, _ => []
  | fuel + 1, queues =>
      queues.filterMap (·.head?) ++ rounds fuel ((queues.map (·.tail)).filter (!·.isEmpty))

def turnsOf (tasks : List QueuedTask) (cursor : ClaimCursor) (priority : ℤ) : List QueuedTask :=
  rounds tasks.length
    ((rotated (projectsOf tasks priority) (cursor priority)).map (queueOf tasks priority))

def projectFairQueueOrder (tasks : List QueuedTask) (cursor : ClaimCursor) : List QueuedTask :=
  let sorted := sortedBy (·.order) tasks
  (prioritiesOf sorted).flatMap (turnsOf sorted cursor)

structure FeaLimits where
  baselineMaxAttachPerLoop : ℕ
  maxAttachPerLoop : ℕ

/-- What `assign_queued_task` returns, and `_fea_last_attach_baseline` after it. -/
structure AttachAnswer where
  accepted : Bool
  baseline : Bool := false

structure ClaimAttempt where
  task : QueuedTask
  baselineOnly : Bool
  accepted : Bool

def persistFeaProjectClaim (cursor : ClaimCursor) (task : QueuedTask) : ClaimCursor :=
  Function.update cursor task.priority (some task.project)

/-- The loop of `assign_ready_fea_tasks`; the answers are those of the attempts in order. -/
def attemptTasks (limits : FeaLimits) (answer : ℕ → AttachAnswer) :
    List QueuedTask → (baseline overcommit attempts : ℕ) → ClaimCursor →
    List ClaimAttempt × ClaimCursor
  | [], _, _, _, cursor => ([], cursor)
  | task :: rest, baseline, overcommit, attempts, cursor =>
      if limits.baselineMaxAttachPerLoop ≤ baseline then ([], cursor) else
      let reply := answer attempts
      let later := if reply.accepted then
          attemptTasks limits answer rest (if reply.baseline then baseline + 1 else baseline)
            (if reply.baseline then overcommit else overcommit + 1) (attempts + 1)
            (persistFeaProjectClaim cursor task)
        else attemptTasks limits answer rest baseline overcommit (attempts + 1) cursor
      (⟨task, limits.maxAttachPerLoop ≤ overcommit, reply.accepted⟩ :: later.1, later.2)

/-- A tick: the tasks that it finds in the queue, and the answers to its attempts. -/
structure FeaTick where
  queued : List QueuedTask
  answer : ℕ → AttachAnswer

def assignReadyFeaTasks (limits : FeaLimits) (cursor : ClaimCursor) (tick : FeaTick) :
    List ClaimAttempt × ClaimCursor :=
  attemptTasks limits tick.answer (projectFairQueueOrder tick.queued cursor) 0 0 0 cursor

def feaTicks (limits : FeaLimits) : ClaimCursor → List FeaTick → List (List ClaimAttempt)
  | _, [] => []
  | cursor, tick :: later =>
      let done := assignReadyFeaTasks limits cursor tick
      done.1 :: feaTicks limits done.2 later

def Separate (queues : List (List QueuedTask)) : Prop :=
  queues.Pairwise fun q q' ↦ ∀ t ∈ q, ∀ u ∈ q', t.project ≠ u.project

def Homogeneous (queues : List (List QueuedTask)) : Prop :=
  ∀ q ∈ queues, ∀ t ∈ q, ∀ u ∈ q, t.project = u.project

def heads (queues : List (List QueuedTask)) : List QueuedTask := queues.filterMap (·.head?)

def tails (queues : List (List QueuedTask)) : List (List QueuedTask) :=
  (queues.map (·.tail)).filter (!·.isEmpty)

section Rounds

variable {queues : List (List QueuedTask)} {fuel : ℕ}

theorem rounds_succ (fuel : ℕ) (queues : List (List QueuedTask)) :
    rounds (fuel + 1) queues = heads queues ++ rounds fuel (tails queues) := rfl

theorem flatten_tails (queues : List (List QueuedTask)) :
    (tails queues).flatten = (queues.map (·.tail)).flatten := by
  unfold tails
  induction queues with
  | nil => rfl
  | cons q qs ih => cases hq : q.tail <;> simp [hq, ih]

theorem flatten_perm (queues : List (List QueuedTask)) :
    queues.flatten.Perm (heads queues ++ (tails queues).flatten) := by
  rw [flatten_tails]
  unfold heads
  induction queues with
  | nil => rfl
  | cons q qs ih =>
      cases q with
      | nil => exact ih
      | cons t q =>
          simp only [List.flatten_cons, List.filterMap_cons, List.head?_cons, List.map_cons,
            List.tail_cons, List.cons_append]
          refine List.Perm.cons t ((List.Perm.append_left q ih).trans ?_)
          rw [← List.append_assoc, ← List.append_assoc]
          exact List.Perm.append_right _ List.perm_append_comm

theorem heads_pos (h : queues.flatten ≠ []) : 0 < (heads queues).length := by
  obtain ⟨t, ht⟩ := List.exists_mem_of_ne_nil _ h
  obtain ⟨q, hq, htq⟩ := List.mem_flatten.mp ht
  obtain ⟨u, q', rfl⟩ := List.exists_cons_of_ne_nil (List.ne_nil_of_mem htq)
  exact List.length_pos_of_mem (List.mem_filterMap.mpr ⟨_, hq, rfl⟩)

theorem rounds_perm (h : queues.flatten.length ≤ fuel) : (rounds fuel queues).Perm queues.flatten := by
  induction fuel generalizing queues with
  | zero =>
      rw [List.length_eq_zero_iff.mp (Nat.le_zero.mp h)]
      exact List.Perm.refl _
  | succ fuel ih =>
      rw [rounds_succ]
      have hsplit := flatten_perm queues
      by_cases hempty : queues.flatten = []
      · have hlength := hsplit.length_eq
        rw [hempty, List.length_nil, List.length_append] at hlength
        have hrest : (rounds fuel (tails queues)).Perm (tails queues).flatten := ih (by omega)
        rw [hempty] at hsplit ⊢
        exact (List.Perm.append_left _ hrest).trans hsplit.symm
      · have hpos := heads_pos hempty
        have hlength := hsplit.length_eq
        rw [List.length_append] at hlength
        exact (List.Perm.append_left _ (ih (by omega))).trans hsplit.symm

theorem mem_flatten_of_mem_rounds {t : QueuedTask} (h : t ∈ rounds fuel queues) :
    t ∈ queues.flatten := by
  induction fuel generalizing queues with
  | zero => cases h
  | succ fuel ih =>
      rw [rounds_succ, List.mem_append] at h
      exact (flatten_perm queues).mem_iff.mpr (List.mem_append.mpr (h.imp_right ih))

theorem mem_tails_flatten {t : QueuedTask} (h : t ∈ (tails queues).flatten) :
    ∃ u q, u :: q ∈ queues ∧ t ∈ q := by
  rw [flatten_tails] at h
  obtain ⟨q, hq, ht⟩ := List.mem_flatten.mp h
  obtain ⟨q', hq', rfl⟩ := List.mem_map.mp hq
  cases q' with
  | nil => cases ht
  | cons u q => exact ⟨u, q, hq', ht⟩

theorem Homogeneous.tails (h : Homogeneous queues) : Homogeneous (tails queues) := by
  intro q hq t ht u hu
  obtain ⟨q', hq', rfl⟩ := List.mem_map.mp (List.mem_filter.mp hq).1
  exact h q' hq' t (List.mem_of_mem_tail ht) u (List.mem_of_mem_tail hu)

theorem Separate.tails (h : Separate queues) : Separate (tails queues) := by
  refine List.Pairwise.filter _ (List.pairwise_map.mpr (h.imp fun hqq' t ht u hu ↦ ?_))
  exact hqq' t (List.mem_of_mem_tail ht) u (List.mem_of_mem_tail hu)

theorem heads_pairwise (h : Separate queues) :
    (heads queues).Pairwise fun t u ↦ t.project ≠ u.project := by
  refine List.pairwise_filterMap.mpr (h.imp fun hqq' t ht u hu ↦ ?_)
  exact hqq' t (List.mem_of_mem_head? ht) u (List.mem_of_mem_head? hu)

def countOf (project : String) (tasks : List QueuedTask) : ℕ := tasks.countP (·.project == project)

theorem countOf_heads_le (h : Separate queues) (project : String) {round : List QueuedTask}
    (hround : round.Sublist (heads queues)) : countOf project round ≤ 1 := by
  have hpairwise := (heads_pairwise h).sublist hround
  unfold countOf
  induction round with
  | nil => simp
  | cons t ts ih =>
      rw [List.pairwise_cons] at hpairwise
      have hrest := ih ((List.sublist_cons_self ..).trans hround) hpairwise.2
      rw [List.countP_cons]
      by_cases ht : t.project = project
      · have hnone : ts.countP (·.project == project) = 0 :=
          List.countP_eq_zero.mpr fun u hu ↦ by simpa using fun h ↦ hpairwise.1 u hu (ht.trans h.symm)
        simp [hnone]
        split <;> omega
      · simp [ht]
        omega

/-- A project whose tasks go on after the round has had its turn in it. -/
theorem countOf_heads (hhomogeneous : Homogeneous queues) (h : Separate queues) {project : String}
    (hleft : ∃ t ∈ rounds fuel (tails queues), t.project = project) :
    countOf project (heads queues) = 1 := by
  obtain ⟨t, ht, rfl⟩ := hleft
  obtain ⟨u, q, hq, htq⟩ := mem_tails_flatten (mem_flatten_of_mem_rounds ht)
  have hu : u ∈ heads queues := List.mem_filterMap.mpr ⟨_, hq, rfl⟩
  have hproject : u.project = t.project :=
    hhomogeneous _ hq u (List.mem_cons_self ..) t (List.mem_cons_of_mem _ htq)
  have hpos : 0 < countOf t.project (heads queues) :=
    List.countP_pos_iff.mpr ⟨u, hu, by simp [hproject]⟩
  have hle := countOf_heads_le h t.project (List.Sublist.refl _)
  omega

/-- Two projects with tasks after a prefix have had the same turns in it, up to one. -/
theorem rounds_balanced (hhomogeneous : Homogeneous queues) (h : Separate queues) (k : ℕ)
    {a b : String} (ha : ∃ t ∈ (rounds fuel queues).drop k, t.project = a)
    (hb : ∃ t ∈ (rounds fuel queues).drop k, t.project = b) :
    countOf a ((rounds fuel queues).take k) ≤ countOf b ((rounds fuel queues).take k) + 1 := by
  induction fuel generalizing queues k with
  | zero => simp [rounds] at ha
  | succ fuel ih =>
      rw [rounds_succ] at ha hb ⊢
      rcases Nat.lt_or_ge k (heads queues).length with hk | hk
      · rw [List.take_append_of_le_length hk.le]
        have := countOf_heads_le h a (List.take_sublist k _)
        omega
      · rw [List.drop_append, List.drop_eq_nil_of_le hk, List.nil_append] at ha hb
        rw [List.take_append, List.take_of_length_le hk]
        have hafter := ih hhomogeneous.tails h.tails _ ha hb
        obtain ⟨t, ht, hta⟩ := ha
        obtain ⟨u, hu, hub⟩ := hb
        have haturn := countOf_heads hhomogeneous h ⟨t, List.mem_of_mem_drop ht, hta⟩
        have hbturn := countOf_heads hhomogeneous h ⟨u, List.mem_of_mem_drop hu, hub⟩
        unfold countOf at *
        rw [List.countP_append, List.countP_append]
        omega

theorem rounds_fifo {R : QueuedTask → QueuedTask → Prop} (hhomogeneous : Homogeneous queues)
    (h : Separate queues) (hR : ∀ q ∈ queues, q.Pairwise R) :
    (rounds fuel queues).Pairwise fun t u ↦ t.project = u.project → R t u := by
  induction fuel generalizing queues with
  | zero => exact List.Pairwise.nil
  | succ fuel ih =>
      rw [rounds_succ, List.pairwise_append]
      refine ⟨(heads_pairwise h).imp fun hne heq ↦ absurd heq hne,
        ih hhomogeneous.tails h.tails fun q hq ↦ ?_, fun t ht u hu hproject ↦ ?_⟩
      · obtain ⟨q', hq', rfl⟩ := List.mem_map.mp (List.mem_filter.mp hq).1
        exact (hR q' hq').sublist (List.tail_sublist q')
      · obtain ⟨q, hq, hhead⟩ := List.mem_filterMap.mp ht
        obtain ⟨v, q', hq', huq'⟩ := mem_tails_flatten (mem_flatten_of_mem_rounds hu)
        -- the two tasks are of one project, so of one queue
        have hsame : q = v :: q' := by
          by_contra hne
          have hsymm : Std.Symm fun q q' : List QueuedTask ↦
              ∀ t ∈ q, ∀ u ∈ q', t.project ≠ u.project :=
            ⟨fun _ _ h t ht u hu ↦ (h u hu t ht).symm⟩
          exact List.Pairwise.forall h hq hq' hne t (List.mem_of_mem_head? hhead) u
            (List.mem_cons_of_mem _ huq') hproject
        subst hsame
        cases hhead
        exact List.rel_of_pairwise_cons (hR _ hq') huq'

end Rounds

section Turns

variable {tasks : List QueuedTask} {cursor : ClaimCursor} {priority : ℤ} {project : String}

def nameKey (name : String) : WithBot String := name

def cursorKey : Option String → WithBot String
  | none => ⊥
  | some last => last

theorem rotated_eq {names : List String} (h : names.Pairwise (· < ·)) (last : Option String) :
    rotated names last = rotate nameKey (cursorKey last) names := by
  cases last with
  | none => simp [rotated, rotate, cursorKey, nameKey]
  | some last =>
      obtain ⟨hdrop, htake⟩ := bisect_sorted h last
      simp [rotated, rotate, cursorKey, nameKey, hdrop, htake]

theorem projectsOf_pairwise (tasks : List QueuedTask) (priority : ℤ) :
    (projectsOf tasks priority).Pairwise (· < ·) :=
  sortedBy_pairwise_lt (by rw [List.map_id']; exact List.nodup_dedup _)

theorem mem_projectsOf :
    project ∈ projectsOf tasks priority ↔
      ∃ t ∈ tasks, t.priority = priority ∧ t.project = project := by
  simp [projectsOf, and_assoc]

def turnOrder (tasks : List QueuedTask) (cursor : ClaimCursor) (priority : ℤ) : List String :=
  rotate nameKey (cursorKey (cursor priority)) (projectsOf tasks priority)

def turnQueues (tasks : List QueuedTask) (cursor : ClaimCursor) (priority : ℤ) :
    List (List QueuedTask) :=
  (turnOrder tasks cursor priority).map (queueOf tasks priority)

theorem turnsOf_eq : turnsOf tasks cursor priority =
    rounds tasks.length (turnQueues tasks cursor priority) := by
  rw [turnsOf, rotated_eq (projectsOf_pairwise tasks priority)]
  rfl

theorem turnOrder_perm : (turnOrder tasks cursor priority).Perm (projectsOf tasks priority) :=
  rotate_perm ..

theorem turnOrder_pairwise (tasks : List QueuedTask) (cursor : ClaimCursor) (priority : ℤ) :
    (turnOrder tasks cursor priority).Pairwise fun a b ↦
      Ahead (cursorKey (cursor priority)) (nameKey a) (nameKey b) :=
  rotate_pairwise ((projectsOf_pairwise tasks priority).imp fun h ↦ WithBot.coe_lt_coe.mpr h)

theorem mem_queueOf {t : QueuedTask} (h : t ∈ queueOf tasks priority project) :
    t ∈ tasks ∧ t.priority = priority ∧ t.project = project := by
  simpa [queueOf, and_assoc] using h

theorem turnQueues_homogeneous : Homogeneous (turnQueues tasks cursor priority) := by
  intro q hq t ht u hu
  obtain ⟨name, -, rfl⟩ := List.mem_map.mp hq
  exact (mem_queueOf ht).2.2.trans (mem_queueOf hu).2.2.symm

theorem turnQueues_separate : Separate (turnQueues tasks cursor priority) := by
  have hnodup : (turnOrder tasks cursor priority).Nodup :=
    turnOrder_perm.nodup_iff.mpr ((projectsOf_pairwise tasks priority).imp fun h ↦ ne_of_lt h)
  refine List.pairwise_map.mpr (hnodup.imp fun hne t ht u hu ↦ ?_)
  rw [(mem_queueOf ht).2.2, (mem_queueOf hu).2.2]
  exact hne

theorem turnQueues_flatten_perm :
    (turnQueues tasks cursor priority).flatten.Perm (tasks.filter (·.priority == priority)) := by
  have hnodup : (turnOrder tasks cursor priority).Nodup :=
    turnOrder_perm.nodup_iff.mpr ((projectsOf_pairwise tasks priority).imp fun h ↦ ne_of_lt h)
  have hgroups := groups_perm (fun t : QueuedTask ↦ t.project) hnodup
    (tasks.filter (·.priority == priority))
  have hall : (tasks.filter (·.priority == priority)).filter
      ((turnOrder tasks cursor priority).contains <| ·.project) =
        tasks.filter (·.priority == priority) := by
    refine List.filter_eq_self.mpr fun t ht ↦ ?_
    obtain ⟨ht, hpriority⟩ := List.mem_filter.mp ht
    rw [List.contains_iff_mem, turnOrder_perm.mem_iff, mem_projectsOf]
    exact ⟨t, ht, by simpa using hpriority, rfl⟩
  rw [hall] at hgroups
  have hqueue : queueOf tasks priority =
      fun name ↦ (tasks.filter (·.priority == priority)).filter (·.project == name) := by
    funext name
    rw [queueOf, List.filter_filter]
    exact List.filter_congr fun t _ ↦ Bool.and_comm ..
  rw [turnQueues, ← List.flatMap_def, hqueue]
  exact hgroups

theorem turnsOf_perm :
    (turnsOf tasks cursor priority).Perm (tasks.filter (·.priority == priority)) := by
  rw [turnsOf_eq]
  refine (rounds_perm ?_).trans turnQueues_flatten_perm
  rw [turnQueues_flatten_perm.length_eq]
  exact List.length_filter_le ..

theorem mem_turnsOf {t : QueuedTask} (h : t ∈ turnsOf tasks cursor priority) :
    t ∈ tasks ∧ t.priority = priority := by
  simpa using turnsOf_perm.mem_iff.mp h

end Turns

/-- Fair among the projects of one priority. -/
structure FairOrder (tasks ordered : List QueuedTask) : Prop where
  perm : ordered.Perm tasks
  priority : ordered.Pairwise fun t u ↦ u.priority ≤ t.priority
  fifo : ordered.Pairwise fun t u ↦
    t.priority = u.priority → t.project = u.project → t.id ≤ u.id
  balanced : ∀ (p : ℤ) (k : ℕ) (a b : String),
    (∃ t ∈ ordered.drop k, t.priority = p ∧ t.project = a) →
    (∃ t ∈ ordered.drop k, t.priority = p ∧ t.project = b) →
    countOf a ((ordered.take k).filter (·.priority == p)) ≤
      countOf b ((ordered.take k).filter (·.priority == p)) + 1

section Order

variable {tasks : List QueuedTask} {cursor : ClaimCursor} {priority : ℤ}

theorem mem_prioritiesOf : priority ∈ prioritiesOf tasks ↔ ∃ t ∈ tasks, t.priority = priority := by
  simp [prioritiesOf]

theorem prioritiesOf_pairwise (tasks : List QueuedTask) :
    (prioritiesOf tasks).Pairwise (· > ·) := by
  rw [prioritiesOf, List.pairwise_reverse]
  exact sortedBy_pairwise_lt (by rw [List.map_id']; exact List.nodup_dedup _)

theorem prioritiesOf_nodup (tasks : List QueuedTask) : (prioritiesOf tasks).Nodup :=
  (prioritiesOf_pairwise tasks).imp fun h ↦ (ne_of_lt h).symm

def filed (tasks : List QueuedTask) : List QueuedTask := sortedBy (·.order) tasks

theorem projectFairQueueOrder_eq : projectFairQueueOrder tasks cursor =
    (prioritiesOf (filed tasks)).flatMap (turnsOf (filed tasks) cursor) := rfl

theorem projectFairQueueOrder_perm : (projectFairQueueOrder tasks cursor).Perm tasks := by
  have hgroups := groups_perm (·.priority) (prioritiesOf_nodup (filed tasks)) (filed tasks)
  have hall : (filed tasks).filter ((prioritiesOf (filed tasks)).contains <| ·.priority) =
      filed tasks := by
    refine List.filter_eq_self.mpr fun t ht ↦ ?_
    rw [List.contains_iff_mem, mem_prioritiesOf]
    exact ⟨t, ht, rfl⟩
  rw [hall] at hgroups
  rw [projectFairQueueOrder_eq]
  exact ((List.Perm.refl _).flatMap fun p _ ↦ turnsOf_perm).trans
    (hgroups.trans (sortedBy_perm tasks))

/-- The tasks of one priority in the whole order are those of its turns. -/
theorem projectFairQueueOrder_filter (h : priority ∈ prioritiesOf (filed tasks)) :
    (projectFairQueueOrder tasks cursor).filter (·.priority == priority) =
      turnsOf (filed tasks) cursor priority := by
  rw [projectFairQueueOrder_eq, List.filter_flatMap]
  obtain ⟨before, after, hsplit⟩ := List.append_of_mem h
  have hnodup := prioritiesOf_nodup (filed tasks)
  rw [hsplit, List.nodup_append] at hnodup
  obtain ⟨-, hafter, hbefore⟩ := hnodup
  have hnone {p : ℤ} (hp : p ≠ priority) :
      (turnsOf (filed tasks) cursor p).filter (·.priority == priority) = [] :=
    List.filter_eq_nil_iff.mpr fun t ht ↦ by simpa [(mem_turnsOf ht).2] using hp
  have hself : (turnsOf (filed tasks) cursor priority).filter (·.priority == priority) =
      turnsOf (filed tasks) cursor priority :=
    List.filter_eq_self.mpr fun t ht ↦ by simpa using (mem_turnsOf ht).2
  rw [hsplit, List.flatMap_append, List.flatMap_cons, hself,
    List.flatMap_eq_nil_iff.mpr fun p hp ↦
      hnone (hbefore p hp priority (List.mem_cons_self ..)),
    List.flatMap_eq_nil_iff.mpr fun p hp ↦
      hnone fun heq ↦ (List.nodup_cons.mp hafter).1 (heq ▸ hp), List.nil_append, List.append_nil]

theorem turnsOf_fifo :
    (turnsOf (filed tasks) cursor priority).Pairwise fun t u ↦ t.project = u.project → t.id ≤ u.id := by
  rw [turnsOf_eq]
  refine rounds_fifo turnQueues_homogeneous turnQueues_separate fun q hq ↦ ?_
  obtain ⟨name, -, rfl⟩ := List.mem_map.mp hq
  have hsorted : (queueOf (filed tasks) priority name).Pairwise (·.order ≤ ·.order) :=
    (sortedBy_pairwise tasks).filter _
  refine hsorted.imp_of_mem fun {t u} ht hu htu ↦ ?_
  rw [QueuedTask.order, QueuedTask.order, Prod.Lex.toLex_le_toLex, (mem_queueOf ht).2.1,
    (mem_queueOf hu).2.1] at htu
  exact htu.elim (fun h ↦ absurd h (lt_irrefl _)) fun h ↦ h.2

theorem projectFairQueueOrder_fair (tasks : List QueuedTask) (cursor : ClaimCursor) :
    FairOrder tasks (projectFairQueueOrder tasks cursor) where
  perm := projectFairQueueOrder_perm
  priority := by
    rw [projectFairQueueOrder_eq, List.pairwise_flatMap]
    refine ⟨fun p _ ↦ ?_, (prioritiesOf_pairwise _).imp fun h t ht u hu ↦ ?_⟩
    · refine turnsOf_fifo.imp_of_mem fun {t u} ht hu _ ↦ ?_
      rw [(mem_turnsOf ht).2, (mem_turnsOf hu).2]
    · rw [(mem_turnsOf ht).2, (mem_turnsOf hu).2]
      exact h.le
  fifo := by
    rw [projectFairQueueOrder_eq, List.pairwise_flatMap]
    refine ⟨fun p _ ↦ turnsOf_fifo.imp fun {t u} h _ hproject ↦ h hproject,
      (prioritiesOf_pairwise _).imp fun h t ht u hu heq ↦ ?_⟩
    rw [(mem_turnsOf ht).2, (mem_turnsOf hu).2] at heq
    exact absurd heq (ne_of_gt h)
  balanced := by
    rintro p k a b ⟨t, ht, htp, hta⟩ ⟨u, hu, hup, hub⟩
    have hp : p ∈ prioritiesOf (filed tasks) := by
      rw [mem_prioritiesOf]
      exact ⟨t, mem_sortedBy.mpr (projectFairQueueOrder_perm.mem_iff.mp (List.mem_of_mem_drop ht)), htp⟩
    set ordered := projectFairQueueOrder tasks cursor with hordered
    -- the prefix of the whole order is a prefix of the turns of this priority
    have hsplit : (ordered.take k).filter (·.priority == p) ++ (ordered.drop k).filter (·.priority == p) =
        turnsOf (filed tasks) cursor p := by
      rw [← List.filter_append, List.take_append_drop, hordered, projectFairQueueOrder_filter hp]
    obtain ⟨htake, hdrop⟩ : (ordered.take k).filter (·.priority == p) =
          (turnsOf (filed tasks) cursor p).take ((ordered.take k).filter (·.priority == p)).length ∧
        (ordered.drop k).filter (·.priority == p) =
          (turnsOf (filed tasks) cursor p).drop ((ordered.take k).filter (·.priority == p)).length := by
      rw [← hsplit]
      simp
    rw [htake]
    generalize ((ordered.take k).filter (·.priority == p)).length = j at hdrop
    have hleft {v : QueuedTask} {name : String} (hv : v ∈ ordered.drop k) (hvp : v.priority = p)
        (hname : v.project = name) :
        ∃ v ∈ (turnsOf (filed tasks) cursor p).drop j, v.project = name :=
      ⟨v, hdrop ▸ List.mem_filter.mpr ⟨hv, by simpa using hvp⟩, hname⟩
    have haleft := hleft ht htp hta
    have hbleft := hleft hu hup hub
    rw [turnsOf_eq] at haleft hbleft ⊢
    exact rounds_balanced turnQueues_homogeneous turnQueues_separate j haleft hbleft

end Order

def claimsOf (attempts : List ClaimAttempt) : List QueuedTask :=
  (attempts.filter (·.accepted)).map (·.task)

/-- The project has queued tasks of the priority, and none is higher. -/
def FeaTick.Offers (tick : FeaTick) (priority : ℤ) (project : String) : Prop :=
  (∃ t ∈ tick.queued, t.priority = priority ∧ t.project = project) ∧
    ∀ t ∈ tick.queued, t.priority ≤ priority

instance (tick : FeaTick) (priority : ℤ) (project : String) :
    Decidable (tick.Offers priority project) := by unfold FeaTick.Offers; infer_instance

/-- The projects with queued tasks of the priority in one of the ticks. -/
def projectsIn (ticks : List FeaTick) (priority : ℤ) : List String :=
  (ticks.flatMap fun tick ↦ projectsOf tick.queued priority).dedup

section Claims

variable {limits : FeaLimits} {tick : FeaTick} {cursor : ClaimCursor} {priority : ℤ}
  {project : String} {answer : ℕ → AttachAnswer} {queue : List QueuedTask} {b o i : ℕ}

theorem attempts_prefix : (attemptTasks limits answer queue b o i cursor).1.map (·.task) <+: queue := by
  induction queue generalizing b o i cursor with
  | nil => exact List.prefix_refl _
  | cons t ts ih =>
      rw [attemptTasks]
      split
      · exact List.nil_prefix
      · simp only [List.map_cons]
        refine (List.prefix_cons_inj _).mpr ?_
        split <;> exact ih

/-- The cursor of a priority is the project of the last claim. -/
theorem cursor_attemptTasks
    (h : ∀ a ∈ (attemptTasks limits answer queue b o i cursor).1, a.task.priority = priority) :
    (attemptTasks limits answer queue b o i cursor).2 priority =
      ((claimsOf (attemptTasks limits answer queue b o i cursor).1).getLast?.map (·.project)).or
        (cursor priority) := by
  induction queue generalizing b o i cursor with
  | nil => rfl
  | cons t ts ih =>
      rw [attemptTasks] at h ⊢
      split at h
      · rename_i hdone
        rw [if_pos hdone]
        rfl
      · rename_i hgoes
        rw [if_neg hgoes]
        obtain ⟨ht, hts⟩ := List.forall_mem_cons.mp h
        by_cases haccepted : (answer i).accepted = true
        · simp only [haccepted, if_true] at ht hts ⊢
          rw [ih hts]
          simp only [claimsOf, List.filter_cons, if_true, List.map_cons, List.getLast?_cons]
          rw [persistFeaProjectClaim, show t.priority = priority from ht, Function.update_self]
          cases ((attemptTasks _ _ _ _ _ _ _).1.filter _).map _ |>.getLast? <;> rfl
        · simp only [haccepted, Bool.false_eq_true, if_false] at hts ⊢
          rw [ih hts]
          simp [claimsOf]

theorem heads_queues (priority : ℤ) (names : List String) (tasks : List QueuedTask) :
    ((heads (names.map (queueOf tasks priority))).map (·.project)).Sublist names := by
  induction names with
  | nil => exact List.Sublist.refl _
  | cons name names ih =>
      rw [heads, List.map_cons, List.filterMap_cons]
      cases hqueue : queueOf tasks priority name with
      | nil => exact ih.cons name
      | cons t ts =>
          have ht : t.project = name := (mem_queueOf (hqueue ▸ List.mem_cons_self ..)).2.2
          simp only [List.head?_cons, List.map_cons, ht]
          exact ih.cons_cons name

theorem order_split (h : tick.Offers priority project) (cursor : ClaimCursor) :
    ∃ names later u, turnOrder (filed tick.queued) cursor priority = names ++ project :: later ∧
      u.priority = priority ∧ u.project = project ∧
      heads (names.map (queueOf (filed tick.queued) priority)) ++ [u] <+:
        projectFairQueueOrder tick.queued cursor := by
  obtain ⟨⟨t, ht, htp, htproject⟩, hhighest⟩ := h
  have hfiled : t ∈ filed tick.queued := mem_sortedBy.mpr ht
  have hmem : project ∈ turnOrder (filed tick.queued) cursor priority :=
    turnOrder_perm.mem_iff.mpr (mem_projectsOf.mpr ⟨t, hfiled, htp, htproject⟩)
  obtain ⟨names, later, hsplit⟩ := List.append_of_mem hmem
  have htop : ∃ ps, prioritiesOf (filed tick.queued) = priority :: ps := by
    have hin : priority ∈ prioritiesOf (filed tick.queued) := mem_prioritiesOf.mpr ⟨t, hfiled, htp⟩
    have hpairwise := prioritiesOf_pairwise (filed tick.queued)
    cases hps : prioritiesOf (filed tick.queued) with
    | nil => rw [hps] at hin; cases hin
    | cons p ps =>
        rw [hps] at hin hpairwise
        obtain ⟨u, hu, hup⟩ := mem_prioritiesOf.mp (hps ▸ List.mem_cons_self ..)
        have hle : p ≤ priority := hup ▸ hhighest u (mem_sortedBy.mp hu)
        rcases List.mem_cons.mp hin with rfl | hlater
        · exact ⟨ps, rfl⟩
        · exact absurd ((List.pairwise_cons.mp hpairwise).1 priority hlater) (not_lt.mpr hle)
  obtain ⟨ps, hps⟩ := htop
  have hqueue : t ∈ queueOf (filed tick.queued) priority project := by simp [queueOf, hfiled, htp, htproject]
  obtain ⟨u, q, hq⟩ := List.exists_cons_of_ne_nil (List.ne_nil_of_mem hqueue)
  obtain ⟨-, hup, huproject⟩ := mem_queueOf (hq ▸ List.mem_cons_self .. :
    u ∈ queueOf (filed tick.queued) priority project)
  obtain ⟨n, hn⟩ : ∃ n, (filed tick.queued).length = n + 1 :=
    Nat.exists_eq_succ_of_ne_zero (List.length_pos_of_mem hfiled).ne'
  have hround : heads (turnQueues (filed tick.queued) cursor priority) =
      heads (names.map (queueOf (filed tick.queued) priority)) ++
        u :: heads (later.map (queueOf (filed tick.queued) priority)) := by
    rw [turnQueues, hsplit, heads, List.map_append, List.filterMap_append, List.map_cons, hq,
      List.filterMap_cons]
    rfl
  refine ⟨names, later, u, hsplit, hup, huproject, ?_⟩
  rw [projectFairQueueOrder_eq, hps, List.flatMap_cons, turnsOf_eq, hn, rounds_succ, hround,
    List.append_assoc, List.append_assoc]
  exact (List.prefix_append_right_inj _).mpr ⟨_, rfl⟩

/-- A tick that does not reach the project goes on from the cursor towards it. -/
theorem claims_approach (hoffers : tick.Offers priority project)
    (huntried : ∀ a ∈ (assignReadyFeaTasks limits cursor tick).1,
      ¬ (a.task.priority = priority ∧ a.task.project = project)) :
    (∀ a ∈ (assignReadyFeaTasks limits cursor tick).1, a.task.priority = priority) ∧
      Approach (nameKey project) (cursorKey (cursor priority))
        ((claimsOf (assignReadyFeaTasks limits cursor tick).1).map (nameKey ·.project)) := by
  obtain ⟨names, later, u, hturns, hup, huproject, hfirst⟩ := order_split hoffers cursor
  have hstart : (assignReadyFeaTasks limits cursor tick).1.map (·.task) <+:
      heads (names.map (queueOf (filed tick.queued) priority)) := by
    have hattempts : (assignReadyFeaTasks limits cursor tick).1.map (·.task) <+:
        projectFairQueueOrder tick.queued cursor := attempts_prefix
    have hnot : u ∉ (assignReadyFeaTasks limits cursor tick).1.map (·.task) := by
      intro hu
      obtain ⟨a, ha, rfl⟩ := List.mem_map.mp hu
      exact huntried a ha ⟨hup, huproject⟩
    rcases List.prefix_or_prefix_of_prefix hattempts hfirst with h | h
    · rcases List.prefix_concat_iff.mp h with h | h
      · exact absurd (by rw [h]; simp) hnot
      · exact h
    · exact absurd (h.subset (by simp)) hnot
  have hmem : ∀ t ∈ heads (names.map (queueOf (filed tick.queued) priority)), t.priority = priority := by
    intro t ht
    obtain ⟨q, hq, hhead⟩ := List.mem_filterMap.mp ht
    obtain ⟨name, -, rfl⟩ := List.mem_map.mp hq
    exact (mem_queueOf (List.mem_of_mem_head? hhead)).2.1
  have hnames : ((claimsOf (assignReadyFeaTasks limits cursor tick).1).map (·.project)).Sublist names := by
    refine List.Sublist.trans ?_ (heads_queues priority names (filed tick.queued))
    refine List.Sublist.map _ (List.Sublist.trans ?_ hstart.sublist)
    exact List.filter_sublist.map _
  have hpairwise := turnOrder_pairwise (filed tick.queued) cursor priority
  rw [hturns, List.pairwise_append] at hpairwise
  obtain ⟨hbefore, -, hahead⟩ := hpairwise
  refine ⟨fun a ha ↦ hmem _ (hstart.subset (List.mem_map_of_mem ha)), ?_⟩
  rw [show ((claimsOf (assignReadyFeaTasks limits cursor tick).1).map (nameKey ·.project)) =
    ((claimsOf (assignReadyFeaTasks limits cursor tick).1).map (·.project)).map nameKey by simp]
  refine Approach.of_pairwise (fun x hx ↦ ?_) (List.pairwise_map.mpr (hbefore.sublist hnames))
  obtain ⟨name, hname, rfl⟩ := List.mem_map.mp hx
  exact hahead name (hnames.subset hname) project (List.mem_cons_self ..)

/-- The names of the projects whose tasks have been claimed, tick after tick. -/
def claimedNames (limits : FeaLimits) (cursor : ClaimCursor) (ticks : List FeaTick) : List String :=
  ((feaTicks limits cursor ticks).flatMap claimsOf).map (·.project)

/-- No task of the project is tried in these ticks. -/
def Untried (limits : FeaLimits) (cursor : ClaimCursor) (ticks : List FeaTick) (priority : ℤ)
    (project : String) : Prop :=
  ∀ attempts ∈ feaTicks limits cursor ticks, ∀ a ∈ attempts,
    ¬ (a.task.priority = priority ∧ a.task.project = project)

theorem claimedNames_approach (ticks : List FeaTick)
    (hoffers : ∀ tick ∈ ticks, tick.Offers priority project)
    (huntried : Untried limits cursor ticks priority project) :
    Approach (nameKey project) (cursorKey (cursor priority))
      ((claimedNames limits cursor ticks).map nameKey) := by
  induction ticks generalizing cursor with
  | nil => trivial
  | cons tick ticks ih =>
      obtain ⟨hfirst, hticks⟩ := List.forall_mem_cons.mp huntried
      obtain ⟨htick, hlater⟩ := List.forall_mem_cons.mp hoffers
      obtain ⟨hpriority, happroach⟩ := claims_approach htick hfirst
      have hrest := ih hlater hticks
      rw [show cursorKey ((assignReadyFeaTasks limits cursor tick).2 priority) =
          (((claimsOf (assignReadyFeaTasks limits cursor tick).1).map (nameKey ·.project)).getLast?).getD
            (cursorKey (cursor priority)) by
        rw [assignReadyFeaTasks, cursor_attemptTasks hpriority, List.getLast?_map]
        cases (claimsOf _).getLast? <;> rfl] at hrest
      have hsplit : (claimedNames limits cursor (tick :: ticks)).map nameKey =
          (claimsOf (assignReadyFeaTasks limits cursor tick).1).map (nameKey ·.project) ++
            (claimedNames limits (assignReadyFeaTasks limits cursor tick).2 ticks).map nameKey := by
        simp [claimedNames, feaTicks]
      rw [hsplit]
      exact happroach.append hrest

theorem claimedNames_subset (ticks : List FeaTick)
    (hoffers : ∀ tick ∈ ticks, tick.Offers priority project)
    (huntried : Untried limits cursor ticks priority project) :
    claimedNames limits cursor ticks ⊆ projectsIn ticks priority := by
  induction ticks generalizing cursor with
  | nil => exact List.nil_subset _
  | cons tick ticks ih =>
      obtain ⟨hfirst, hticks⟩ := List.forall_mem_cons.mp huntried
      obtain ⟨htick, hlater⟩ := List.forall_mem_cons.mp hoffers
      obtain ⟨hpriority, -⟩ := claims_approach htick hfirst
      intro name hname
      rw [claimedNames, feaTicks, List.flatMap_cons, List.map_append, List.mem_append] at hname
      rw [projectsIn, List.mem_dedup, List.flatMap_cons, List.mem_append]
      refine hname.imp (fun h ↦ ?_) fun h ↦ ?_
      · obtain ⟨t, ht, rfl⟩ := List.mem_map.mp h
        obtain ⟨a, ha, rfl⟩ := List.mem_map.mp ht
        have hattempt := (List.mem_filter.mp ha).1
        have hstart : (assignReadyFeaTasks limits cursor tick).1.map (·.task) <+:
            projectFairQueueOrder tick.queued cursor := attempts_prefix
        have hqueued := projectFairQueueOrder_perm.mem_iff.mp
          (hstart.subset (List.mem_map_of_mem hattempt))
        exact mem_projectsOf.mpr ⟨_, hqueued, hpriority a hattempt, rfl⟩
      · exact List.mem_dedup.mp (ih hlater hticks h)

/-- While a project waits, every accepted claim is one of another project. -/
theorem claimedNames_lt (ticks : List FeaTick) (hticks : ticks ≠ [])
    (hoffers : ∀ tick ∈ ticks, tick.Offers priority project)
    (huntried : Untried limits cursor ticks priority project) :
    (claimedNames limits cursor ticks).length < (projectsIn ticks priority).length := by
  have hnodup := (claimedNames_approach ticks hoffers huntried).nodup
  rw [← List.map_cons] at hnodup
  have hsubset : project :: claimedNames limits cursor ticks ⊆ projectsIn ticks priority := by
    refine List.cons_subset.mpr ⟨?_, claimedNames_subset ticks hoffers huntried⟩
    obtain ⟨tick, hmem⟩ := List.exists_mem_of_ne_nil _ hticks
    rw [projectsIn, List.mem_dedup, List.mem_flatMap]
    exact ⟨tick, hmem, mem_projectsOf.mpr (hoffers tick hmem).1⟩
  exact (hnodup.of_map.subperm hsubset).length_le

theorem length_le_claims {ticks : List FeaTick}
    (haccepts : ∀ attempts ∈ feaTicks limits cursor ticks, claimsOf attempts ≠ []) :
    ticks.length ≤ (claimedNames limits cursor ticks).length := by
  induction ticks generalizing cursor with
  | nil => exact Nat.zero_le _
  | cons tick ticks ih =>
      obtain ⟨hfirst, hlater⟩ := List.forall_mem_cons.mp haccepts
      have hpos := List.length_pos_iff.mpr hfirst
      have hrest := ih hlater
      simp only [claimedNames, feaTicks, List.flatMap_cons, List.length_map, List.length_append,
        List.length_cons] at hrest ⊢
      omega

end Claims

/-- The order is fair whatever the cursor is, and until a project of the highest priority has a
task tried, there are fewer accepted claims, and fewer ticks that accept one, than projects. -/
theorem project_fair_turns (limits : FeaLimits) (cursor : ClaimCursor) :
    (∀ tasks, FairOrder tasks (projectFairQueueOrder tasks cursor)) ∧
      ∀ ticks priority project, ticks ≠ [] →
        (∀ tick ∈ ticks, FeaTick.Offers tick priority project) →
        Untried limits cursor ticks priority project →
        (claimedNames limits cursor ticks).length < (projectsIn ticks priority).length ∧
          ((∀ attempts ∈ feaTicks limits cursor ticks, claimsOf attempts ≠ []) →
            ticks.length < (projectsIn ticks priority).length) := by
  refine ⟨fun tasks ↦ projectFairQueueOrder_fair tasks cursor,
    fun ticks priority project hticks hoffers huntried ↦ ?_⟩
  have hclaims := claimedNames_lt ticks hticks hoffers huntried
  exact ⟨hclaims, fun haccepts ↦ (length_le_claims haccepts).trans_lt hclaims⟩

def oneClaim : FeaTick where
  queued := [⟨1, "a", 0⟩, ⟨2, "b", 0⟩]
  answer _ := { accepted := true, baseline := true }

theorem project_fair_turns_once :
    (∀ tasks, FairOrder tasks (projectFairQueueOrder tasks fun _ ↦ none)) ∧
      (claimedNames ⟨1, 1⟩ (fun _ ↦ none) [oneClaim]).length < (projectsIn [oneClaim] 0).length := by
  obtain ⟨hfair, hturns⟩ := project_fair_turns ⟨1, 1⟩ fun _ ↦ none
  have huntried : Untried ⟨1, 1⟩ (fun _ ↦ none) [oneClaim] 0 "b" := by unfold Untried; decide
  exact ⟨hfair, (hturns [oneClaim] 0 "b" (List.cons_ne_nil _ _) (by decide) huntried).1⟩

def passedOver (accepted : ℕ) : FeaTick where
  queued := [⟨1, "a", 0⟩, ⟨2, "b", 0⟩]
  answer i := { accepted := i == accepted }

theorem project_waits_for_ever : ¬ ∀ (limits : FeaLimits) (cursor : ClaimCursor) (ticks : List FeaTick)
    (priority : ℤ) (project : String), (∀ tick ∈ ticks, tick.Offers priority project) →
    (∀ attempts ∈ feaTicks limits cursor ticks, claimsOf attempts ≠ []) →
    project ∉ claimedNames limits cursor ticks →
    (claimedNames limits cursor ticks).length ≤ (projectsIn ticks priority).length := by
  intro h
  have := h ⟨5, 5⟩ (fun _ ↦ none) [passedOver 0, passedOver 1, passedOver 1] 0 "b"
    (by decide) (by decide) (by decide)
  revert this
  decide

end SlurmScheduler.Dispatch
