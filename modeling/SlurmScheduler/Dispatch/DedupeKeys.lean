import SlurmScheduler.Dispatch.Density
import SlurmScheduler.Concurrent.Interleaving

namespace SlurmScheduler.Dispatch

open Relational Concurrent Proc Discipline Statement
open Pool (TaskStatus)

/-- No two tasks with one key are under way. -/
def OneActivePerKey (s : State) : Prop :=
  ∀ t ∈ s.tasks, ∀ u ∈ s.tasks, t.dedupeKey ≠ "" → u.dedupeKey = t.dedupeKey →
    t.status.terminal = false → u.status.terminal = false → u.id = t.id

def TaskChange.revives : TaskChange → Bool
  | probeRunning | pressureRequeued .. | rebalanced .. => true
  | _ => false

/-- An insert meets its key free, and an update by the key of the row alone, where it takes up a
task that has ended, meets the key of that task free. -/
def KeyFree (s : State) : Write → Prop
  | .createTask columns => (s.findActiveTaskByDedupeKey columns.dedupeKey).isNone = true
  | .updateTask seen c => c.revives = true → ∀ t ∈ s.tasks, t.id = seen.id →
      t.status.terminal = true → (s.findActiveTaskByDedupeKey t.dedupeKey).isNone = true
  | _ => True

def State.underWay (s : State) (id : ℕ) : Bool := (s.task? id).all fun t ↦ !t.status.terminal

/-- No write has put a task with the key under way since the submission last found none, and no
write has ended the task that an update takes up since its thread last found it under way. -/
def KeyStands {ι : Type} [DecidableEq ι] (d : Decision (Fleet ι) (ι × Write) (ι × Lock)) :
    Write → Prop
  | .createTask columns =>
      d.Undisturbed (fun t ↦ (t.shared.findActiveTaskByDedupeKey columns.dedupeKey).isNone) id
  | .updateTask seen c => c.revives = true → d.Undisturbed (·.shared.underWay seen.id) id
  | _ => True

instance (s : State) : Decidable (OneActivePerKey s) :=
  inferInstanceAs (Decidable (∀ t ∈ s.tasks, _))

instance {ι : Type} [DecidableEq ι] (d : Decision (Fleet ι) (ι × Write) (ι × Lock)) (w : Write) :
    Decidable (KeyStands d w) := by
  induction w using Write.casesOn <;> (unfold KeyStands; infer_instance)

variable {site : Site} {held : Lock → Bool} {s : State} {w : Write} {t t' : Task}

theorem mem_of_findActiveTask {key : String} (h : s.findActiveTaskByDedupeKey key = some t) :
    t ∈ s.tasks ∧ key ≠ "" ∧ t.dedupeKey = key ∧ t.status.terminal = false := by
  unfold State.findActiveTaskByDedupeKey at h
  split at h
  · cases h
  · rename_i hkey
    have hmem := List.mem_of_mem_head? h
    rw [Table.mem_select, Bool.and_eq_true, beq_iff_eq, Bool.not_eq_true'] at hmem
    exact ⟨hmem.1, by simpa using hkey, hmem.2⟩

/-- Where the lookup comes back empty, no task with the key is under way. -/
theorem terminal_of_findActiveTask {key : String}
    (h : (s.findActiveTaskByDedupeKey key).isNone = true) (hkey : key ≠ "") (ht : t ∈ s.tasks)
    (hsame : t.dedupeKey = key) : t.status.terminal = true := by
  rw [State.findActiveTaskByDedupeKey, if_neg (by simpa using hkey), Option.isNone_iff_eq_none,
    List.head?_eq_none_iff] at h
  by_contra hactive
  have hmem : t ∈ s.tasks.select fun t ↦ t.dedupeKey == key && !t.status.terminal :=
    Table.mem_select.mpr ⟨ht, by simpa [hsame] using hactive⟩
  rw [h] at hmem
  cases hmem

theorem dedupeKey_stamp (now : Pool.Time) (c : TaskChange) (t : Task) :
    (c.stamp now t).dedupeKey = t.dedupeKey := by
  cases c <;> try rfl
  case attachFailed message files => cases files <;> rfl

theorem TaskStep.dedupeKey_eq (h : TaskStep s t t' w) : t'.dedupeKey = t.dedupeKey := by
  cases h with
  | same _ h => rw [h]
  | key seen c _ h => rw [h, dedupeKey_stamp]
  | status seen expected c _ _ h => rw [h, dedupeKey_stamp]
  | attempt seen token b c _ h => rw [h, dedupeKey_stamp]
  | pooled seen claim c _ _ h => rw [h, dedupeKey_stamp]
  | pool w u hu h => rw [h]; exact hu.dedupeKey

/-- Only an update by key alone takes up a task that has ended. -/
theorem revived_step (hfoot : Footprint site held w) (hstep : TaskStep s t t' w)
    (hterminal : t.status.terminal = true) (hactive : t'.status.terminal = false) :
    ∃ seen c, w = .updateTask seen c ∧ c.revives = true ∧ t.id = seen.id := by
  have hended : ∀ status, t.status = status → status.terminal = true := fun _ h ↦ h ▸ hterminal
  cases hstep with
  | same _ h => rw [h, hterminal] at hactive; cases hactive
  | key seen c hid h =>
      refine ⟨seen, c, rfl, ?_, hid⟩
      rw [h] at hactive
      obtain ⟨-, hunguarded⟩ := hfoot
      cases c <;> first | rfl | (cases hunguarded; done) | cases hactive
  | status seen expected c _ hexpected _ =>
      exfalso
      rcases hfoot with ⟨-, -, -, -, rfl, -, -⟩ | ⟨-, -, rfl⟩ | ⟨-, rfl, hcancellable⟩
      · cases hended _ (List.mem_singleton.mp hexpected)
      · rcases List.mem_pair.mp hexpected with h | h <;> cases hended _ h
      · rw [List.mem_singleton.mp hexpected] at hterminal
        revert hterminal hcancellable
        cases seen.status <;> decide
  | attempt seen token b c hclaim _ =>
      simp only [Task.attachClaim, Bool.and_eq_true, beq_iff_eq] at hclaim
      cases hended _ hclaim.1.1.2
  | pooled seen claim c _ hcapacity _ =>
      simp only [State.reservedCapacity, Bool.and_eq_true, beq_iff_eq] at hcapacity
      cases hended _ hcapacity.1.1.1.1.1
  | pool w u hu h =>
      have hnot : t.status ≠ .queued := fun hq ↦ by cases hended _ hq
      rw [h, hu.same hnot, hterminal] at hactive
      cases hactive

theorem mem_createTask {columns : Task} : t ∈ (Write.exec (.createTask columns) s).tasks ↔
    t ∈ s.tasks ∨ t = columns.created s.clock s.tasks.nextKey :=
  @Table.mem_insert _ _ s.tasks (columns.created s.clock) (fun _ ↦ rfl) t

/-- A row after a write is the image of one before it, or the write has inserted it. -/
theorem mem_exec_tasks (ht' : t' ∈ (w.exec s).tasks) :
    (∃ t ∈ s.tasks, t.id = t'.id ∧ TaskStep s t t' w) ∨
      ∃ columns, w = .createTask columns ∧ t' = columns.created s.clock s.tasks.nextKey := by
  have himage : (∃ t ∈ s.tasks, t.id = t'.id) →
      ∃ t ∈ s.tasks, t.id = t'.id ∧ TaskStep s t t' w := fun ⟨t, ht, hid⟩ ↦
    ⟨t, ht, hid, taskStep_of_mem ht ht' hid.symm⟩
  have hupdated : ∀ {p : Task → Bool} {f : Task → Task} {hf : ∀ t, (f t).id = t.id},
      t' ∈ (s.onTasks p f hf).tasks → ∃ t ∈ s.tasks, t.id = t'.id := by
    intro p f hf h
    obtain ⟨t, ht, rfl⟩ := mem_onTasks.mp h
    refine ⟨t, ht, ?_⟩
    split
    · exact (hf t).symm
    · rfl
  cases w with
  | createTask columns =>
      rcases mem_createTask.mp ht' with ht | hnew
      · exact .inl ⟨t', ht, rfl, .same _ rfl⟩
      · exact .inr ⟨columns, rfl, hnew⟩
  | updateTask seen c => exact .inl (himage (hupdated ht'))
  | updateTaskIfStatus seen expected c => exact .inl (himage (hupdated ht'))
  | updateTaskIfAttachClaim seen token b c => exact .inl (himage (hupdated ht'))
  | updatePooledTaskIfReservedCapacity seen claim c => exact .inl (himage (hupdated ht'))
  | pool w => exact .inl (himage (hupdated ht'))
  | _ => exact .inl (himage ⟨t', ht', rfl⟩)

def Write.starts (s : State) : Write → Option ℕ
  | createTask _ => some s.tasks.nextKey
  | updateTask seen _ => some seen.id
  | _ => none

/-- A task under way has been so before the write, or the write has found its key free. -/
theorem active_row (hfoot : Footprint site held w) (hfree : KeyFree s w)
    (ht' : t' ∈ (w.exec s).tasks) (hactive : t'.status.terminal = false) :
    (∃ t ∈ s.tasks, t.id = t'.id ∧ t.dedupeKey = t'.dedupeKey ∧ t.status.terminal = false) ∨
      (w.starts s = some t'.id ∧ (s.findActiveTaskByDedupeKey t'.dedupeKey).isNone = true) := by
  rcases mem_exec_tasks ht' with ⟨t, ht, hid, hstep⟩ | ⟨columns, rfl, rfl⟩
  · cases hbefore : t.status.terminal with
    | false => exact .inl ⟨t, ht, hid, hstep.dedupeKey_eq.symm, hbefore⟩
    | true =>
        obtain ⟨seen, c, rfl, hrevives, hseen⟩ := revived_step hfoot hstep hbefore hactive
        refine .inr ⟨congrArg some (hseen.symm.trans hid), ?_⟩
        rw [hstep.dedupeKey_eq]
        exact hfree hrevives t ht hseen hbefore
  · exact .inr ⟨rfl, hfree⟩

theorem oneActive_exec (hfoot : Footprint site held w) (hs : OneActivePerKey s)
    (hfree : KeyFree s w) : OneActivePerKey (w.exec s) := by
  intro t' ht' u' hu' hkey hsame htactive huactive
  have hclash : ∀ {v : Task}, v ∈ s.tasks → v.dedupeKey = t'.dedupeKey →
      v.status.terminal = false → (s.findActiveTaskByDedupeKey t'.dedupeKey).isNone = true →
      False := by
    intro v hv hvkey hvactive hnone
    rw [terminal_of_findActiveTask hnone hkey hv hvkey] at hvactive
    cases hvactive
  rcases active_row hfoot hfree ht' htactive with ⟨t, ht, htid, htkey, hta⟩ | ⟨htid, htnone⟩ <;>
    rcases active_row hfoot hfree hu' huactive with ⟨u, hu, huid, hukey, hua⟩ | ⟨huid, hunone⟩
  · rw [← htid, ← huid]
    exact hs t ht u hu (htkey ▸ hkey) (hukey.trans (hsame.trans htkey.symm)) hta hua
  · exact (hclash ht htkey hta (hsame ▸ hunone)).elim
  · exact (hclash hu (hukey.trans hsame) hua htnone).elim
  · exact Option.some.inj (huid.symm.trans htid)

theorem lookUpDedupeKey_ends {key : String} {deeds : List (Deed State Write Call)}
    (h : (lookUpDedupeKey key).Ends deeds (some t)) :
    ∃ s writes, .step s writes ∈ deeds ∧ t ∈ s.tasks ∧ key ≠ "" ∧ t.dedupeKey = key ∧
      t.status.terminal = false := by
  unfold lookUpDedupeKey at h
  split at h
  · simp at h
  · obtain ⟨s, rfl, hfind⟩ := ends_read.mp h
    exact ⟨s, _, List.mem_singleton.mpr rfl, mem_of_findActiveTask hfind.symm⟩

theorem insertTaskRecord_ends {columns : Task} {deeds : List (Deed State Write Call)} {taskId : ℕ} :
    ¬ (insertTaskRecord site columns).Ends deeds (.deduplicated taskId) := by
  intro h
  obtain ⟨accepted, -, rest, -, -, hrest⟩ := ends_bind.mp h
  split at hrest
  · cases hrest.2
  · obtain ⟨created, -, rest, -, -, hrest⟩ := ends_bind.mp hrest
    obtain ⟨-, -, rest, -, -, hrest⟩ := ends_bind.mp hrest
    cases hrest.2

/-- The task of a deduplicated submission is the one that its lookup has found. -/
theorem createTaskRecord_ends {columns : Task} {deeds : List (Deed State Write Call)} {taskId : ℕ}
    (h : (createTaskRecord site columns).Ends deeds (.deduplicated taskId)) :
    ∃ s writes, .step s writes ∈ deeds ∧ ∃ t ∈ s.tasks, t.id = taskId ∧ t.status.terminal = false ∧
      t.dedupeKey = site.svc.strip columns.dedupeKey ∧ t.dedupeKey ≠ "" ∧
      (normalizeNodeNamePolicy site columns.nodeNamePolicy = some "strict" →
        t.nodeNamePolicy = "strict" ∧ t.nodeName = site.svc.strip columns.nodeName) := by
  obtain ⟨expanded, -, rest, rfl, -, hrest⟩ := ends_bind.mp h
  split at hrest
  · cases hrest.2
  dsimp only at hrest
  split at hrest
  · cases hrest.2
  · rename_i policy hpolicy
    obtain ⟨existing, first, last, rfl, hlookup, hanswer⟩ := ends_bind.mp hrest
    cases existing with
    | none => exact (insertTaskRecord_ends hanswer).elim
    | some existing =>
        obtain ⟨s, writes, hstep, ht, hkey, hsame, hactive⟩ := lookUpDedupeKey_ends hlookup
        obtain ⟨-, hanswer⟩ := ends_pure.mp hanswer
        have hcontract : existing.breaksStrictContract (site.svc.strip columns.nodeName) policy =
            false ∧ existing.id = taskId := by
          split at hanswer
          · cases hanswer
          · rename_i hbreaks
            exact ⟨by simpa using hbreaks, (SubmissionAnswer.deduplicated.inj hanswer).symm⟩
        refine ⟨s, writes, by simp [hstep], existing, ht, hcontract.2, hactive, hsame, hsame ▸ hkey,
          fun hstrict ↦ ?_⟩
        have hvalid : policy = "strict" := by
          simp only [validateNodeNamePolicy, hstrict] at hpolicy
          split at hpolicy
          · cases hpolicy
          · exact (Option.some.inj hpolicy).symm
        have hbreaks := hcontract.1
        simpa [Task.breaksStrictContract, hvalid] using hbreaks

theorem plainRules_public (site : Site) (C : State → Write → Prop) :
    (plainRules site C).Public where
  rely _ _ _ _ _ _ _ _ _ _ := trivial
  keep _ _ _ _ _ _ _ _ _ := trivial

variable {ι : Type} [DecidableEq ι]

theorem fleet_governed (site : Site) (C : State → Write → Prop) :
    ((plainRules site C).federation :
      Discipline (Fleet ι) (ι × Write) (ι × Lock) (ι × Call)).Governs (fleet ι site) :=
  (plainRules_governs site C).federation (plainRules_public site C) fun _ _ ↦ rfl

theorem fleet_idle (site : Site) (C : State → Write → Prop) (t₀ : Fleet ι) :
    Discipline.Safe (plainRules site C).federation
      ({ state := t₀ } : Config (Fleet ι) (ι × Write) (ι × Lock) (ι × Call) Question
        Question.Answer) := .idle fun _ ↦ trivial

theorem underWay_of_shown {seen : Task} (h : seen.shown s = true)
    (hactive : seen.status.terminal = false) : s.underWay seen.id = true := by
  simp only [Task.shown, State.attempt?, State.underWay] at h ⊢
  cases hrow : s.task? seen.id with
  | none => rfl
  | some u =>
      simp only [hrow, Option.map_some, Option.all_some, beq_iff_eq, Prod.mk.injEq] at h ⊢
      rw [h.1, hactive]
      rfl

/-- A change that puts a task under way is decided on one that is under way. -/
theorem active_of_revives {status : TaskStatus} {c : TaskChange} (h : status ∈ c.expects)
    (hrevives : c.revives = true) : status.terminal = false := by
  cases c with
  | probeRunning | pressureRequeued | rebalanced => rw [List.mem_singleton.mp h]; rfl
  | _ => cases hrevives

/-- What a thread has found of a key carries to its write, if nothing comes between the two. -/
theorem keyFree_of_stands {d : Decision (Fleet ι) (ι × Write) (ι × Lock)} {held : Lock → Bool}
    (hlooks : ∀ x ∈ d.looks, x.LeadsTo d.before) (hfoot : Footprint site held d.write.2)
    (hgrounds : Grounds site (fun s ↦ ∃ t', d.Seen t' ∧ ∃ i, Federation.view i t' = s) d.write.2)
    (hstands : KeyStands d d.write.2) :
    KeyFree (Federation.view d.write.1 d.before) d.write.2 := by
  obtain ⟨⟨⟨⟨before, ⟨i, w⟩⟩, held'⟩, looks⟩, rfl⟩ : ∃ d', d = d' := ⟨d, rfl⟩
  dsimp only at hlooks hfoot hgrounds hstands ⊢
  cases w with
  | createTask columns =>
      have hundisturbed : Decision.Undisturbed ⟨⟨⟨before, (i, .createTask columns)⟩, held'⟩, looks⟩
          (fun t : Fleet ι ↦ (t.shared.findActiveTaskByDedupeKey columns.dedupeKey).isNone) id :=
        hstands
      obtain ⟨_, ⟨t, hseen, _, rfl⟩, hnone⟩ := hgrounds
      exact hundisturbed.still hlooks ⟨t, hseen, hnone⟩
  | updateTask seen c =>
      intro hrevives t ht hid hterminal
      obtain ⟨_, ⟨t', hseen, _, rfl⟩, hshown⟩ := hgrounds
      have hactive := active_of_revives hfoot.1 hrevives
      have hrow : before.shared.underWay seen.id = true :=
        (hstands hrevives).still hlooks ⟨t', hseen, underWay_of_shown hshown hactive⟩
      have hmem : before.shared.task? seen.id = some t := hid ▸ task?_of_mem ht
      rw [State.underWay, hmem, Option.all_some, hterminal] at hrow
      cases hrow
  | _ => trivial

/-- However many schedulers share the database and whatever order their threads run in: while
nothing comes between what a thread has found of a key and the write that puts a task with the key
under way, no two tasks with one key are under way.  Whatever the other threads do between the
steps of a submission, the task that it names instead of a new one had the key and was under way at
one of them, and kept to the contract of a strict submission. -/
theorem one_active_task_per_key (site : Site) (t₀ : Fleet ι) (h₀ : OneActivePerKey t₀.shared) :
    (∀ ms : List (Move (ι × Call) Question Question.Answer),
      (∀ d ∈ (fleet ι site).decisions (.idle t₀) ms, KeyStands d d.write.2) →
        OneActivePerKey ((fleet ι site).after { state := t₀ } ms).state.shared) ∧
    (∀ columns deeds taskId, (createTaskRecord site columns).Ends deeds (.deduplicated taskId) →
      ∃ s writes, .step s writes ∈ deeds ∧ ∃ t ∈ s.tasks, t.id = taskId ∧ t.status.terminal = false ∧
        t.dedupeKey = site.svc.strip columns.dedupeKey ∧ t.dedupeKey ≠ "" ∧
        (normalizeNodeNamePolicy site columns.nodeNamePolicy = some "strict" →
          t.nodeNamePolicy = "strict" ∧ t.nodeName = site.svc.strip columns.nodeName)) := by
  refine ⟨fun ms hstands ↦ ?_, fun _ _ _ h ↦ createTaskRecord_ends h⟩
  refine @System.decisions_stay _ _ _ _ _ _ _ (fun t : Fleet ι ↦ OneActivePerKey t.shared) _ _
    (fleet ι site) (.idle t₀) [] ms (fun _ ht ↦ ht) (fun d hd ht ↦ ?_) h₀
  have hlooks := Watch.Faithful.run (S := fleet ι site) (c := .idle t₀)
    (fun _ ↦ List.forall_mem_nil _) ms d hd
  have hfoot : Footprint site (fun l ↦ d.held (d.write.1, l)) d.write.2 :=
    ((fleet_governed site fun _ _ ↦ True).run (fleet_idle site _ t₀) ms
      fun _ _ ↦ trivial).1 d.toEvent (System.mem_trace hd) |>.2
  have hgrounds := Watch.Founded.all (system_founded site).federation (.idle t₀) ms d hd
  have hfree := keyFree_of_stands hlooks hfoot hgrounds (hstands d hd)
  exact @oneActive_exec site _ (Federation.view d.write.1 d.before) d.write.2 hfoot ht hfree

def twoApplications : Fleet Bool := ⟨{}, fun _ ↦ { started := true }⟩

def submissionMoves (legs : List (ℕ × ℕ)) : List (Move (Bool × Call) Question Question.Answer) :=
  let request : Task := { id := 0, command := "solve", dedupeKey := "request" }
  let calls : List (Move (Bool × Call) Question Question.Answer) :=
    [.call (true, .createTaskRecord request), .call (false, .createTaskRecord request)]
  calls ++ (fleet Bool sampleSite).turns sampleAnswers legs
    ((fleet Bool sampleSite).after { state := twoApplications } calls)

/-- The second application looks the key up after the first one has inserted its row. -/
theorem one_active_task_per_key_sequential :
    OneActivePerKey twoApplications.shared ∧
    (∀ d ∈ (fleet Bool sampleSite).decisions (.idle twoApplications)
      (submissionMoves [(0, 10), (1, 10)]), KeyStands d d.write.2) ∧
    OneActivePerKey ((fleet Bool sampleSite).after { state := twoApplications }
      (submissionMoves [(0, 10), (1, 10)])).state.shared ∧
    ((fleet Bool sampleSite).after { state := twoApplications }
      (submissionMoves [(0, 10), (1, 10)])).state.shared.tasks.rows.length = 1 := by
  have hempty : OneActivePerKey twoApplications.shared := by decide
  have hstands : ∀ d ∈ (fleet Bool sampleSite).decisions (.idle twoApplications)
      (submissionMoves [(0, 10), (1, 10)]), KeyStands d d.write.2 := by
    decide
  exact ⟨hempty, hstands,
    (one_active_task_per_key sampleSite twoApplications hempty).1 _ hstands, by decide⟩

/-- Both look the key up before either inserts its row. -/
theorem two_active_tasks_for_key :
    OneActivePerKey twoApplications.shared ∧
    ¬ OneActivePerKey ((fleet Bool sampleSite).after { state := twoApplications }
      (submissionMoves [(0, 3), (1, 3), (0, 7), (1, 7)])).state.shared := by
  decide

end SlurmScheduler.Dispatch
