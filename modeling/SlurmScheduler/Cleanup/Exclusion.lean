import SlurmScheduler.Cleanup.Worker
import SlurmScheduler.Pool.Scripts

namespace SlurmScheduler.Cleanup

open Relational Concurrent Discipline
open Pool (Call Db Env Lease LeaseRequest)

namespace State

variable (s : State)

/-- The attempt belongs to the present run of the scheduler, and its worker is still at work. -/
def atWork (a : Attempt) : Bool := a.running && a.boot == s.boot

/-- No live lease works in the directory of an attempt that may still be removing it. -/
def Exclusive : Prop :=
  ∀ a ∈ s.attempts, a.running = true → ∀ l ∈ s.db.leases, l.workspacePath = a.path →
    l.state.live = false

def Owned : Prop :=
  ∀ (i : ℕ) (a : Attempt), s.attempts[i]? = some a → s.atWork a = true → ∀ l ∈ s.db.leases,
    l.taskId = a.taskId → l.workspacePath = a.path → (s.columns l.id).state = .inProgress →
      (s.columns l.id).owner = some i

structure Separated : Prop where
  exclusive : s.Exclusive
  owned : s.Owned
  boots : ∀ a ∈ s.attempts, a.boot ≤ s.boot

end State

/-- No claim takes over a workspace at which a worker is still at work, and no lease is created in
a workspace that may still be removed. -/
def Undisturbed (s : State) : Write → Prop
  | .claim _ taskId path _ =>
      ∀ a ∈ s.attempts, a.taskId = taskId → a.path = path → s.atWork a = false
  | .pool (.admitLease q _ _ _) => ∀ a ∈ s.attempts, a.path = q.workspacePath → a.running = false
  | _ => True

instance (s : State) (w : Write) : Decidable (Undisturbed s w) := by
  unfold Undisturbed
  split <;> infer_instance

def Working (held : ℕ → Bool) (id taskId : ℕ) (path : String) (s : State) : Prop :=
  ∃ a, s.attempts[id]? = some a ∧ a.taskId = taskId ∧ a.path = path ∧ s.atWork a = true ∧
    held a.worker = true

def cleanupDiscipline : Discipline State Write ℕ Thread where
  inv := State.Separated
  cond := Undisturbed
  may held s
    | .pool w => w.ForLive s.db
    | .claim _ _ path _ => s.workspaceEnded path = true
    | .finish id taskId path _ _ => Working held id taskId path s
    | _ => True
  rely held s s' := s'.boot = s.boot ∧ ∀ (i : ℕ) (a : Attempt), s.attempts[i]? = some a →
    s.atWork a = true → held a.worker = true → s'.attempts[i]? = some a
  pre _ _ := True

variable {s : State}

theorem State.onColumns_columns {p : Lease → Bool} {f : Columns → Columns} {l : Lease}
    (hl : l ∈ s.db.leases) : (s.onColumns p f).columns l.id =
      if p l then f (s.columns l.id) else s.columns l.id := by
  have hfind : s.db.leases.find? l.id = some l := Table.find?_key hl
  simp [State.onColumns, hfind]

theorem exclusive_of_ages {db' : Db} {columns : ℕ → Columns} (h : s.Exclusive)
    (hleases : ∀ l' ∈ db'.leases, (∃ l ∈ s.db.leases, l.Ages l') ∨
      ∀ a ∈ s.attempts, a.path = l'.workspacePath → a.running = false) :
    ({ s with db := db', columns } : State).Exclusive := by
  intro a ha hrun l' hl' hpath
  rcases hleases l' hl' with ⟨l, hl, hages⟩ | hfresh
  · exact hages.ended (h a ha hrun l hl (hages.workspace.symm.trans hpath))
  · rw [hfresh a ha hpath.symm] at hrun
    cases hrun

theorem Separated.pool {w : Pool.Write} (h : s.Separated) (hw : w.ForLive s.db)
    (hC : Undisturbed s (.pool w)) : (Write.exec (.pool w) s).Separated where
  exclusive := by
    refine exclusive_of_ages h.exclusive fun l' hl' ↦ ?_
    rcases Db.mem_leases_exec hw hl' with hold | ⟨q, reservation, canary, now, rfl, rfl⟩
    · exact .inl hold
    · exact .inr hC
  owned i a ha hwork l' hl' htask hpath hstate := by
    dsimp only [Write.exec] at hl' hstate ⊢
    split at hstate
    · rename_i hold
      rw [if_pos hold]
      rcases Db.mem_leases_exec hw hl' with ⟨l, hl, hages⟩ | ⟨q, reservation, canary, now, -, rfl⟩
      · rw [hages.id] at hstate ⊢
        exact h.owned i a ha hwork l hl (hages.task.symm.trans htask)
          (hages.workspace.symm.trans hpath) hstate
      · obtain ⟨l, hfind⟩ := Option.isSome_iff_exists.mp hold
        obtain ⟨hl, hid⟩ := Table.find?_eq_some.mp hfind
        exact absurd (Table.lt_nextKey hl) (by rw [hid]; exact lt_irrefl _)
    · cases hstate
  boots := h.boots

/-- A worker's rows keep their owner as long as they are under a claim. -/
theorem Separated.onColumns {p : Lease → Bool} {f : Columns → Columns} (h : s.Separated)
    (hf : ∀ l ∈ s.db.leases, p l = true → (f (s.columns l.id)).state = .inProgress →
      (s.columns l.id).state = .inProgress ∧
        (f (s.columns l.id)).owner = (s.columns l.id).owner) : (s.onColumns p f).Separated where
  exclusive := h.exclusive
  owned i a ha hwork l hl htask hpath hstate := by
    have hold : (s.columns l.id).state = .inProgress → (s.columns l.id).owner = some i :=
      h.owned i a ha hwork l hl htask hpath
    rw [State.onColumns_columns (s := s) hl] at hstate ⊢
    split at hstate
    · rename_i hp
      obtain ⟨hbefore, howner⟩ := hf l hl hp hstate
      rw [if_pos hp]
      exact howner.trans (hold hbefore)
    · rename_i hp
      rw [if_neg hp]
      exact hold hstate
  boots := h.boots

theorem finishes_inProgress {taskId : ℕ} {path : String} {l : Lease}
    (h : s.finishes taskId path l = true) : l.taskId = taskId ∧ l.workspacePath = path ∧
      (s.columns l.id).state = .inProgress := by
  simp only [State.finishes, State.cleanupRow, Bool.and_eq_true, beq_iff_eq,
    List.contains_iff_mem, List.mem_singleton] at h
  exact ⟨h.1.1.1.1.1, h.1.1.1.1.2, h.1.1.1.2⟩

def Stops (f : Attempt → Attempt) : Prop :=
  ∀ a, f a = { a with running := (f a).running } ∧ ((f a).running = true → a.running = true)

theorem exists_of_modify {as : List Attempt} {id i : ℕ} {f : Attempt → Attempt} {a : Attempt}
    (hf : Stops f) (h : (as.modify id f)[i]? = some a) :
    ∃ b, as[i]? = some b ∧ a = { b with running := a.running } ∧
      (a.running = true → b.running = true) := by
  rw [List.getElem?_modify] at h
  obtain ⟨b, hb, rfl⟩ := Option.map_eq_some_iff.mp h
  refine ⟨b, hb, ?_⟩
  split
  · exact hf b
  · exact ⟨rfl, fun hrun ↦ hrun⟩

/-- An attempt that ends, with or without a record, disturbs no other. -/
theorem Separated.stop {id : ℕ} {f : Attempt → Attempt} (h : s.Separated) (hf : Stops f) :
    ({ s with attempts := s.attempts.modify id f } : State).Separated where
  exclusive a ha hrun l hl hpath := by
    obtain ⟨i, hi⟩ := List.getElem?_of_mem ha
    obtain ⟨b, hb, hab, hbrun⟩ := exists_of_modify hf hi
    rw [hab] at hpath
    exact h.exclusive b (List.mem_of_getElem? hb) (hbrun hrun) l hl hpath
  owned i a ha hwork l hl htask hpath hstate := by
    obtain ⟨b, hb, hab, hbrun⟩ := exists_of_modify hf ha
    simp only [State.atWork, Bool.and_eq_true, beq_iff_eq] at hwork
    rw [hab] at htask hpath hwork
    refine h.owned i b hb ?_ l hl htask hpath hstate
    simp only [State.atWork, Bool.and_eq_true, beq_iff_eq]
    exact ⟨hbrun hwork.1, hwork.2⟩
  boots a ha := by
    obtain ⟨i, hi⟩ := List.getElem?_of_mem ha
    obtain ⟨b, hb, hab, -⟩ := exists_of_modify hf hi
    rw [hab]
    exact h.boots b (List.mem_of_getElem? hb)

theorem Separated.claim {worker taskId : ℕ} {path : String} {claimedAt : Time} (h : s.Separated)
    (hended : s.workspaceEnded path = true) (hC : Undisturbed s (.claim worker taskId path claimedAt)) :
    (Write.exec (.claim worker taskId path claimedAt) s).Separated where
  exclusive a ha hrun l hl hpath := by
    rcases List.mem_append.mp ha with ha | ha
    · exact h.exclusive a ha hrun l hl hpath
    · rw [List.mem_singleton.mp ha] at hpath
      have hrow := List.all_eq_true.mp hended l hl
      simp only [hpath, bne_self_eq_false, Bool.false_or, Bool.and_eq_true,
        Bool.not_eq_true'] at hrow
      exact hrow.1
  owned i a ha hwork l hl htask hpath hstate := by
    change ((s.onColumns _ _).columns l.id).state = .inProgress at hstate
    change ((s.onColumns _ _).columns l.id).owner = some i
    rw [State.onColumns_columns (s := s) hl] at hstate ⊢
    change (s.attempts ++ _)[i]? = some a at ha
    rcases lt_trichotomy i s.attempts.length with hi | rfl | hi
    · rw [List.getElem?_append_left hi] at ha
      have hdisjoint : s.cleanupRow taskId path [.pending, .failed, .inProgress] l = false := by
        by_contra hrow
        simp only [State.cleanupRow, Bool.not_eq_false, Bool.and_eq_true, beq_iff_eq] at hrow
        have hidle := hC a (List.mem_of_getElem? ha) (htask.symm.trans hrow.1.1)
          (hpath.symm.trans hrow.1.2)
        exact absurd (hidle.symm.trans hwork) Bool.false_ne_true
      rw [hdisjoint] at hstate ⊢
      exact h.owned i a ha hwork l hl htask hpath hstate
    · rw [List.getElem?_append_right le_rfl, Nat.sub_self] at ha
      cases ha
      split
      · rfl
      · rename_i hrow
        rw [if_neg hrow] at hstate
        exact absurd (by simp [State.cleanupRow, htask, hpath, hstate]) hrow
    · rw [List.getElem?_eq_none (by simpa using hi)] at ha
      cases ha
  boots a ha := by
    rcases List.mem_append.mp ha with ha | ha
    · exact h.boots a ha
    · rw [List.mem_singleton.mp ha]
      exact le_refl s.boot

theorem Separated.exec {held : ℕ → Bool} {w : Write} (h : s.Separated)
    (hmay : cleanupDiscipline.may held s w) (hC : Undisturbed s w) : (w.exec s).Separated := by
  cases w with
  | pool w => exact Separated.pool h hmay hC
  | setTasks tasks => exact ⟨h.exclusive, h.owned, h.boots⟩
  | claim worker taskId path claimedAt => exact Separated.claim h hmay hC
  | reject taskId path rejectedAt =>
      rw [Write.exec]
      refine Separated.onColumns h fun l _ _ hstate ↦ ?_
      cases hstate
  | finish id taskId path state finishedAt =>
      refine Separated.stop (Separated.onColumns h fun l _ hp _ ↦ ?_) fun a ↦ ⟨rfl, nofun⟩
      exact ⟨(finishes_inProgress hp).2.2, rfl⟩
  | abandon id =>
      exact Separated.stop h fun a ↦ ⟨rfl, fun hrun ↦ (Bool.and_eq_true_iff.mp hrun).1⟩

theorem steady_exec {held held' : ℕ → Bool} {w : Write}
    (hdisjoint : ∀ l, held l = true → held' l = false) (hmay : cleanupDiscipline.may held' s w) :
    cleanupDiscipline.rely held s (w.exec s) := by
  have hmodify : ∀ {id : ℕ} {f : Attempt → Attempt},
      (∀ a, s.attempts[id]? = some a → s.atWork a = true → held a.worker = true → f a = a) →
      ∀ (i : ℕ) (a : Attempt), s.attempts[i]? = some a → s.atWork a = true →
        held a.worker = true → (s.attempts.modify id f)[i]? = some a := by
    intro id f hf i a ha hwork hheld
    rw [List.getElem?_modify, ha, Option.map_eq_map, Option.map_some, Option.some.injEq]
    split
    · rename_i hid
      exact hf a (hid ▸ ha) hwork hheld
    · rfl
  cases w with
  | claim worker taskId path claimedAt =>
      refine ⟨rfl, fun i a ha _ _ ↦ ?_⟩
      exact (List.getElem?_append_left (List.getElem?_eq_some_iff.mp ha).1).trans ha
  | finish id taskId path state finishedAt =>
      refine ⟨rfl, hmodify fun a ha _ hheld ↦ ?_⟩
      obtain ⟨b, hb, -, -, -, hworker⟩ := hmay
      rw [ha, Option.some.injEq] at hb
      rw [← hb, hdisjoint a.worker hheld] at hworker
      cases hworker
  | abandon id =>
      refine ⟨rfl, hmodify fun a _ hwork _ ↦ ?_⟩
      have hkept : (a.running && a.boot == s.boot) = a.running := by
        simp only [State.atWork, Bool.and_eq_true] at hwork
        rw [hwork.1, hwork.2, Bool.and_self]
      rw [hkept]
  | _ => exact ⟨rfl, fun _ _ ha _ _ ↦ ha⟩

variable {held : ℕ → Bool}

theorem working_steady {id taskId : ℕ} {path : String} :
    cleanupDiscipline.Steady held (Working held id taskId path) := by
  rintro s s' ⟨hboot, hkept⟩ ⟨a, ha, htask, hpath, hwork, hheld⟩
  refine ⟨a, hkept id a ha hwork hheld, htask, hpath, ?_, hheld⟩
  unfold State.atWork at hwork ⊢
  rwa [hboot]

theorem finishCleanup_triple {id taskId : ℕ} {path : String} {state : CleanupState} :
    cleanupDiscipline.Triple held (Working held id taskId path) (finishCleanup id taskId path state)
      fun _ _ ↦ True := by
  refine triple_bind triple_query fun finishedAt ↦ ?_
  exact triple_transact_single working_steady fun s _ hs ↦ ⟨hs, fun _ ↦ trivial⟩

theorem claimCleanup_triple {worker taskId : ℕ} {path : String} {cutoffs : Cutoffs}
    (hheld : held worker = true) :
    cleanupDiscipline.Triple held (fun _ ↦ True) (claimCleanup worker taskId path cutoffs)
      fun claimed s ↦ ∀ id, claimed = some id → Working held id taskId path s := by
  have hread : cleanupDiscipline.Triple held (fun _ ↦ True)
      (Proc.read fun s ↦ (s.cleanupCandidates cutoffs taskId).contains path : Step Bool)
      fun _ _ ↦ True := (triple_read fun _ _ _ hs ↦ hs).mono (fun _ hs ↦ hs) fun _ _ _ ↦ trivial
  refine triple_bind hread fun listed ↦ triple_ite (fun _ ↦ ?_) fun _ ↦ ?_
  · exact triple_pure fun _ _ _ h ↦ nomatch h
  · refine triple_transact (fun _ _ _ _ ↦ trivial) fun s _ _ ↦ ?_
    split
    · rename_i hany
      obtain ⟨l, -, hl⟩ := List.any_eq_true.mp hany
      simp only [State.eligible, Bool.and_eq_true, beq_iff_eq] at hl
      refine ⟨hl.1 ▸ hl.2.2, fun _ ↦ ?_⟩
      rintro id h
      cases h
      refine ⟨_, List.getElem?_concat_length, rfl, rfl, ?_, hheld⟩
      simp [State.atWork, Write.exec, Statement.apply, State.onColumns]
    · exact fun _ h ↦ nomatch h

theorem cleanupWorkspace_keeps {site : Site} {worker taskId : ℕ} {accountName path : String}
    {cutoffs : Cutoffs} (hheld : held worker = true) :
    cleanupDiscipline.Keeps held (cleanupWorkspace site worker taskId accountName cutoffs path) := by
  unfold cleanupWorkspace
  cases validatedWorkspacePath site.svc.strip site.root taskId path with
  | none => exact keeps_write fun _ _ ↦ trivial
  | some exactPath =>
    refine Triple.ensures (triple_bind (claimCleanup_triple hheld) fun claimed ↦ ?_)
    cases claimed with
    | none => exact triple_pure fun _ _ ↦ trivial
    | some id =>
        have hfinish : ∀ state, cleanupDiscipline.Triple held
            (fun s ↦ ∀ i, some id = some i → Working held i taskId exactPath s)
            (finishCleanup id taskId exactPath state) fun _ _ ↦ True :=
          fun state ↦ finishCleanup_triple.mono (fun s hs ↦ hs id rfl) fun _ _ _ ↦ trivial
        refine triple_ite (fun _ ↦ ?_) fun _ ↦ triple_bind triple_query fun result ↦ ?_
        · exact triple_bind (hfinish _) fun _ ↦ triple_pure fun _ _ ↦ trivial
        · exact triple_bind (hfinish _) fun _ ↦ triple_pure fun _ _ ↦ trivial

theorem cleanupTask_keeps {site : Site} {worker taskId : ℕ} :
    cleanupDiscipline.Keeps held (cleanupTask site worker taskId) := by
  refine ensures_locked fun _ ↦ ensures_bind keeps_query fun cutoffs _ ↦
    ensures_read fun _ _ ↦ ensures_read fun _ _ ↦ keeps_forEach fun path _ ↦ ?_
  exact cleanupWorkspace_keeps (Function.update_self ..)

/-- The writes of a transaction of the service find their leases live. -/
theorem permits_pool {ws : List Pool.Write} {Q : State → Prop}
    (h : Journal (fun db w ↦ w.ForLive db) s.db ws) (hQ : ∀ s, Q s) :
    cleanupDiscipline.permits held (ws.map .pool) Q s := by
  induction ws generalizing s with
  | nil => exact hQ s
  | cons w ws ih => exact ⟨h.1, fun _ ↦ ih h.2⟩

theorem poolTransaction_keeps {site : Site} {call : Call} {env : Env} {i : ℕ} :
    cleanupDiscipline.Keeps held (poolTransaction site call env i) := by
  refine Triple.ensures (triple_transact (fun _ _ _ _ ↦ trivial) fun s _ _ ↦ ?_)
  cases hi : (call.transactions site.svc env)[i]? with
  | none =>
      simp only
      trivial
  | some m =>
      have hlive := Pool.transactions_findsLive (List.mem_of_getElem? hi) s.db
      simp only
      rcases hm : m s.db with ⟨_ | _, writes⟩
      · trivial
      · rw [Tx.wp, hm] at hlive
        exact permits_pool hlive.1 fun _ ↦ trivial

theorem program_keeps (site : Site) (t : Thread) :
    cleanupDiscipline.Keeps noLocks (program site t) := by
  cases t with
  | cleanup worker taskId => exact cleanupTask_keeps
  | poolCall call env => exact keeps_forEach fun i _ ↦ poolTransaction_keeps
  | scheduler tasks => exact keeps_write fun _ _ ↦ trivial
  | removalOver id => exact keeps_write fun _ _ ↦ trivial

theorem cleanup_governs (site : Site) : cleanupDiscipline.Governs (system site) where
  refl held s := ⟨rfl, fun _ _ ha _ _ ↦ ha⟩
  trans held s s' s'' h h' := by
    refine ⟨h'.1.trans h.1, fun i a ha hwork hheld ↦ h'.2 i a (h.2 i a ha hwork hheld) ?_ hheld⟩
    unfold State.atWork at hwork ⊢
    rwa [h.1]
  anti held held' s s' hle h := ⟨h.1, fun i a ha hwork hheld ↦ h.2 i a ha hwork (hle _ hheld)⟩
  compatible held held' s w hdisjoint _ hmay _ := steady_exec hdisjoint hmay
  keep held s w hs hmay hC := Separated.exec hs hmay hC
  reboot s hs := by
    refine ⟨hs.exclusive, fun i a ha hwork ↦ ?_, fun a ha ↦ Nat.le_succ_of_le (hs.boots a ha)⟩
    simp only [State.atWork, system, Bool.and_eq_true, beq_iff_eq] at hwork
    have hboot : a.boot ≤ s.boot := hs.boots a (List.mem_of_getElem? ha)
    omega
  external _ _ _ _ := trivial
  call t s _ _ := wp_mono (program_keeps site t s) fun _ _ _ _ ↦ trivial

/-- The outcome that a worker records is that of its own claim. -/
def RecordsOwn (e : Concurrent.Event State Write ℕ) : Prop :=
  ∀ id taskId path state finishedAt, e.write = .finish id taskId path state finishedAt →
    ∀ l ∈ e.before.db.leases, e.before.finishes taskId path l = true →
      (e.before.columns l.id).owner = some id

theorem Working.records {id taskId : ℕ} {path : String} {l : Lease} (h : s.Separated)
    (hworking : Working held id taskId path s) (hl : l ∈ s.db.leases)
    (hfinish : s.finishes taskId path l = true) : (s.columns l.id).owner = some id := by
  obtain ⟨a, ha, rfl, rfl, hwork, -⟩ := hworking
  obtain ⟨htask, hpath, hstate⟩ := finishes_inProgress hfinish
  exact h.owned id a ha hwork l hl htask hpath hstate

/-- No live lease works in a directory that may still be removed, and every worker records the
outcome of its own claim, as long as no claim takes over a workspace from a worker at work and no
lease is created in a workspace that may still be removed. -/
theorem removals_separated (site : Site) (s : State) (hs : s.attempts = [])
    (ms : List (Move Thread Question Question.Answer))
    (hC : (system site).Meets Undisturbed { state := s } ms) :
    ((system site).after { state := s } ms).state.Exclusive ∧
      ∀ e ∈ (system site).trace { state := s } ms, RecordsOwn e := by
  have hstart : s.Separated := by
    refine ⟨fun a ha ↦ ?_, fun i a ha ↦ ?_, fun a ha ↦ ?_⟩ <;> simp [hs] at ha
  obtain ⟨htrace, hsafe⟩ := (cleanup_governs site).run (Safe.idle hstart) ms hC
  refine ⟨hsafe.inv.exclusive, fun e he id taskId path state finishedAt hw l hl hfinish ↦ ?_⟩
  obtain ⟨hinv, hmay⟩ := htrace e he
  rw [hw] at hmay
  exact Working.records hinv hmay hl hfinish

def sampleSite : Site where
  svc := Pool.sampleService
  root := "/scratch"
  accounts := ["lab"]

def sampleTask (status : Pool.TaskStatus) : Table Pool.Task :=
  Table.empty.insert fun id ↦ { id, aedtBackend := "pooled", accountName := some "lab", status }

def workspaceRequest (leaseId : ℕ) : Pool.LeaseArgs :=
  { Pool.sampleRequest leaseId 1 with workspacePath := "/scratch/aedt-1" }

def endedTask : State where
  db := Pool.script Pool.sampleService
    [.scheduler (sampleTask .running) .empty, .call {} 100000 (.requestLease (workspaceRequest 1)),
      .call {} 100001 (.cancelLease 1 (Pool.clientToken 1) "the task has ended"),
      .scheduler (sampleTask .failed) .empty] {}

def answersAt (now : Time) : (q : Question) → q.Answer
  | .cutoffs => { now, retryBefore := now - 60, staleBefore := now - 600 }
  | .now => now
  | .remove _ _ => some { exitCode := 0, stdoutLines := [deletedMarker] }

def timedRun (threads : List Thread) (legs : List (Time × List (ℕ × ℕ))) (s : State) :
    List (Move Thread Question Question.Answer) :=
  legs.foldl (fun ms leg ↦ ms ++
    (system sampleSite).turns (answersAt leg.1) leg.2 ((system sampleSite).after { state := s } ms))
    (threads.map .call)

def quietRun : List (Move Thread Question Question.Answer) :=
  timedRun [.cleanup 0 1] [(101000, [(0, 12)])] endedTask

theorem removals_separated_quiet :
    (∃ e ∈ (system sampleSite).trace { state := endedTask } quietRun,
      e.write matches .finish .. ∧ e.before.db.leases.rows.any (e.before.finishes 1 "/scratch/aedt-1"))
      ∧ ((system sampleSite).after { state := endedTask } quietRun).state.Exclusive := by
  have hquiet : (system sampleSite).Meets Undisturbed { state := endedTask } quietRun := by
    unfold System.Meets
    decide
  exact ⟨by decide, (removals_separated sampleSite endedTask rfl quietRun hquiet).1⟩

/-- While the directory is being removed, the task is queued again and its next lease names the
same directory. -/
def requeuedRun : List (Move Thread Question Question.Answer) :=
  timedRun [.cleanup 0 1, .scheduler (sampleTask .queued),
      .poolCall (.requestLease (workspaceRequest 2)) { cfg := {}, now := 101000, clock := 101000, seen := {} }]
    [(101000, [(0, 6), (1, 1), (2, 2)])] endedTask

def overtakenRun : List (Move Thread Question Question.Answer) :=
  timedRun [.cleanup 0 1, .cleanup 1 1] [(101000, [(0, 6)]), (101601, [(1, 6), (0, 12)])] endedTask

/-- A lease can be created under a removal, and a worker can record the outcome of another's
claim. -/
theorem removals_overlap :
    (¬ ∀ (site : Site) (s : State) (ms : List (Move Thread Question Question.Answer)),
      s.attempts = [] → ((system site).after { state := s } ms).state.Exclusive) ∧
    ¬ ∀ (site : Site) (s : State) (ms : List (Move Thread Question Question.Answer)),
      s.attempts = [] → ∀ e ∈ (system site).trace { state := s } ms, RecordsOwn e := by
  refine ⟨fun h ↦ ?_, fun h ↦ ?_⟩
  · have hlive : ∃ a ∈ ((system sampleSite).after { state := endedTask } requeuedRun).state.attempts,
        a.running = true ∧
          ∃ l ∈ ((system sampleSite).after { state := endedTask } requeuedRun).state.db.leases,
            l.workspacePath = a.path ∧ l.state.live = true := by decide
    obtain ⟨a, ha, hrun, l, hl, hpath, hlive⟩ := hlive
    have hended := h sampleSite endedTask requeuedRun rfl a ha hrun l hl hpath
    rw [hlive] at hended
    cases hended
  · have hforeign : ∃ e ∈ (system sampleSite).trace { state := endedTask } overtakenRun,
        (e.write matches .finish 0 1 "/scratch/aedt-1" .deleted 101601) ∧
          ∃ l ∈ e.before.db.leases, e.before.finishes 1 "/scratch/aedt-1" l = true ∧
            (e.before.columns l.id).owner = some 1 := by decide
    obtain ⟨e, he, hw, l, hl, hfinish, howner⟩ := hforeign
    split at hw
    · rename_i hwrite
      have hown := h sampleSite endedTask overtakenRun rfl e he _ _ _ _ _ hwrite l hl hfinish
      rw [howner] at hown
      cases hown
    · cases hw

end SlurmScheduler.Cleanup
