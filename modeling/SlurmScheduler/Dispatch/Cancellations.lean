import SlurmScheduler.Dispatch.DedupeKeys

namespace SlurmScheduler.Dispatch

open Relational Concurrent Proc Statement
open Pool (TaskStatus)

abbrev Deeds : Type := List (Deed State Write Call)

inductive CancelRequest
  /-- `POST /api/tasks/{task_id}/cancel` -/
  | task (taskId : ℕ) (expectedStatuses : String)
  /-- `POST /api/tasks/cancel` -/
  | tasks (query : CancelQuery)

def apiCancel (site : Site) : CancelRequest → Action CancelResponse
  | .task taskId expectedStatuses => apiCancelTask site taskId expectedStatuses
  | .tasks query => apiCancelTasks site query

def statusesOf (site : Site) (value : String) : List TaskStatus :=
  match parseTaskStatuses site value with
  | .ok statuses => statuses
  | .error _ => []

def taskIdsOf (site : Site) (value : String) : List ℕ := (parseTaskIds site value).getD []

namespace CancelRequest

variable (site : Site)

def named : CancelRequest → Option (List ℕ)
  | task taskId _ => some [taskId]
  | tasks query => if query.taskIds = "" then none else some (taskIdsOf site query.taskIds)

def statuses : CancelRequest → List TaskStatus
  | task _ expectedStatuses =>
      if site.svc.strip expectedStatuses != "" then statusesOf site expectedStatuses
      else cancellable
  | tasks query => statusesOf site query.statuses

/-- A list of ids that is given names one, and otherwise a status is named. -/
def heard : CancelRequest → Bool
  | task .. => true
  | tasks query =>
      !(taskIdsOf site query.taskIds).isEmpty ||
        (query.taskIds == "" && !(statusesOf site query.statuses).isEmpty)

end CancelRequest

def CancelResponse.returned : CancelResponse → Option (List ℕ)
  | cancelled taskIds => some taskIds
  | reply r => some (if r.cancelled then [r.id] else [])
  | _ => none

def Task.attempt (t : Task) : String × ℕ × String := (t.remoteDir, t.allocationId, t.attachToken)

def Cancels (s : State) (writes : List Write) (t : Task) : Prop :=
  t ∈ s.tasks ∧ t.status ≠ .cancelled ∧
    ∃ t' ∈ (replay writes s).tasks, t'.id = t.id ∧ t'.status = .cancelled

def nextStarted : Deeds → Option Call
  | [] => none
  | .step .. :: deeds => nextStarted deeds
  | .start call :: _ => some call

/-- The request has cancelled what it was asked to and nothing else. -/
structure Hits (site : Site) (request : CancelRequest) (deeds : Deeds)
    (response : CancelResponse) : Prop where
  named : ∀ ids, request.named site = some ids → ∀ s writes t, .step s writes ∈ deeds →
    Cancels s writes t → t.id ∈ ids
  asked : ∀ s writes t, .step s writes ∈ deeds → Cancels s writes t →
    t.status ∈ request.statuses site
  returned : ∀ ids, response.returned = some ids → ∀ id, id ∈ ids ↔
    ∃ s writes t, .step s writes ∈ deeds ∧ Cancels s writes t ∧ t.id = id
  /-- The worker of a cancelled row is the one that is stopped next. -/
  addressed : ∀ before s writes after t, deeds = before ++ .step s writes :: after →
    Cancels s writes t → t.status ∈ claiming →
      ∃ task, nextStarted after = some (.cancelTaskRemoteBestEffort task) ∧ task.id = t.id ∧
        task.attempt = t.attempt
  /-- No other worker is stopped. -/
  started : ∀ call, .start call ∈ deeds → ∃ task, call = .cancelTaskRemoteBestEffort task ∧
    ∃ s writes t, .step s writes ∈ deeds ∧ Cancels s writes t ∧ t.id = task.id ∧
      t.attempt = task.attempt

abbrev cancelWrite (snap : Task) : Write := .updateTaskIfStatus snap [snap.status] .cancelled

/-- The cancellation decided on the snapshot meets the row. -/
def Strikes (deeds : Deeds) (snap t : Task) : Prop :=
  ∃ s, .step s [cancelWrite snap] ∈ deeds ∧ Cancels s [cancelWrite snap] t

variable {s : State} {t snap : Task} {writes : List Write}

theorem cancels_cancelWrite (h : snap.status ∈ cancellable) :
    Cancels s [cancelWrite snap] t ↔ t ∈ s.tasks ∧ t.id = snap.id ∧ t.status = snap.status := by
  constructor
  · rintro ⟨ht, hnot, t', ht', hid, hcancelled⟩
    obtain ⟨u, hu, rfl⟩ := mem_onTasks.mp ht'
    have hkey : u.id = t.id := by
      split at hid
      · exact hid
      · exact hid
    rw [Table.eq_of_key_eq hu ht hkey] at hcancelled
    split at hcancelled
    · rename_i hstruck
      rw [Bool.and_eq_true, beq_iff_eq, List.contains_iff_mem, List.mem_singleton] at hstruck
      exact ⟨ht, hstruck⟩
    · exact absurd hcancelled hnot
  · rintro ⟨ht, hid, hstatus⟩
    refine ⟨ht, fun hcancelled ↦ ?_, _, mem_onTasks.mpr ⟨t, ht, rfl⟩, ?_, ?_⟩
    · rw [hcancelled] at hstatus
      rw [← hstatus] at h
      revert h
      decide
    · rw [if_pos (by simp [hid, hstatus])]
      rfl
    · rw [if_pos (by simp [hid, hstatus])]
      rfl

theorem not_cancels_of_same (h : (replay writes s).tasks = s.tasks) : ¬ Cancels s writes t := by
  rintro ⟨ht, hnot, t', ht', hid, hcancelled⟩
  rw [h] at ht'
  exact hnot (Table.eq_of_key_eq ht' ht hid ▸ hcancelled)

theorem replay_tasks (h : ∀ w ∈ writes, w.ofTasks = false) :
    (replay writes s).tasks = s.tasks := by
  induction writes generalizing s with
  | nil => rfl
  | cons w writes ih =>
      exact (ih fun w hw ↦ h w (List.mem_cons_of_mem _ hw)).trans
        (exec_tasks (h w List.mem_cons_self))

def Idle : Deed State Write Call → Prop
  | .step s writes => ∀ t, ¬ Cancels s writes t
  | .start _ => False

theorem idle_of_ofTasks (h : ∀ w ∈ writes, w.ofTasks = false) :
    Idle (.step s writes) := fun _ ↦ not_cancels_of_same (replay_tasks h)

theorem read_idle {α : Type} {f : State → α} : (read f : Action α).Only Idle :=
  only_read fun _ ↦ idle_of_ofTasks (List.forall_mem_nil _)

theorem onTaskTerminal_idle {site : Site} {task : Task} :
    (onTaskTerminal site task).Only Idle :=
  only_when (only_locked (only_transact fun _ ↦ idle_of_ofTasks (List.forall_mem_singleton.mpr rfl)))

theorem capacityWrites_ofTasks {tasks : List Task} {allocations : List Allocation} :
    ∀ w ∈ capacityWrites tasks allocations, w.ofTasks = false := by
  intro w hw
  obtain ⟨a, -, rfl⟩ := List.mem_map.mp hw
  rfl

theorem recalculateAllocationCapacity_idle {id : Option ℕ} :
    (recalculateAllocationCapacity id).Only Idle := by
  have hwrite : ∀ tasks allocations,
      (writeAll (capacityWrites tasks allocations) : Action Unit).Only Idle := fun _ _ ↦
    only_writeAll fun _ ↦ idle_of_ofTasks capacityWrites_ofTasks
  cases id with
  | none => exact only_bind read_idle fun _ ↦ only_bind read_idle fun _ ↦ hwrite _ _
  | some id => exact only_bind read_idle fun _ ↦ only_bind read_idle fun _ ↦ hwrite _ _

def workerStop (snap : Task) : Deeds :=
  if snap.status ∈ claiming then [.start (.cancelTaskRemoteBestEffort snap)] else []

inductive Cancelling (expected : List TaskStatus) : Deeds → List ℕ → Prop
  | idle (deeds : Deeds) : (∀ d ∈ deeds, Idle d) → Cancelling expected deeds []
  | one (before quiet : Deeds) (s : State) (snap : Task) : (∀ d ∈ before, Idle d) →
      (∀ d ∈ quiet, Idle d) → snap.status ∈ cancellable → snap.status ∈ expected →
      (∃ t ∈ s.tasks, t.id = snap.id ∧ t.status = snap.status) →
      Cancelling expected
        (before ++ .step s [cancelWrite snap] :: (quiet ++ workerStop snap)) [snap.id]
  | append (first last : Deeds) (ids ids' : List ℕ) : Cancelling expected first ids →
      Cancelling expected last ids' → Cancelling expected (first ++ last) (ids ++ ids')

variable {expected : List TaskStatus} {deeds : Deeds} {ids : List ℕ}

theorem nextStarted_append (first last : Deeds) :
    nextStarted (first ++ last) = (nextStarted first).or (nextStarted last) := by
  induction first with
  | nil => rfl
  | cons d first ih =>
      cases d with
      | step s writes => exact ih
      | start call => rfl

theorem nextStarted_idle (h : ∀ d ∈ deeds, Idle d) : nextStarted deeds = none := by
  induction deeds with
  | nil => rfl
  | cons d deeds ih =>
      cases d with
      | step s writes => exact ih fun d hd ↦ h d (List.mem_cons_of_mem _ hd)
      | start call => exact (h _ List.mem_cons_self).elim

theorem split_append {first last before after : Deeds} {d : Deed State Write Call}
    (h : first ++ last = before ++ d :: after) :
    (∃ rest, first = before ++ d :: rest ∧ after = rest ++ last) ∨
      ∃ rest, before = first ++ rest ∧ last = rest ++ d :: after := by
  rcases List.append_eq_append_iff.mp h with ⟨rest, rfl, hlast⟩ | ⟨rest, rfl, hrest⟩
  · exact .inr ⟨rest, rfl, hlast⟩
  · cases rest with
    | nil => exact .inr ⟨[], by simp, hrest.symm⟩
    | cons d' rest =>
        obtain ⟨rfl, rfl⟩ := List.cons.inj hrest
        exact .inl ⟨rest, rfl, rfl⟩

theorem not_cancels_idle (h : ∀ d ∈ deeds, Idle d) (hd : .step s writes ∈ deeds) :
    ¬ Cancels s writes t := h _ hd t

theorem step_notMem_workerStop : .step s writes ∉ workerStop snap := by
  unfold workerStop
  split
  · simp
  · simp

namespace Cancelling

/-- Every cancellation is decided on a snapshot, and the thread that is started next stops the
worker of that snapshot. -/
theorem strike (h : Cancelling expected deeds ids) {before after : Deeds}
    (hdeeds : deeds = before ++ .step s writes :: after) (ht : Cancels s writes t) :
    ∃ snap : Task, writes = [cancelWrite snap] ∧ snap.status ∈ cancellable ∧
      snap.status ∈ expected ∧ snap.id ∈ ids ∧ (snap.status ∈ claiming →
        nextStarted after = some (.cancelTaskRemoteBestEffort snap)) := by
  induction h generalizing before after with
  | idle deeds hidle => exact (not_cancels_idle hidle (by simp [hdeeds]) ht).elim
  | one first quiet s' snap hfirst hquiet hcancellable hexpected hrow =>
      rcases split_append hdeeds with ⟨rest, hsplit, -⟩ | ⟨rest, rfl, hsplit⟩
      · exact (not_cancels_idle hfirst (by simp [hsplit]) ht).elim
      cases rest with
      | nil =>
          obtain ⟨hstep, rfl⟩ := List.cons.inj hsplit
          obtain ⟨rfl, rfl⟩ := Deed.step.inj hstep
          refine ⟨snap, rfl, hcancellable, hexpected, List.mem_singleton.mpr rfl, fun hclaiming ↦ ?_⟩
          rw [nextStarted_append, nextStarted_idle hquiet, workerStop, if_pos hclaiming]
          rfl
      | cons d rest =>
          obtain ⟨-, hrest⟩ := List.cons.inj hsplit
          have hmem : .step s writes ∈ quiet ++ workerStop snap := by simp [hrest]
          rcases List.mem_append.mp hmem with hmem | hmem
          · exact (not_cancels_idle hquiet hmem ht).elim
          · exact (step_notMem_workerStop hmem).elim
  | append first last ids ids' _ _ ihfirst ihlast =>
      rcases split_append hdeeds with ⟨rest, hsplit, rfl⟩ | ⟨rest, rfl, hsplit⟩
      · obtain ⟨snap, hwrites, hcancellable, hexpected, hid, hnext⟩ := ihfirst hsplit
        refine ⟨snap, hwrites, hcancellable, hexpected, List.mem_append_left _ hid,
          fun hclaiming ↦ ?_⟩
        rw [nextStarted_append, hnext hclaiming]
        rfl
      · obtain ⟨snap, hwrites, hcancellable, hexpected, hid, hnext⟩ := ihlast hsplit
        exact ⟨snap, hwrites, hcancellable, hexpected, List.mem_append_right _ hid, hnext⟩

/-- Every id that counts as cancelled is the one of a row that has been cancelled. -/
theorem exists_cancels (h : Cancelling expected deeds ids) {id : ℕ} (hid : id ∈ ids) :
    ∃ s writes t, .step s writes ∈ deeds ∧ Cancels s writes t ∧ t.id = id := by
  induction h with
  | idle deeds _ => cases hid
  | one before quiet s snap _ _ hcancellable _ hrow =>
      obtain ⟨t, ht, htid, hstatus⟩ := hrow
      exact ⟨s, _, t, by simp, (cancels_cancelWrite hcancellable).mpr ⟨ht, htid, hstatus⟩,
        htid.trans (List.mem_singleton.mp hid).symm⟩
  | append first last ids ids' _ _ ihfirst ihlast =>
      rcases List.mem_append.mp hid with hid | hid
      · obtain ⟨s, writes, t, hstep, ht⟩ := ihfirst hid
        exact ⟨s, writes, t, List.mem_append_left _ hstep, ht⟩
      · obtain ⟨s, writes, t, hstep, ht⟩ := ihlast hid
        exact ⟨s, writes, t, List.mem_append_right _ hstep, ht⟩

/-- Every thread that is started stops the worker of the snapshot of a cancelled row. -/
theorem started (h : Cancelling expected deeds ids) {call : Call} (hcall : .start call ∈ deeds) :
    ∃ snap t, call = .cancelTaskRemoteBestEffort snap ∧ t.id = snap.id ∧
      t.status = snap.status ∧ snap.status ∈ claiming ∧ Strikes deeds snap t := by
  induction h with
  | idle deeds hidle => exact (hidle _ hcall).elim
  | one before quiet s snap hbefore hquiet hcancellable _ hrow =>
      obtain ⟨t, ht, htid, hstatus⟩ := hrow
      simp only [List.mem_append, List.mem_cons, reduceCtorEq, false_or] at hcall
      rcases hcall with hcall | hcall | hcall
      · exact (hbefore _ hcall).elim
      · exact (hquiet _ hcall).elim
      · unfold workerStop at hcall
        split at hcall
        · rename_i hclaiming
          rw [List.mem_singleton, Deed.start.injEq] at hcall
          exact ⟨snap, t, hcall, htid, hstatus, hclaiming, s, by simp,
            (cancels_cancelWrite hcancellable).mpr ⟨ht, htid, hstatus⟩⟩
        · cases hcall
  | append first last ids ids' _ _ ihfirst ihlast =>
      rcases List.mem_append.mp hcall with hcall | hcall
      · obtain ⟨snap, t, hsnap, hid, hstatus, hclaiming, s, hstep, ht⟩ := ihfirst hcall
        exact ⟨snap, t, hsnap, hid, hstatus, hclaiming, s, List.mem_append_left _ hstep, ht⟩
      · obtain ⟨snap, t, hsnap, hid, hstatus, hclaiming, s, hstep, ht⟩ := ihlast hcall
        exact ⟨snap, t, hsnap, hid, hstatus, hclaiming, s, List.mem_append_right _ hstep, ht⟩

end Cancelling

variable {site : Site} {taskId : ℕ}

def cancelledIds (taskId : ℕ) (reply : Option CancelReply) : List ℕ :=
  if reply.any (·.cancelled) then [taskId] else []

theorem workerStop_ends {u : Unit} (h : (when (claiming.contains snap.status)
    (spawn (.cancelTaskRemoteBestEffort snap)) : Action Unit).Ends deeds u) :
    deeds = workerStop snap := by
  unfold workerStop
  cases hclaiming : claiming.contains snap.status with
  | true =>
      rw [hclaiming] at h
      rw [if_pos (List.contains_iff_mem.mp hclaiming)]
      exact ends_spawn.mp h
  | false =>
      rw [hclaiming] at h
      rw [if_neg (by simpa using hclaiming)]
      exact h.1

theorem cancelled_ends {reply : Option CancelReply} (h : (do
      onTaskTerminal site snap
      when (snap.allocationId != 0) (recalculateAllocationCapacity none)
      when (claiming.contains snap.status) (spawn (.cancelTaskRemoteBestEffort snap))
      pure (some (.done snap)) : Action (Option CancelReply)).Ends deeds reply) :
    ∃ quiet, deeds = quiet ++ workerStop snap ∧ (∀ d ∈ quiet, Idle d) ∧
      reply = some (.done snap) := by
  obtain ⟨_, terminal, rest, rfl, hterminal, hrest⟩ := ends_bind.mp h
  obtain ⟨_, capacity, rest, rfl, hcapacity, hrest⟩ := ends_bind.mp hrest
  obtain ⟨_, stop, rest, rfl, hstop, rfl, rfl⟩ := ends_bind.mp hrest
  refine ⟨terminal ++ capacity, ?_, List.forall_mem_append.mpr ⟨onTaskTerminal_idle _ _ hterminal,
    only_when recalculateAllocationCapacity_idle _ _ hcapacity⟩, rfl⟩
  rw [List.append_nil, workerStop_ends hstop, List.append_assoc]

theorem attempt_ends (n : ℕ) {reply : Option CancelReply}
    (h : (requestCancelTask.attempt site taskId expected n).Ends deeds reply) :
    Cancelling expected deeds (cancelledIds taskId reply) ∧ ∀ r, reply = some r → r.id = taskId := by
  induction n generalizing deeds with
  | zero =>
      obtain ⟨found, first, last, rfl, hread, rfl, rfl⟩ := ends_bind.mp h
      obtain ⟨s, rfl, rfl⟩ := ends_read.mp hread
      have hidle := read_idle _ _ hread
      cases hrow : s.task? taskId with
      | none => exact ⟨.idle _ (by simpa using hidle), fun r hr ↦ by cases hr⟩
      | some task =>
          refine ⟨.idle _ (by simpa using hidle), fun r hr ↦ ?_⟩
          cases hr
          exact (mem_of_task? hrow).2
  | succ n ih =>
      obtain ⟨found, first, last, rfl, hread, hlast⟩ := ends_bind.mp h
      obtain ⟨s, rfl, rfl⟩ := ends_read.mp hread
      have hidle := read_idle _ _ hread
      cases hrow : s.task? taskId with
      | none =>
          rw [hrow] at hlast
          obtain ⟨rfl, rfl⟩ := hlast
          exact ⟨.idle _ (by simpa using hidle), fun r hr ↦ by cases hr⟩
      | some snap =>
          have hid : snap.id = taskId := (mem_of_task? hrow).2
          rw [hrow] at hlast
          dsimp only at hlast
          split at hlast
          · obtain ⟨rfl, rfl⟩ := hlast
            refine ⟨.idle _ (by simpa using hidle), fun r hr ↦ ?_⟩
            cases hr
            exact hid
          rename_i hwanted
          simp only [Bool.not_eq_true', Bool.not_eq_false, Bool.and_eq_true,
            List.contains_iff_mem] at hwanted
          obtain ⟨updated, write, rest, rfl, hwrite, hrest⟩ := ends_bind.mp hlast
          obtain ⟨s', rfl, rfl⟩ := ends_transact.mp hwrite
          split at hrest
          · rename_i hupdated
            obtain ⟨t, ht, hstatus⟩ := (Option.any_eq_true _ _).mp hupdated
            obtain ⟨htmem, htid⟩ := mem_of_task? ht
            rw [List.contains_iff_mem, List.mem_singleton] at hstatus
            obtain ⟨quiet, rfl, hquiet, rfl⟩ := cancelled_ends hrest
            refine ⟨?_, fun r hr ↦ by cases hr; exact hid⟩
            have hone := Cancelling.one _ _ s' snap hidle hquiet hwanted.1 hwanted.2
              ⟨t, htmem, htid, hstatus⟩
            simpa [cancelledIds, CancelReply.done, hid] using hone
          · rename_i hmissed
            obtain ⟨hrun, hreply⟩ := ih hrest
            refine ⟨?_, hreply⟩
            have hmiss : Idle (.step s' [cancelWrite snap]) := fun t ht ↦ by
              obtain ⟨htmem, htid, hstatus⟩ := (cancels_cancelWrite hwanted.1).mp ht
              refine hmissed ((Option.any_eq_true _ _).mpr ⟨t, htid ▸ task?_of_mem htmem, ?_⟩)
              simp [hstatus]
            have hbefore : ∀ d ∈ [Deed.step s [], .step s' [cancelWrite snap]], Idle d :=
              List.forall_mem_cons.mpr ⟨hidle _ List.mem_cons_self,
                List.forall_mem_singleton.mpr hmiss⟩
            exact .append _ _ _ _ (.idle _ hbefore) hrun

theorem requestCancelTask_ends {reply : Option CancelReply}
    (h : (requestCancelTask site taskId expected).Ends deeds reply) :
    Cancelling expected deeds (cancelledIds taskId reply) ∧ ∀ r, reply = some r → r.id = taskId :=
  attempt_ends 4 h

def Collects (expected : List TaskStatus) (allowed : List ℕ) (deeds : Deeds)
    (collected : Option (List ℕ)) : Prop :=
  ∃ ids, Cancelling expected deeds ids ∧ (∀ id ∈ ids, id ∈ allowed) ∧
    ∀ l, collected = some l → l = ids

variable {allowed : List ℕ} {collected : Option (List ℕ)}

theorem collects_nil : Collects expected allowed [] (some []) :=
  ⟨[], .idle [] (List.forall_mem_nil _), List.forall_mem_nil _, fun _ h ↦ (Option.some.inj h).symm⟩

theorem Collects.next {before : Deeds} {ids : List ℕ} {reply : Option CancelReply}
    (h : Collects expected allowed before (some ids)) (hallowed : taskId ∈ allowed)
    (hreply : (requestCancelTask site taskId expected).Ends deeds reply)
    (hcollected : ∀ l, collected = some l → l = ids ++ cancelledIds taskId reply) :
    Collects expected allowed (before ++ deeds) collected := by
  obtain ⟨ids', hrun, hids, hsame⟩ := h
  obtain rfl := hsame ids rfl
  refine ⟨_, .append _ _ _ _ hrun (requestCancelTask_ends hreply).1, fun id hid ↦ ?_, hcollected⟩
  rcases List.mem_append.mp hid with hid | hid
  · exact hids id hid
  · unfold cancelledIds at hid
    split at hid
    · exact List.mem_singleton.mp hid ▸ hallowed
    · cases hid

theorem Collects.raised {before : Deeds} (h : Collects expected allowed before collected) :
    Collects expected allowed before none := by
  obtain ⟨ids, hrun, hids, -⟩ := h
  exact ⟨ids, hrun, hids, fun l hl ↦ by cases hl⟩

theorem cancelListedTasks_ends {taskIds : List ℕ}
    (h : (cancelListedTasks site taskIds expected).Ends deeds collected) :
    Collects expected taskIds deeds collected := by
  show Collects expected taskIds ([] ++ deeds) collected
  refine ends_fold (I := Collects expected taskIds) collects_nil
    (fun taskId htaskId before collected hbefore deeds collected' hround ↦ ?_) h
  cases collected with
  | none =>
      obtain ⟨rfl, rfl⟩ := hround
      rwa [List.append_nil]
  | some ids =>
      dsimp only [cancelListedTask] at hround
      split at hround
      · obtain ⟨rfl, rfl⟩ := hround
        rw [List.append_nil]
        exact hbefore.raised
      · obtain ⟨reply, first, last, rfl, hreply, rfl, rfl⟩ := ends_bind.mp hround
        rw [List.append_nil]
        refine hbefore.next htaskId hreply fun l hl ↦ ?_
        rw [← Option.some.inj hl, cancelledIds]
        split <;> simp

theorem cancelTasks_ends {nameContains : String} {statuses : List TaskStatus} {limit : ℕ}
    (h : (cancelTasks site nameContains statuses limit).Ends deeds collected) :
    ∃ ids, Cancelling (if statuses.isEmpty then cancellable else statuses) deeds ids ∧
      ∀ l, collected = some l → ∀ id, id ∈ l ↔ id ∈ ids := by
  obtain ⟨rows, first, rest, rfl, hread, hrest⟩ := ends_bind.mp h
  have hidle := read_idle _ _ hread
  obtain ⟨found, middle, last, rfl, hfold, rfl, rfl⟩ := ends_bind.mp hrest
  rw [List.append_nil]
  generalize hselected : List.filter _ _ = selected at hfold
  have hrun : Collects (if statuses.isEmpty then cancellable else statuses) (selected.map (·.id))
      ([] ++ middle) found := ends_fold (I := Collects
    (if statuses.isEmpty then cancellable else statuses) (selected.map (·.id))) collects_nil
    (fun task htask before collected hbefore deeds collected' hround ↦ ?_) hfold
  · obtain ⟨ids, hrun, -, hsame⟩ := hrun
    refine ⟨[] ++ ids, .append _ _ _ _ (.idle _ hidle) hrun, fun l hl id ↦ ?_⟩
    obtain ⟨l', hl', rfl⟩ := Option.map_eq_some_iff.mp hl
    rw [hsame l' hl', List.mem_mergeSort]
    rfl
  · cases collected with
    | none =>
        obtain ⟨rfl, rfl⟩ := hround
        rwa [List.append_nil]
    | some ids =>
        obtain ⟨reply, first, last, rfl, hreply, rfl, rfl⟩ := ends_bind.mp hround
        rw [List.append_nil]
        refine hbefore.next (List.mem_map_of_mem htask) hreply fun l hl ↦ ?_
        obtain ⟨r, rfl, hr⟩ := Option.map_eq_some_iff.mp hl
        rw [← hr]
        simp only [cancelledIds, Option.any_some]
        split <;> simp

/-- What a request does where it is heard, and that a request that is not heard asks for nothing. -/
structure Performs (site : Site) (request : CancelRequest) (deeds : Deeds)
    (response : CancelResponse) (expected : List TaskStatus) (ids : List ℕ) : Prop where
  run : Cancelling expected deeds ids
  returned : ∀ l, response.returned = some l → ∀ id, id ∈ l ↔ id ∈ ids
  heard : request.heard site = true → expected = request.statuses site ∧
    ∀ l, request.named site = some l → ∀ id ∈ ids, id ∈ l

theorem performs_nothing {request : CancelRequest} {response : CancelResponse}
    (h : response.returned = none) : Performs site request [] response (request.statuses site) [] where
  run := .idle [] (List.forall_mem_nil _)
  returned l hl := by rw [h] at hl; cases hl
  heard _ := ⟨rfl, fun _ _ ↦ List.forall_mem_nil _⟩

theorem apiCancelTask_ends {expectedStatuses : String} {response : CancelResponse}
    (h : (apiCancelTask site taskId expectedStatuses).Ends deeds response) :
    ∃ ids, Performs site (.task taskId expectedStatuses) deeds response
      ((CancelRequest.task taskId expectedStatuses).statuses site) ids := by
  unfold apiCancelTask at h
  split at h
  · obtain ⟨rfl, rfl⟩ := h
    exact ⟨[], performs_nothing rfl⟩
  rename_i statuses hparsed
  have hstatuses : (CancelRequest.task taskId expectedStatuses).statuses site =
      if site.svc.strip expectedStatuses != "" then statuses else cancellable := by
    simp only [CancelRequest.statuses, statusesOf, hparsed]
  dsimp only at h
  split at h
  · obtain ⟨rfl, rfl⟩ := h
    exact ⟨[], performs_nothing rfl⟩
  obtain ⟨reply, first, last, rfl, hreply, hlast⟩ := ends_bind.mp h
  rw [← hstatuses] at hreply
  obtain ⟨hrun, hid⟩ := requestCancelTask_ends hreply
  refine ⟨cancelledIds taskId reply, ?_⟩
  have hresponse : last = [] ∧ ∀ l, response.returned = some l → l = cancelledIds taskId reply := by
    cases reply with
    | none =>
        obtain ⟨rfl, rfl⟩ := hlast
        exact ⟨rfl, fun l hl ↦ by cases hl⟩
    | some r =>
        obtain ⟨rfl, rfl⟩ := hlast
        refine ⟨rfl, fun l hl ↦ ?_⟩
        rw [← Option.some.inj hl, cancelledIds, hid r rfl]
        rfl
  obtain ⟨rfl, hreturned⟩ := hresponse
  rw [List.append_nil]
  refine ⟨hrun, fun l hl id ↦ by rw [hreturned l hl], fun _ ↦ ⟨rfl, fun l hl id hmem ↦ ?_⟩⟩
  obtain rfl := Option.some.inj hl
  unfold cancelledIds at hmem
  split at hmem
  · exact hmem
  · cases hmem

theorem apiCancelTasks_ends {query : CancelQuery} {response : CancelResponse}
    (h : (apiCancelTasks site query).Ends deeds response) :
    ∃ expected ids, Performs site (.tasks query) deeds response expected ids := by
  unfold apiCancelTasks at h
  split at h
  · obtain ⟨rfl, rfl⟩ := h
    exact ⟨_, [], performs_nothing rfl⟩
  split at h
  · obtain ⟨rfl, rfl⟩ := h
    exact ⟨_, [], performs_nothing rfl⟩
  rename_i statuses hstatuses
  split at h
  · obtain ⟨rfl, rfl⟩ := h
    exact ⟨_, [], performs_nothing rfl⟩
  rename_i taskIds htaskIds
  obtain ⟨collected, first, last, rfl, hselected, rfl, rfl⟩ := ends_bind.mp h
  rw [List.append_nil]
  have hasked : statusesOf site query.statuses = statuses := by simp only [statusesOf, hstatuses]
  have hlisted : taskIdsOf site query.taskIds = taskIds := by simp [taskIdsOf, htaskIds]
  have hreturned : ∀ l, (collected.elim CancelResponse.raised .cancelled).returned = some l →
      collected = some l := fun l hl ↦ by
    cases collected with
    | none => cases hl
    | some l' => exact hl
  unfold cancelSelected at hselected
  split at hselected
  · split at hselected
    · obtain ⟨rfl, rfl⟩ := hselected
      exact ⟨_, [], performs_nothing rfl⟩
    obtain ⟨ids, hrun, hsame⟩ := cancelTasks_ends hselected
    refine ⟨_, ids, hrun, fun l hl ↦ hsame l (hreturned l hl), fun hheard ↦ ?_⟩
    rw [CancelRequest.heard, hlisted, hasked, Bool.or_eq_true, Bool.and_eq_true, beq_iff_eq,
      Bool.not_eq_true', Bool.not_eq_true'] at hheard
    rcases hheard with hheard | ⟨hnone, hsome⟩
    · cases hheard
    · refine ⟨?_, fun l hl ↦ ?_⟩
      · rw [hsome]
        exact hasked.symm
      · rw [CancelRequest.named, if_pos hnone] at hl
        cases hl
  · rename_i taskId taskIds
    obtain ⟨ids, hrun, hids, hsame⟩ := cancelListedTasks_ends hselected
    refine ⟨_, ids, hrun, fun l hl id ↦ by rw [hsame l (hreturned l hl)],
      fun _ ↦ ⟨hasked.symm, fun l hl id hmem ↦ ?_⟩⟩
    rw [CancelRequest.named] at hl
    split at hl
    · cases hl
    · rw [← Option.some.inj hl, hlisted]
      exact hids id hmem

theorem apiCancel_ends {request : CancelRequest} {response : CancelResponse}
    (h : (apiCancel site request).Ends deeds response) :
    ∃ expected ids, Performs site request deeds response expected ids := by
  cases request with
  | task taskId expectedStatuses => exact ⟨_, apiCancelTask_ends h⟩
  | tasks query => exact apiCancelTasks_ends h

/-- A request that is not heard asks for no task and no status. -/
theorem asks_nothing {request : CancelRequest} (h : request.heard site = false) :
    request.named site = some [] ∨ request.statuses site = [] := by
  cases request with
  | task taskId expectedStatuses => cases h
  | tasks query =>
      simp only [CancelRequest.heard, Bool.or_eq_false_iff, Bool.not_eq_false', Bool.and_eq_false_iff,
        beq_eq_false_iff_ne, List.isEmpty_iff] at h
      obtain ⟨hids, hlist | hstatuses⟩ := h
      · exact .inl (by rw [CancelRequest.named, if_neg hlist, hids])
      · exact .inr hstatuses

/-- Whatever happens between the steps of a request, it cancels what it was asked to and nothing
else, and stops the workers of the rows that it has cancelled, if and only if at each of its
cancellations it has named a task or a status and the attempt that holds the row is the one that
it has read. -/
theorem cancels_what_is_asked_iff (site : Site) (request : CancelRequest) (deeds : Deeds)
    (response : CancelResponse) (h : (apiCancel site request).Ends deeds response) :
    Hits site request deeds response ↔ ∀ snap t, Strikes deeds snap t →
      request.heard site = true ∧ (t.status ∈ claiming → snap.attempt = t.attempt) := by
  obtain ⟨expected, ids, hrun, hreturned, hheard⟩ := apiCancel_ends h
  have hstrike : ∀ {s writes t}, .step s writes ∈ deeds → Cancels s writes t →
      ∃ snap : Task, writes = [cancelWrite snap] ∧ snap.status ∈ expected ∧ snap.id ∈ ids ∧
        t.id = snap.id ∧ t.status = snap.status := by
    intro s writes t hstep ht
    obtain ⟨before, after, hsplit⟩ := List.append_of_mem hstep
    obtain ⟨snap, rfl, hcancellable, hexpected, hid, -⟩ := hrun.strike hsplit ht
    exact ⟨snap, rfl, hexpected, hid, ((cancels_cancelWrite hcancellable).mp ht).2⟩
  constructor
  · intro hhits snap t hsnap
    obtain ⟨s, hstep, ht⟩ := hsnap
    constructor
    · by_contra hnot
      rcases asks_nothing (Bool.eq_false_iff.mpr hnot) with hnamed | hasked
      · cases hhits.named _ hnamed s _ t hstep ht
      · have hmem := hhits.asked s _ t hstep ht
        rw [hasked] at hmem
        cases hmem
    · intro hclaiming
      obtain ⟨before, after, hsplit⟩ := List.append_of_mem hstep
      obtain ⟨snap', hwrite, hcancellable, -, -, hnext⟩ := hrun.strike hsplit ht
      obtain ⟨rfl, -⟩ := Write.updateTaskIfStatus.inj (List.cons.inj hwrite).1
      have hstatus := ((cancels_cancelWrite hcancellable).mp ht).2.2
      obtain ⟨task, htask, -, hattempt⟩ := hhits.addressed before s _ after t hsplit ht hclaiming
      rw [hnext (hstatus ▸ hclaiming), Option.some.injEq] at htask
      rw [Call.cancelTaskRemoteBestEffort.inj htask, hattempt]
  · intro hcond
    refine ⟨fun l hl s writes t hstep ht ↦ ?_, fun s writes t hstep ht ↦ ?_,
      fun l hl id ↦ ?_, fun before s writes after t hsplit ht hclaiming ↦ ?_, fun call hcall ↦ ?_⟩
    · obtain ⟨snap, rfl, -, hid, htid, -⟩ := hstrike hstep ht
      rw [htid]
      exact (hheard (hcond snap t ⟨s, hstep, ht⟩).1).2 l hl snap.id hid
    · obtain ⟨snap, rfl, hexpected, -, -, hstatus⟩ := hstrike hstep ht
      rw [hstatus, ← (hheard (hcond snap t ⟨s, hstep, ht⟩).1).1]
      exact hexpected
    · rw [hreturned l hl]
      refine ⟨hrun.exists_cancels, ?_⟩
      rintro ⟨s, writes, t, hstep, ht, rfl⟩
      obtain ⟨snap, rfl, -, hid, htid, -⟩ := hstrike hstep ht
      exact htid ▸ hid
    · obtain ⟨snap, rfl, hcancellable, -, -, hnext⟩ := hrun.strike hsplit ht
      obtain ⟨-, htid, hstatus⟩ := (cancels_cancelWrite hcancellable).mp ht
      exact ⟨snap, hnext (hstatus ▸ hclaiming), htid.symm,
        (hcond snap t ⟨s, by simp [hsplit], ht⟩).2 hclaiming⟩
    · obtain ⟨snap, t, rfl, htid, hstatus, hclaiming, s, hstep, ht⟩ := hrun.started hcall
      exact ⟨snap, rfl, s, _, t, hstep, ht, htid,
        ((hcond snap t ⟨s, hstep, ht⟩).2 (hstatus ▸ hclaiming)).symm⟩

def cancelRun (request : CancelRequest) (states : ℕ → State) : Deeds × CancelResponse :=
  (apiCancel sampleSite request).alongside states sampleAnswers 0

theorem cancelRun_ends (request : CancelRequest) (states : ℕ → State) :
    (apiCancel sampleSite request).Ends (cancelRun request states).1 (cancelRun request states).2 :=
  ends_alongside _ _ _ _

def meetsAttempt : Deed State Write Call → Bool
  | .step s [.updateTaskIfStatus snap _ .cancelled] =>
      s.tasks.rows.all fun t ↦ t.id != snap.id || t.attempt == snap.attempt
  | _ => true

theorem attempt_of_meets (h : deeds.all meetsAttempt = true) (hcancellable : snap.status ∈ cancellable)
    (hs : Strikes deeds snap t) : snap.attempt = t.attempt := by
  obtain ⟨s, hstep, ht⟩ := hs
  obtain ⟨hmem, hid, -⟩ := (cancels_cancelWrite hcancellable).mp ht
  have hrow : (t.id != snap.id || t.attempt == snap.attempt) = true :=
    List.all_eq_true.mp (List.all_eq_true.mp h _ hstep) t hmem
  rw [Bool.or_eq_true, bne_iff_ne, beq_iff_eq] at hrow
  exact (hrow.resolve_left fun hne ↦ hne hid).symm

/-- No other thread comes between the steps of a request for one task. -/
theorem cancels_what_is_asked_iff_listed :
    Hits sampleSite (.tasks { taskIds := "1" }) (cancelRun (.tasks { taskIds := "1" }) fun _ ↦ workerState).1
        (cancelRun (.tasks { taskIds := "1" }) fun _ ↦ workerState).2 ∧
      (cancelRun (.tasks { taskIds := "1" }) fun _ ↦ workerState).2.returned = some [1] := by
  refine ⟨(cancels_what_is_asked_iff sampleSite _ _ _ (cancelRun_ends _ _)).mpr
    fun snap t hstrike ↦ ⟨by decide, fun _ ↦ ?_⟩, by decide⟩
  obtain ⟨s, hstep, ht⟩ := hstrike
  obtain ⟨expected, ids, hrun, -, -⟩ := apiCancel_ends (cancelRun_ends _ _)
  obtain ⟨before, after, hsplit⟩ := List.append_of_mem hstep
  obtain ⟨snap', hwrite, hcancellable, -⟩ := hrun.strike hsplit ht
  obtain ⟨rfl, -⟩ := Write.updateTaskIfStatus.inj (List.cons.inj hwrite).1
  exact attempt_of_meets (by decide) hcancellable ⟨s, hstep, ht⟩

def relaunchedState : State :=
  { workerState with
    tasks := Table.empty.insert fun id ↦
      { id, status := .running, allocationId := 2, accountName := some "alpha"
        attachToken := "newer", schedulingProfile := .feaBursty, launchStartedAt := some 9 } }

def cancelsOne (p : Task → Bool) : Deed State Write Call → Bool
  | .step s writes => s.tasks.rows.any fun t ↦ t.status != .cancelled && p t &&
      (replay writes s).tasks.rows.any fun t' ↦ t'.id == t.id && t'.status == .cancelled
  | .start _ => false

theorem any_cancelsOne {p : Task → Bool} : deeds.any (cancelsOne p) = true ↔
    ∃ s writes t, .step s writes ∈ deeds ∧ Cancels s writes t ∧ p t = true := by
  rw [List.any_eq_true]
  constructor
  · rintro ⟨d, hd, hone⟩
    cases d with
    | start call => cases hone
    | step s writes =>
        obtain ⟨t, ht, hrow⟩ := List.any_eq_true.mp hone
        simp only [Bool.and_eq_true, bne_iff_ne] at hrow
        obtain ⟨t', ht', hcancelled⟩ := List.any_eq_true.mp hrow.2
        simp only [Bool.and_eq_true, beq_iff_eq] at hcancelled
        exact ⟨s, writes, t, hd, ⟨ht, hrow.1.1, t', ht', hcancelled⟩, hrow.1.2⟩
  · rintro ⟨s, writes, t, hd, ⟨ht, hnot, t', ht', hid, hcancelled⟩, hp⟩
    refine ⟨_, hd, List.any_eq_true.mpr ⟨t, ht, ?_⟩⟩
    simp only [Bool.and_eq_true, bne_iff_ne]
    exact ⟨⟨hnot, hp⟩, List.any_eq_true.mpr ⟨t', ht', by simp [hid, hcancelled]⟩⟩

def startsStop (p : Task → Bool) : Deed State Write Call → Bool
  | .start (.cancelTaskRemoteBestEffort task) => p task
  | _ => false

theorem exists_of_startsStop {p : Task → Bool} (h : deeds.any (startsStop p) = true) :
    ∃ task, .start (.cancelTaskRemoteBestEffort task) ∈ deeds ∧ p task = true := by
  obtain ⟨d, hd, hstop⟩ := List.any_eq_true.mp h
  unfold startsStop at hstop
  split at hstop
  · exact ⟨_, hd, hstop⟩
  · cases hstop

/-- A list of ids in which no part is a number, and a task that has been launched again between
the two steps of its cancellation. -/
theorem other_tasks_cancelled :
    (∃ deeds response, (apiCancel sampleSite (.tasks { taskIds := "#1" })).Ends deeds response ∧
      ¬ Hits sampleSite (.tasks { taskIds := "#1" }) deeds response) ∧
    ∃ deeds response, (apiCancel sampleSite (.task 1 "")).Ends deeds response ∧
      ¬ Hits sampleSite (.task 1 "") deeds response := by
  constructor
  · refine ⟨_, _, cancelRun_ends _ fun _ ↦ workerState, fun h ↦ ?_⟩
    have hnamed : (CancelRequest.tasks { taskIds := "#1" }).named sampleSite = some [] := by
      decide
    have hcancels : (cancelRun (.tasks { taskIds := "#1" }) fun _ ↦ workerState).1.any
        (cancelsOne fun _ ↦ true) = true := by decide
    obtain ⟨s, writes, t, hstep, ht, -⟩ := any_cancelsOne.mp hcancels
    cases h.named [] hnamed s writes t hstep ht
  · refine ⟨_, _, cancelRun_ends _ fun n ↦ if n = 0 then workerState else relaunchedState,
      fun h ↦ ?_⟩
    have hstops : (cancelRun (.task 1 "")
        fun n ↦ if n = 0 then workerState else relaunchedState).1.any
          (startsStop fun task ↦ task.attachToken == "token") = true := by decide
    have hcancels : (cancelRun (.task 1 "")
        fun n ↦ if n = 0 then workerState else relaunchedState).1.any
          (cancelsOne fun t ↦ t.attachToken == "token") = false := by decide
    obtain ⟨task, hstart, htoken⟩ := exists_of_startsStop hstops
    obtain ⟨task', hcall, s, writes, t, hstep, ht, -, hattempt⟩ := h.started _ hstart
    obtain rfl := Call.cancelTaskRemoteBestEffort.inj hcall
    have htoken' : t.attachToken = task.attachToken := (Prod.mk.inj (Prod.mk.inj hattempt).2).2
    have hrow : (t.attachToken == "token") = true := by rw [htoken', htoken]
    rw [any_cancelsOne.mpr ⟨s, writes, t, hstep, ht, hrow⟩] at hcancels
    cases hcancels

end SlurmScheduler.Dispatch
