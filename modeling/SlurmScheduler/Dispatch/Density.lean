import SlurmScheduler.Dispatch.ConfirmedStops
import SlurmScheduler.Concurrent.Federation

namespace SlurmScheduler.Dispatch

open Relational Concurrent Proc Discipline Statement
open Pool (Time TaskStatus AllocationStatus)

instance : PrivateMemory State Memory where
  memory := State.memory
  withMemory s m := { s with memory := m }
  withMemory_memory _ := rfl
  memory_withMemory _ _ := rfl
  withMemory_withMemory _ _ _ := rfl

/-- The schedulers and pool services of several processes on one database. -/
abbrev Fleet (ι : Type) : Type := Federation State Memory ι

def fleet (ι : Type) (site : Site) :
    System (Fleet ι) (ι × Write) (ι × Lock) (ι × Call) Question Question.Answer :=
  (system site).federation

/-- The pooled tasks that hold a place of the allocation. -/
def State.pooledTasks (s : State) (aid : ℕ) : ℕ :=
  s.tasks.count fun u ↦ u.claims aid && u.sqlPooled

structure Hosting (s : State) (c : PooledClaim) (x : Pool.Session) : Prop where
  allocation : x.allocationId = c.allocationId
  serving : ∃ a, s.allocation? c.allocationId = some a ∧ a.state.serving = true
  state : x.state.assignable = true
  heartbeat : ∃ beat, x.lastHeartbeatAt = some beat ∧ c.heartbeatCutoff ≤ beat
  quarantine : ∀ u, x.quarantineUntil = some u → u ≤ c.now
  reuse : x.reuseBlockedAt = none
  batch : x.solveBatchSealedAt = none
  drain : x.drainRequestedAt = none

/-- The task has an unexpired reservation of a slot on a hosting session. -/
def Reserves (s : State) (c : PooledClaim) (t : Task) : Prop :=
  ∃ r ∈ s.pool.reservations, ∃ x ∈ s.pool.sessions, r.taskId = t.id ∧ r.state = .reserved ∧
    c.now < r.expiresAt ∧ x.id = r.sessionId ∧ x.generation = r.sessionGeneration ∧
    x.sessionProfile = r.sessionProfile ∧ Hosting s c x

variable {s : State} {c : PooledClaim} {t : Task}

theorem hosting_of_heldSession {r : Pool.Reservation} {x : Pool.Session}
    (h : s.heldSession c r x = true) : x.id = r.sessionId ∧ x.generation = r.sessionGeneration ∧
      x.sessionProfile = r.sessionProfile ∧ Hosting s c x := by
  simp only [State.heldSession, Bool.and_eq_true, beq_iff_eq] at h
  obtain ⟨⟨⟨⟨⟨⟨⟨⟨⟨⟨hid, hallocation⟩, hgeneration⟩, hprofile⟩, hstate⟩, hserving⟩, hbeat⟩,
    hquarantine⟩, hreuse⟩, hbatch⟩, hdrain⟩ := h
  obtain ⟨a, ha, hserves⟩ := (Option.any_eq_true _ _).mp hserving
  obtain ⟨beat, hlast, hcutoff⟩ := (Option.any_eq_true _ _).mp hbeat
  refine ⟨hid, hgeneration, hprofile, ?_⟩
  exact
    { allocation := hallocation
      serving := ⟨a, hallocation ▸ ha, hserves⟩
      state := hstate
      heartbeat := ⟨beat, hlast, of_decide_eq_true hcutoff⟩
      quarantine := fun u hu ↦ by simpa [hu] using hquarantine
      reuse := Option.isNone_iff_eq_none.mp hreuse
      batch := Option.isNone_iff_eq_none.mp hbatch
      drain := Option.isNone_iff_eq_none.mp hdrain }

theorem reserves_of_reservedCapacity (h : s.reservedCapacity c t = true) : Reserves s c t := by
  simp only [State.reservedCapacity, Bool.and_eq_true] at h
  obtain ⟨r, hr, hreservation⟩ := List.any_eq_true.mp h.1.2
  simp only [Bool.and_eq_true, beq_iff_eq, decide_eq_true_eq] at hreservation
  obtain ⟨⟨⟨htask, hreserved⟩, hexpires⟩, hsession⟩ := hreservation
  obtain ⟨x, hx, hheld⟩ := List.any_eq_true.mp hsession
  exact ⟨r, hr, x, hx, htask, hreserved, hexpires, hosting_of_heldSession hheld⟩

/-- The row that the statement changes is the one with which the allocation is full at most. -/
theorem pooledTasks_claimed {seen : Task} {change : TaskChange}
    (h : s.reservedCapacity c t = true) :
    ∃ a, s.allocation? c.allocationId = some a ∧
      ((Write.updatePooledTaskIfReservedCapacity seen c change).exec s).pooledTasks
        c.allocationId ≤ a.totalCpus / max 1 c.projectCpus := by
  simp only [State.reservedCapacity, Bool.and_eq_true] at h
  obtain ⟨a, ha, hfree⟩ := (Option.any_eq_true _ _).mp h.2
  refine ⟨a, ha, le_trans ?_ (Nat.succ_le_of_lt (of_decide_eq_true hfree))⟩
  refine @Table.count_update_le_succ _ _ _ _ _ s.tasks (change.id_stamp s.clock)
    fun u hu v hv hpu hpv ↦ ?_
  rw [Bool.and_eq_true, beq_iff_eq] at hpu hpv
  exact Table.eq_of_key_eq hu hv (hpu.1.trans hpv.1.symm)

def Backed (s : State) (seen : Task) : Prop :=
  ∃ t, s.task? seen.id = some t ∧ t.aedtBackend = seen.aedtBackend

def Claims (site : Site) (s : State) : Write → Prop
  | .updateTaskIfStatus seen _ (.claim ..) =>
      Backed s seen ∧ site.svc.isPooled seen.toTask = false
  | .updatePooledTaskIfReservedCapacity _ claim (.claim allocationId ..) =>
      allocationId = claim.allocationId ∧ claim.now ≤ s.clock
  | _ => True

def Later (s s' : State) : Prop :=
  (∀ t ∈ s.tasks, ∃ t', s'.task? t.id = some t' ∧ t'.aedtBackend = t.aedtBackend) ∧
    s.clock ≤ s'.clock

def densityRules (site : Site) : Rules where
  inv _ := True
  cond _ _ := True
  may held s w := Footprint site held w ∧ Claims site s w
  rely _ := Later
  pre _ _ := True

theorem aedtBackend_stamp (now : Time) (c : TaskChange) (t : Task) :
    (c.stamp now t).aedtBackend = t.aedtBackend := by
  cases c <;> try rfl
  case attachFailed message files => cases files <;> rfl

theorem TaskStep.aedtBackend_eq {w : Write} {t t' : Task} (h : TaskStep s t t' w) :
    t'.aedtBackend = t.aedtBackend := by
  cases h with
  | same _ h => rw [h]
  | key seen c _ h => rw [h, aedtBackend_stamp]
  | status seen expected c _ _ h => rw [h, aedtBackend_stamp]
  | attempt seen token b c _ h => rw [h, aedtBackend_stamp]
  | pooled seen claim c _ _ h => rw [h, aedtBackend_stamp]
  | pool w u hu h => rw [h]; exact hu.aedtBackend

theorem Later.refl (s : State) : Later s s :=
  ⟨fun t ht ↦ ⟨t, task?_of_mem ht, rfl⟩, le_refl _⟩

theorem Later.trans {s s' s'' : State} (h : Later s s') (h' : Later s' s'') : Later s s'' := by
  refine ⟨fun t ht ↦ ?_, h.2.trans h'.2⟩
  obtain ⟨u, hu, hbackend⟩ := h.1 t ht
  obtain ⟨hmem, hid⟩ := mem_of_task? hu
  obtain ⟨v, hv, hbackend'⟩ := h'.1 u hmem
  exact ⟨v, hid ▸ hv, hbackend'.trans hbackend⟩

theorem later_exec (s : State) (w : Write) : Later s (w.exec s) := by
  refine ⟨fun t ht ↦ ?_, ?_⟩
  · obtain ⟨t', ht', hstep⟩ := exists_taskStep w ht
    exact ⟨t', ht', hstep.aedtBackend_eq⟩
  · cases w with
    | elapse seconds => exact Nat.le_add_right _ _
    | _ => exact le_refl s.clock

theorem Backed.later {s s' : State} {seen : Task} (h : Later s s') (hs : Backed s seen) :
    Backed s' seen := by
  obtain ⟨t, ht, hbackend⟩ := hs
  obtain ⟨hmem, hid⟩ := mem_of_task? ht
  obtain ⟨u, hu, hbackend'⟩ := h.1 t hmem
  exact ⟨u, hid ▸ hu, hbackend'.trans hbackend⟩

theorem densityRules_coherent (site : Site) : (densityRules site).Coherent where
  refl _ s := Later.refl s
  trans _ _ _ _ h h' := h.trans h'
  anti _ _ _ _ _ h := h
  compatible _ _ s w _ _ _ _ := later_exec s w
  keep _ _ _ _ _ _ := trivial

/-- What a process does another one sees in the shared part of its state. -/
theorem densityRules_public (site : Site) : (densityRules site).Public where
  rely _ _ s s' w hseen _ _ _ _ := by
    have h := later_exec s' w
    rw [← hseen]
    exact h
  keep _ _ _ _ _ _ _ _ _ := trivial

variable {site : Site} {held : Lock → Bool} {task : Task}

theorem backed_respected (task : Task) : (densityRules site).Respected fun s ↦ Backed s task :=
  fun _ _ h hs ↦ hs.later h

theorem claims_of_kind {w : Write} (h : w.kind ≠ .claim) : Claims site s w := by
  cases w with
  | updateTaskIfStatus seen expected c => cases c <;> trivial
  | updatePooledTaskIfReservedCapacity seen claim c =>
      cases c <;> trivial
  | _ => trivial

theorem densityRules_allows (site : Site) (kinds : List Kind) (h : Kind.claim ∉ kinds) :
    Allows (densityRules site) site kinds where
  keep _ _ _ _ _ _ := trivial
  may _ _ _ _ hf _ hk := ⟨hf, claims_of_kind fun hkind ↦ h (hkind ▸ hk)⟩

theorem claimTask_density {allocation : Allocation} {attachToken : String}
    (hheld : held .assignment = true) (htask : task.status = .queued) :
    (densityRules site).Triple held (fun s ↦ Backed s task)
      (claimTask site task allocation attachToken) fun _ _ ↦ True := by
  refine triple_ite (fun _ ↦ ?_) fun hpooled ↦ ?_
  · have hcoherent := densityRules_coherent site
    have hclock : ∀ now, (densityRules site).Respected fun s ↦ now ≤ s.clock :=
      fun now _ _ h hnow ↦ hnow.trans h.2
    refine triple_bind (keeps_read.frame hcoherent (backed_respected task)) fun timeout ↦ ?_
    refine triple_bind ((triple_read (P := fun s ↦ Backed s task)
      ((backed_respected task).steady hcoherent)).mono (fun _ h ↦ h)
        fun now (s : State) h ↦ show now ≤ s.clock from h.1.le) fun now ↦ ?_
    refine triple_bind (keeps_read.frame hcoherent (hclock now)) fun projectCpus ↦ ?_
    refine triple_transact_single ((hclock now).steady hcoherent) fun s _ hnow ↦
      ⟨⟨⟨⟨_, _, _, rfl⟩, htask, hheld⟩, rfl, hnow⟩, fun _ ↦ trivial⟩
  · refine triple_transact_single ((backed_respected task).steady (densityRules_coherent site))
      fun s _ hbacked ↦ ⟨⟨.inl ⟨_, _, _, rfl, rfl, htask, hheld⟩, hbacked, ?_⟩, fun _ ↦ trivial⟩
    simpa using hpooled

theorem capacity_density (held : Lock → Bool) (id : Option ℕ) :
    (densityRules site).Keeps held (recalculateAllocationCapacity id) :=
  recalculateAllocationCapacity_keeps (densityRules_allows site _ (by decide))

theorem reserveTaskOnAllocation_density (held : Lock → Bool) (taskId allocationId : ℕ) :
    (densityRules site).Keeps held (reserveTaskOnAllocation site taskId allocationId) := by
  have hcoherent := densityRules_coherent site
  have hallows := densityRules_allows site [.license] (by decide)
  refine ensures_locked fun _ ↦ ?_
  have hlock : Function.update held Lock.assignment true .assignment = true :=
    Function.update_self ..
  -- the row that is read under the lock stays, and its backend with it
  have hfound : ∀ found : Option Task, (densityRules site).Respected
      fun s ↦ ∀ task, found = some task → Backed s task :=
    fun _ _ _ h hs task htask ↦ (hs task htask).later h
  have hread : (densityRules site).Triple (Function.update held .assignment true) (fun _ ↦ True)
      (read (·.task? taskId) : Action (Option Task))
      fun found s ↦ ∀ task, found = some task → Backed s task := by
    refine (triple_read fun _ _ _ _ ↦ trivial).mono (fun _ h ↦ h) fun found s h task htask ↦ ?_
    have hrow := h.1.symm.trans htask
    exact ⟨task, (mem_of_task? hrow).2 ▸ hrow, rfl⟩
  refine (triple_bind hread fun found ↦ triple_bind ((keeps_read.frame hcoherent (hfound found)))
    fun allocation ↦ ?_).ensures
  split
  · rename_i task allocation
    refine triple_ite (fun _ ↦ triple_pure fun _ _ ↦ trivial) fun hqueued ↦ ?_
    have htask : task.status = .queued := by simpa using hqueued
    refine triple_bind (reservationAdmitted_keeps.frame hcoherent (hfound _)) fun admitted ↦
      triple_ite (fun _ ↦ triple_pure fun _ _ ↦ trivial) fun _ ↦ triple_bind triple_query fun token ↦ ?_
    refine triple_bind ((claimTask_density hlock htask).mono (fun _ h ↦ h task rfl)
      fun _ _ h ↦ h) fun claimed ↦ triple_ite (fun _ ↦ triple_pure fun _ _ ↦ trivial) fun _ s _ ↦ ?_
    exact ensures_bind (recordLicenseClaim_keeps hallows hlock) (fun _ _ ↦
      ensures_bind (capacity_density _ _) fun _ _ ↦ ensures_pure trivial) s
  · exact triple_pure fun _ _ ↦ trivial

theorem densityRules_governs (site : Site) : (densityRules site).Governs (system site) :=
  (Pieces.of_reserve (densityRules_coherent site) (fun _ _ ↦ trivial) (densityRules_allows site)
    reserveTaskOnAllocation_density).governs (fun _ _ ↦ trivial) fun _ _ _ ↦ trivial

theorem isPooled_congr {t u : Task} (h : t.aedtBackend = u.aedtBackend) :
    site.svc.isPooled t.toTask = site.svc.isPooled u.toTask := by
  simp only [Pool.Service.isPooled, h]

/-- A pooled row leaves the queue for an allocation by the statement that has found its
reservation. -/
theorem claimed_step {w : Write} {t t' : Task} (hfoot : Footprint site held w)
    (hclaims : Claims site s w) (ht : t ∈ s.tasks) (hpooled : site.svc.isPooled t.toTask = true)
    (hqueued : t.status = .queued) (hstep : TaskStep s t t' w) (hattaching : t'.status = .attaching) :
    ∃ seen claim account token, w = .updatePooledTaskIfReservedCapacity seen claim
        (.claim claim.allocationId account token) ∧
      s.reservedCapacity claim t = true ∧ t'.allocationId = claim.allocationId ∧
      claim.now ≤ s.clock := by
  cases hstep with
  | same _ h => rw [h, hqueued] at hattaching; cases hattaching
  | key seen c _ h =>
      rw [h] at hattaching
      obtain ⟨-, hunguarded⟩ := hfoot
      cases c <;> first | (cases hunguarded; done) | cases hattaching
  | status seen expected c hid _ h =>
      rw [h] at hattaching
      rcases hfoot with ⟨aid, account, token, rfl, -, -, -⟩ | ⟨message, rfl, -⟩ | ⟨rfl, -, -⟩
      · obtain ⟨⟨u, hu, hbackend⟩, hstandalone⟩ := hclaims
        rw [← hid, task?_of_mem ht, Option.some.injEq] at hu
        rw [← isPooled_congr hbackend, ← hu, hpooled] at hstandalone
        cases hstandalone
      · cases hattaching
      · cases hattaching
  | attempt seen token b c hclaim _ =>
      simp only [Task.attachClaim, Bool.and_eq_true, beq_iff_eq] at hclaim
      rw [hqueued] at hclaim
      cases hclaim.1.1.2
  | pooled seen claim c _ hcapacity h =>
      obtain ⟨⟨aid, account, token, rfl⟩, -, -⟩ := hfoot
      obtain ⟨rfl, hnow⟩ := hclaims
      exact ⟨seen, claim, account, token, rfl, hcapacity, by rw [h]; rfl, hnow⟩
  | pool w u hu h =>
      rw [h] at hattaching
      rcases hu.status with hsame | ⟨-, hcancelled⟩
      · have hstatus : u.status = .queued := hsame.trans hqueued
        rw [show u.status = .attaching from hattaching] at hstatus
        cases hstatus
      · rw [show u.status = .attaching from hattaching] at hcancelled
        cases hcancelled

variable {ι : Type} [DecidableEq ι]

theorem one_le_projectCpus (site : Site) (s : State) : 1 ≤ site.projectCpus s := by
  unfold Site.projectCpus Site.settingOr
  dsimp only
  split
  · decide
  · cases site.svc.int (s.pool.setting "aedt_pool_project_cpus" "") with
    | none => decide
    | some n => simp only [Option.map_some, Option.getD_some]; omega

/-- However many schedulers and pool services run, a pooled task begins to attach only by a claim
that has found its unexpired reservation on a session of exactly that allocation which takes work
and whose host has reported since the configured timeout, and no such claim puts more pooled tasks
on the allocation than its cores hold at the configured number for each.  The timeout, the clock
and the number are those that the claiming thread has read. -/
theorem pooled_claims_reserved (site : Site) (t₀ : Fleet ι)
    (ms : List (Move (ι × Call) Question Question.Answer)) :
    ∀ d ∈ (fleet ι site).decisions (.idle t₀) ms, ∀ t ∈ d.before.shared.tasks,
      site.svc.isPooled t.toTask = true → t.status = .queued →
      ∀ t' ∈ d.after.shared.tasks, t'.id = t.id → t'.status = .attaching →
      ∃ i seen claim change a t₁ t₂ t₃,
        d.write = (i, .updatePooledTaskIfReservedCapacity seen claim change) ∧
        t'.allocationId = claim.allocationId ∧
        (d.Seen t₁ ∧ d.Seen t₂ ∧ d.Seen t₃) ∧
        claim.heartbeatCutoff = t₂.shared.clock - site.heartbeatTimeout t₁.shared ∧
        claim.now = t₂.shared.clock ∧ t₂.shared.clock ≤ d.before.shared.clock ∧
        claim.projectCpus = site.projectCpus t₃.shared ∧
        Reserves d.before.shared claim t ∧
        d.before.shared.allocation? claim.allocationId = some a ∧
        d.after.shared.pooledTasks claim.allocationId ≤ a.totalCpus / site.projectCpus t₃.shared := by
  intro d hd t ht hpooled hqueued t' ht' hid hattaching
  have hgoverns : ((densityRules site).federation :
      Discipline (Fleet ι) (ι × Write) (ι × Lock) (ι × Call)).Governs (fleet ι site) :=
    (densityRules_governs site).federation (densityRules_public site) fun _ _ ↦ rfl
  have hidle : Discipline.Safe (densityRules site).federation
      ({ state := t₀ } : Config (Fleet ι) (ι × Write) (ι × Lock) (ι × Call) Question
        Question.Answer) := .idle fun _ ↦ trivial
  obtain ⟨-, hfoot, hclaims⟩ := (hgoverns.run hidle ms fun _ _ ↦ trivial).1 _ (System.mem_trace hd)
  have hgrounds := Watch.Founded.all (system_founded site).federation (.idle t₀) ms d hd
  obtain ⟨⟨⟨⟨before, ⟨i, w⟩⟩, held⟩, looks⟩, rfl⟩ : ∃ d', d = d' := ⟨d, rfl⟩
  have hstep : TaskStep (before.view i) t t' w := taskStep_of_mem ht ht' hid
  obtain ⟨seen, claim, account, token, rfl, hcapacity, hallocation, hnow⟩ :=
    claimed_step hfoot hclaims ht hpooled hqueued hstep hattaching
  obtain ⟨-, -, -, ⟨t₁, ht₁, _, rfl⟩, ⟨t₂, ht₂, _, rfl⟩, ⟨t₃, ht₃, _, rfl⟩, hcutoff, hclock,
    hcpus⟩ := hgrounds
  obtain ⟨a, ha, hcount⟩ := pooledTasks_claimed hcapacity
  rw [hcpus, max_eq_right (one_le_projectCpus site _)] at hcount
  exact ⟨i, seen, claim, _, a, t₁, t₂, t₃, rfl, hallocation, ⟨ht₁, ht₂, ht₃⟩, hcutoff, hclock,
    hclock ▸ hnow, hcpus, reserves_of_reservedCapacity hcapacity, ha, hcount⟩

/-- A queued pooled task with a reservation, and the allocation whose cores hold one of its kind. -/
def reservedState : State where
  allocations := Table.empty.insert fun id ↦
    { id, accountName := "alpha", slurmJobId := "77", state := .warm, totalCpus := 4, freeCpus := 4 }
  tasks := Table.empty.insert fun id ↦
    { id, aedtBackend := "pooled", requestedAllocationId := 1, cpus := 4, memoryMb := 0 }
  pool :=
    { sessions := Table.empty.insert fun id ↦
        { id, sessionKey := "host", allocationId := 1, state := .ready, lastHeartbeatAt := some 900 }
      reservations := Table.empty.insert fun id ↦
        { id, reservationKey := "task", taskId := 1, sessionId := 1, sessionGeneration := 1
          expiresAt := 1600 }
      settings := [("aedt_pool_session_heartbeat_timeout_seconds", "120")] }
  clock := 1000

def twoSchedulers : Fleet Bool := ⟨reservedState, fun _ ↦ { started := true }⟩

def claimMoves : List (Move (Bool × Call) Question Question.Answer) :=
  let calls : List (Move (Bool × Call) Question Question.Answer) :=
    [.call (true, .tick), .call (false, .tick)]
  let tried := (fleet Bool sampleSite).turns workerAnswers [(1, 5), (0, 28)]
    ((fleet Bool sampleSite).after { state := twoSchedulers } calls)
  calls ++ tried ++
    (fleet Bool sampleSite).turns (Function.update workerAnswers .decision true) [(0, 10)]
      ((fleet Bool sampleSite).after { state := twoSchedulers } (calls ++ tried))

/-- The one place of the allocation is taken, two minutes after the last heartbeat at most. -/
theorem pooled_claims_reserved_tick :
    ∃ d ∈ (fleet Bool sampleSite).decisions (.idle twoSchedulers) claimMoves,
      ∃ t ∈ d.before.shared.tasks, ∃ claim t₁ t₂, d.Seen t₁ ∧ d.Seen t₂ ∧
        claim.heartbeatCutoff = t₂.shared.clock - sampleSite.heartbeatTimeout t₁.shared ∧
        Reserves d.before.shared claim t ∧
        d.before.shared.pooledTasks 1 = 0 ∧ d.after.shared.pooledTasks 1 = 1 := by
  obtain ⟨d, hd, t, ht, hpooled, hqueued, t', ht', hid, hattaching, hbefore, hafter⟩ :
      ∃ d ∈ (fleet Bool sampleSite).decisions (.idle twoSchedulers) claimMoves,
        ∃ t ∈ d.before.shared.tasks, sampleSite.svc.isPooled t.toTask = true ∧
          t.status = .queued ∧ ∃ t' ∈ d.after.shared.tasks, t'.id = t.id ∧
            t'.status = .attaching ∧ d.before.shared.pooledTasks 1 = 0 ∧
              d.after.shared.pooledTasks 1 = 1 := by
    decide +kernel
  obtain ⟨-, -, claim, -, -, t₁, t₂, -, -, -, ⟨ht₁, ht₂, -⟩, hcutoff, -, -, -, hreserves, -, -⟩ :=
    pooled_claims_reserved sampleSite twoSchedulers claimMoves d hd t ht hpooled hqueued
      t' ht' hid hattaching
  exact ⟨d, hd, t, ht, claim, t₁, t₂, ht₁, ht₂, hcutoff, hreserves, hbefore, hafter⟩

end SlurmScheduler.Dispatch
