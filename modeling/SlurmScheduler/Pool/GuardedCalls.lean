import SlurmScheduler.Pool.Guards

namespace SlurmScheduler.Pool

open Relational PoolTx

theorem find?_leaseId {db : Db} {l : Lease} (hl : l ∈ db.leases) :
    db.leases.find? l.id = some l := Table.find?_key hl

def DistinctLeases (ls : List Lease) : Prop := ls.Pairwise fun a b ↦ a.id ≠ b.id

def DistinctSessions (ss : List Session) : Prop := ss.Pairwise fun a b ↦ a.id ≠ b.id

theorem distinctLeases_of_nodup {db : Db} {ls : List Lease} (hls : ls.Nodup)
    (hmem : ∀ l ∈ ls, l ∈ db.leases) : DistinctLeases ls :=
  hls.imp_of_mem fun ha hb hne hid ↦ hne (Table.eq_of_key_eq (hmem _ ha) (hmem _ hb) hid)

theorem distinctSessions_of_nodup {db : Db} {ss : List Session} (hss : ss.Nodup)
    (hmem : ∀ s ∈ ss, s ∈ db.sessions) : DistinctSessions ss :=
  hss.imp_of_mem fun ha hb hne hid ↦ hne (Table.eq_of_key_eq (hmem _ ha) (hmem _ hb) hid)

theorem select_leases (db : Db) (p : Lease → Bool) :
    (∀ l ∈ db.leases.select p, l ∈ db.leases) ∧ DistinctLeases (db.leases.select p) := by
  have hmem : ∀ l ∈ db.leases.select p, l ∈ db.leases := fun l hl ↦ (Table.mem_select.mp hl).1
  exact ⟨hmem, distinctLeases_of_nodup (db.leases.nodup_rows.filter _) hmem⟩

theorem select_sessions (db : Db) (p : Session → Bool) :
    (∀ s ∈ db.sessions.select p, s ∈ db.sessions) ∧ DistinctSessions (db.sessions.select p) := by
  have hmem : ∀ s ∈ db.sessions.select p, s ∈ db.sessions := fun s hs ↦ (Table.mem_select.mp hs).1
  exact ⟨hmem, distinctSessions_of_nodup (db.sessions.nodup_rows.filter _) hmem⟩

def Pending (ls : List Lease) (db : Db) : Prop := DistinctLeases ls ∧ ∀ l ∈ ls, l ∈ db.leases

theorem Pending.tail {l : Lease} {ls : List Lease} {db db' : Db} (h : Pending (l :: ls) db)
    (hdb : ∀ x ∈ db.leases, x.id ≠ l.id → x ∈ db'.leases) : Pending ls db' := by
  refine ⟨(List.pairwise_cons.mp h.1).2, fun x hx ↦ ?_⟩
  exact hdb x (h.2 x (List.mem_cons_of_mem l hx)) fun hid ↦
    (List.pairwise_cons.mp h.1).1 x hx hid.symm

theorem Pending.head {l : Lease} {ls : List Lease} {db : Db} (h : Pending (l :: ls) db) :
    l ∈ db.leases := h.2 l List.mem_cons_self

theorem placementBatch_pending (db : Db) (cfg : AedtPoolConfig) (now : Time)
    (leaseIds : Option (List ℕ)) : Pending (db.placementBatch cfg now leaseIds) db := by
  have hrows := select_leases db fun l ↦ l.state == .queued &&
    (decide (l.protocolVersion < 2) || decide (now - cfg.queuedStaleSeconds ≤ l.lastHeartbeatAt))
  unfold Db.placementBatch
  dsimp only
  generalize db.leases.select _ = ready at hrows ⊢
  cases leaseIds with
  | some ids =>
      dsimp only
      refine ⟨(hrows.2.filter _).sublist (List.take_sublist _ _), fun l hl ↦ hrows.1 l ?_⟩
      exact List.mem_of_mem_filter (List.mem_of_mem_take hl)
  | none =>
      dsimp only
      refine ⟨List.Pairwise.sublist (List.take_sublist _ _) ?_, fun l hl ↦ hrows.1 l ?_⟩
      · refine List.pairwise_append.mpr ⟨hrows.2.filter _, hrows.2.filter _, fun a ha b hb hid ↦ ?_⟩
        have h₁ := (List.mem_filter.mp ha).2
        have h₂ := (List.mem_filter.mp hb).2
        simp only [decide_eq_true_eq] at h₁ h₂
        omega
      · rcases List.mem_append.mp (List.mem_of_mem_take hl) with h | h <;>
          exact List.mem_of_mem_filter h

theorem place_leases (l : Lease) (sid slot : ℕ) (offerExpires now : Time) (db : Db) {x : Lease}
    (hx : x ∈ db.leases) (hid : x.id ≠ l.id) :
    x ∈ (place l sid slot offerExpires now db).leases := by
  have hkeep : x ∈ (db.leases.update (fun x ↦ x.id == l.id && x.state == .queued)
      (Lease.seated sid slot l.offerState offerExpires now) fun _ ↦ rfl) :=
    Table.mem_update.mpr ⟨x, hx, if_neg (by simp [hid])⟩
  unfold place seatLease refreshSession Db.onSessions consumeReservation
  dsimp only
  split <;> split <;> exact hkeep

theorem placeLease_guarded (cfg : AedtPoolConfig) (now clock : Time) (l : Lease)
    (rest : List Lease) (db : Db) (hdb : Pending (l :: rest) db) :
    Tx.wp Guard (placeLease cfg now clock l) (fun _ db' ↦ Pending rest db') db := by
  have hkeep : Pending rest db := hdb.tail fun x hx _ ↦ hx
  simp only [placeLease, Tx.wp_bind, wp_read, Tx.wp_ite, Tx.wp_pure]
  refine ⟨fun _ ↦ hkeep, fun _ ↦ ?_⟩
  split
  · exact Tx.wp_pure.mpr hkeep
  · rename_i s hs
    have haccepts := List.find?_some hs
    have hmem := List.mem_of_find?_eq_some hs
    simp only [Db.placementSessions, List.mem_insertionSort, Table.mem_select, Bool.and_eq_true,
      Db.openForPlacement, Bool.or_eq_true, beq_iff_eq, Option.isNone_iff_eq_none,
      bne_iff_ne, ne_eq, Bool.not_eq_true'] at hmem
    obtain ⟨hmem, ⟨⟨⟨⟨⟨⟨⟨⟨⟨hassign, -⟩, hunsealed⟩, hunblocked⟩, -⟩, -⟩, -⟩, hrequested⟩, hcanary⟩,
      huncontended⟩, -⟩ := hmem
    simp only [Tx.wp_bind, wp_read, wp_require, Tx.wp_ite, Tx.wp_require, wp_write, Tx.wp_pure]
    refine fun slot hslot ↦ ⟨fun hqueued _ ↦ ⟨⟨hdb.head, ?_, s, hmem, rfl, ?_, hslot⟩, ?_⟩,
      fun _ ↦ hkeep⟩
    · simpa [find?_leaseId hdb.head] using hqueued
    · exact ⟨hassign, hunsealed, hunblocked, hrequested.imp_right (·.1), hcanary, huncontended,
        haccepts⟩
    · exact hdb.tail fun x hx hid ↦ place_leases l s.id slot _ now db hx hid

theorem placeQueuedLeases_guarded (cfg : AedtPoolConfig) (now clock : Time)
    (leaseIds : Option (List ℕ)) (refreshReservations : Bool) :
    Tx.Guarded Guard (placeQueuedLeases cfg now clock leaseIds refreshReservations) := by
  have hloop : Tx.Guarded Guard (do
      let queued ← read (·.placementBatch cfg now leaseIds)
      if leaseIds.isNone then
        write (.advanceCursor ((queued.getLast?.map (·.id)).getD 0))
      Tx.forEach queued (placeLease cfg now clock)) := by
    intro s
    have hbatch := placementBatch_pending s cfg now leaseIds
    simp only [Tx.wp_bind, wp_read, wp_write, Tx.wp_ite]
    have hrun : ∀ s', s'.leases = s.leases →
        Tx.wp Guard (Tx.forEach (s.placementBatch cfg now leaseIds) (placeLease cfg now clock))
          (fun _ _ ↦ True) s' := by
      intro s' hs'
      refine Tx.wp_mono (Tx.wp_forEach_suffix (I := Pending) (fun l rest s h ↦
        placeLease_guarded cfg now clock l rest s h) ?_) fun _ _ _ ↦ trivial
      exact ⟨hbatch.1, fun l hl ↦ hs' ▸ hbatch.2 l hl⟩
    exact ⟨fun _ ↦ ⟨trivial, hrun _ rfl⟩, fun _ ↦ hrun s rfl⟩
  intro db
  unfold Tx.Guarded at hloop
  simp only [placeQueuedLeases, Tx.wp_bind, Tx.wp_ite, Tx.wp_pure]
  refine ⟨fun _ ↦ trivial, fun _ ↦ Tx.wp_mono (refreshMixedCanaryAdmissions_guarded now db)
    fun _ s _ ↦ ?_⟩
  simp only [Tx.wp_bind, Tx.wp_ite] at hloop
  refine ⟨fun _ ↦ ?_, fun _ ↦ hloop s⟩
  exact Tx.wp_mono (refreshExactSessionReservations_guarded now s) fun _ s _ ↦ hloop s

theorem nextWave_length (svc : Service) (occupants : List Lease) :
    (nextWave svc occupants).length ≤ 1 := by
  unfold nextWave
  split
  · simp
  · simp [parallelSafeNativeSolveFamilies]

theorem grantSolveBatchIfReady_guarded (svc : Service) (sid : ℕ) (now : Time)
    (allowUnderfilled : Bool) :
    Tx.Guarded Guard (grantSolveBatchIfReady svc sid now allowUnderfilled) := by
  intro db
  simp only [grantSolveBatchIfReady, Tx.wp_bind, Tx.wp_ite, Tx.wp_pure, wp_read]
  refine ⟨fun _ ↦ trivial, fun _ ↦ Tx.wp_mono (refreshMixedCanaryAdmissions_guarded now db)
    fun _ s _ ↦ Tx.wp_mono (refreshExactSessionReservations_guarded now s) fun _ s _ ↦ ?_⟩
  split
  · exact Tx.wp_pure.mpr trivial
  · rename_i x hx
    obtain ⟨hfind, hassign⟩ := Option.filter_eq_some_iff.mp hx
    obtain ⟨hmem, rfl⟩ := find?_session hfind
    have hlength : ((nextWave svc (s.occupants x.id)).map (·.id)).length ≤ 1 := by
      rw [List.length_map]
      exact nextWave_length svc _
    simp only [Tx.wp_bind, Tx.wp_ite, Tx.wp_pure, wp_read, wp_write]
    refine ⟨fun hunsealed ↦ ⟨fun hready ↦ ⟨⟨x, hmem, rfl, hassign, hlength, .inl ⟨?_, _, hready⟩⟩,
      trivial⟩, fun _ ↦ trivial⟩, fun hsealed ↦ ⟨fun _ ↦ trivial, fun hgranted ↦
      ⟨fun _ ↦ ⟨trivial, trivial⟩, fun hattested ↦ ⟨fun _ ↦ ⟨⟨x, hmem, rfl, hassign, hlength,
        .inr ⟨?_, ?_, ?_⟩⟩, trivial⟩, fun _ ↦ trivial⟩⟩⟩⟩
    · simpa using hunsealed
    · simpa [Option.isSome_iff_ne_none] using hsealed
    · simp only [Bool.or_eq_true, not_or, List.isEmpty_iff] at hgranted
      exact hgranted.1
    · simpa using hattested

theorem authorizeLease_mem {svc : Service} {db : Db} {leaseId : ℕ} {token : String} {l : Lease}
    (h : svc.authorizeLease db leaseId token = .ok l) : l ∈ db.leases ∧ l.id = leaseId := by
  unfold Service.authorizeLease at h
  split at h
  · cases h
  · rename_i x hx
    split at h
    · cases h
      exact find?_lease hx
    · cases h

theorem resolveAffinity_guarded {svc : Service} {taskId allocationId : ℕ} {nodeName : String}
    {db : Db} : Tx.wp Guard (resolveAffinity svc taskId allocationId nodeName)
      (fun _ db' ↦ db' = db) db := by
  simp only [resolveAffinity, Tx.wp_bind, wp_read, Tx.wp_ite, Tx.wp_pure, implies_true, true_and]
  intro _
  split <;> simp

theorem authorizeExactSessionReservation_guarded {taskId requestedSessionId : ℕ}
    {profile family : String} {policy : IsolationPolicy} {requestKey tokenHash : String}
    {now cutoff : Time} {db : Db} :
    Tx.wp Guard (authorizeExactSessionReservation taskId requestedSessionId profile family policy
      requestKey tokenHash now cutoff)
      (fun r db' ↦ db' = db ∧ ∀ x, r = some x → x ∈ db.reservations ∧ x.taskId = taskId) db := by
  simp only [authorizeExactSessionReservation, Tx.wp_bind, wp_check, wp_read, Tx.wp_ite,
    Tx.wp_pure]
  refine ⟨fun _ _ ↦ ⟨trivial, by simp⟩, fun _ ↦ ?_⟩
  split
  · simp
  · rename_i r hr
    have hmem : r ∈ db.reservations ∧ r.taskId = taskId := by
      have hlast := Table.mem_select.mp (List.mem_of_mem_getLast? hr)
      exact ⟨hlast.1, by simpa using hlast.2⟩
    have hpost : True ∧ ∀ x, some r = some x → x ∈ db.reservations ∧ x.taskId = taskId :=
      ⟨trivial, fun x hx ↦ Option.some.inj hx ▸ hmem⟩
    simp only [Tx.wp_bind, wp_check, wp_read, wp_require, Tx.wp_ite, Tx.wp_pure]
    exact fun _ _ _ ↦ ⟨fun _ ↦ hpost, fun _ _ _ _ _ _ _ _ _ _ _ ↦ hpost⟩

/-- Superseding an old lease touches no reservation and no canary. -/
theorem supersede_guarded {requestKey : String} {old : Lease} {now : Time} {db : Db}
    (hold : old ∈ db.leases) :
    Tx.wp Guard (supersede requestKey old now) (fun _ db' ↦ db'.reservations = db.reservations ∧
      db'.canarySlots = db.canarySlots ∧ db'.admissions = db.admissions) db := by
  simp only [supersede, Tx.wp_bind, wp_read, wp_check, Tx.wp_require, Tx.wp_ite, wp_write]
  refine fun hreplace _ ↦ ⟨fun _ ↦ ⟨trivial, rfl, rfl, rfl⟩, fun hlive ↦ ⟨⟨old, hold, rfl, rfl, ?_⟩, ?_⟩⟩
  · simp only [Db.replaceable, Bool.or_eq_true, Bool.and_eq_true, beq_iff_eq] at hreplace
    rcases hreplace with (hterm | ⟨hq, -⟩) | ⟨ho, -⟩
    · exact absurd hterm hlive
    · exact .inl hq
    · exact .inr ho
  · simp only [Write.exec, supersedeLease]
    obtain ⟨sessions, hframe⟩ := refreshSessions_frame old.sessionId.toList now
      (db.onLeases (·.id == old.id) fun l ↦
        { l with
          requestKey := requestKey ++ "#superseded:" ++ toString old.id, state := .expired
          sessionId := none, slotIndex := none
          failureMessage := "durable request was abandoned and replayed"
          finishedAt := some now, updatedAt := now })
    rw [hframe]
    exact ⟨rfl, rfl, rfl⟩

theorem createLease_guarded {q : LeaseRequest} {reservation : Option Reservation}
    {canary : Option (CanarySlot × Admission)} {now : Time} {db : Db}
    (hr : ∀ r, reservation = some r → r ∈ db.reservations ∧ r.taskId = q.taskId)
    (hc : ∀ c, canary = some c → c.1 ∈ db.canarySlots ∧ c.2 ∈ db.admissions ∧
      c.1.admissionId = c.2.id ∧ c.2.state.pending = true)
    (hone : reservation = none ∨ canary = none)
    (hexclusive : q.isolationPolicy = .exclusive → q.exclusiveSession = true) :
    Tx.wp Guard (createLease q reservation canary now) (fun _ _ ↦ True) db := by
  simp only [createLease, Tx.wp_bind, wp_read, wp_check, wp_write, Tx.wp_pure]
  refine fun _ hclaim hslot ↦ ⟨⟨fun r hr' ↦ ?_, fun c hc' ↦ ?_, hone, hexclusive⟩, trivial⟩
  · subst hr'
    simp only [Option.all_some, List.any_eq_true, Bool.and_eq_true, beq_iff_eq,
      Option.isNone_iff_eq_none] at hclaim
    obtain ⟨x, hx, ⟨hid, hstate⟩, hlease⟩ := hclaim
    have hxr : x = r := Table.eq_of_key_eq hx (hr r rfl).1 hid
    exact ⟨(hr r rfl).1, hxr ▸ hstate, hxr ▸ hlease, (hr r rfl).2⟩
  · subst hc'
    simp only [Option.all_some, List.any_eq_true, Bool.and_eq_true, beq_iff_eq,
      Option.isNone_iff_eq_none] at hslot
    obtain ⟨x, hx, hid, hlease⟩ := hslot
    obtain ⟨hmem, hadm, hown, hpending⟩ := hc c rfl
    have hxc : x = c.1 := Table.eq_of_key_eq hx hmem hid
    exact ⟨hmem, hxc ▸ hlease, hadm, hown, hpending⟩

theorem admitOrReplay_guarded {q : LeaseRequest} {reservation : Option Reservation}
    {canary : Option (CanarySlot × Admission)} {now : Time} {db : Db}
    (hr : ∀ r, reservation = some r → r ∈ db.reservations ∧ r.taskId = q.taskId)
    (hc : ∀ c, canary = some c → c.1 ∈ db.canarySlots ∧ c.2 ∈ db.admissions ∧
      c.1.admissionId = c.2.id ∧ c.2.state.pending = true)
    (hone : reservation = none ∨ canary = none)
    (hexclusive : q.isolationPolicy = .exclusive → q.exclusiveSession = true) :
    Tx.wp Guard (admitOrReplay q reservation canary now) (fun _ _ ↦ True) db := by
  simp only [admitOrReplay, Tx.wp_bind, wp_read]
  split
  · simp
  · split
    · rename_i old hold
      rw [Tx.wp_bind]
      refine Tx.wp_mono (supersede_guarded (List.mem_of_find?_eq_some hold)) fun _ s hs ↦ ?_
      obtain ⟨hres, hslots, hadm⟩ := hs
      refine createLease_guarded (fun r h ↦ hres ▸ hr r h) (fun c h ↦ ?_) hone hexclusive
      rw [hslots, hadm]
      exact hc c h
    · exact createLease_guarded hr hc hone hexclusive

theorem authorizeCanary_guarded {required reserved : Bool} {taskId : ℕ}
    {requestKey tokenHash family projectNamespace profile : String} {protocolVersion : ℕ}
    {now : Time} {db : Db} :
    Tx.wp Guard (authorizeCanary required reserved taskId requestKey tokenHash family
      projectNamespace profile protocolVersion now) (fun canary db' ↦ db' = db ∧
        (reserved = false ∨ canary = none) ∧
        ∀ c, canary = some c → c.1 ∈ db.canarySlots ∧ c.2 ∈ db.admissions ∧
          c.1.admissionId = c.2.id ∧ c.2.state.pending = true) db := by
  simp only [authorizeCanary, Tx.wp_bind, wp_check, Tx.wp_ite, Tx.wp_pure]
  refine ⟨fun _ ↦ ⟨trivial, .inr trivial, by simp⟩, fun _ ↦ ?_⟩
  refine Tx.wp_mono authorizeMixedCanaryLease_guarded fun c s hs hfree ↦ ⟨hs.1, .inl ?_, ?_⟩
  · simpa using hfree
  · rintro _ ⟨⟩
    exact hs.2

theorem requestLease_guarded (svc : Service) (env : Env) (args : LeaseArgs) :
    Tx.Guarded Guard (svc.requestLease env args) := by
  intro db
  simp only [Service.requestLease, Tx.wp_bind, wp_check, wp_require, wp_lift, wp_read, Tx.wp_ite,
    implies_true, and_true]
  intro _ _ _ _ _ _ profile _ policy _ _ _ _ _
  refine Tx.wp_mono (refreshMixedCanaryAdmissions_guarded env.now db) fun _ s _ ↦ ?_
  refine Tx.wp_mono (refreshExactSessionReservations_guarded env.now s) fun _ s _ ↦ ?_
  refine Tx.wp_mono resolveAffinity_guarded fun _ s' hs' ↦ ?_
  subst hs'
  refine Tx.wp_mono authorizeExactSessionReservation_guarded fun r s' hs' ↦ ?_
  obtain ⟨rfl, hr⟩ := hs'
  refine Tx.wp_mono authorizeCanary_guarded fun c s' hs' ↦ ?_
  obtain ⟨rfl, hone, hc⟩ := hs'
  refine Tx.wp_mono (admitOrReplay_guarded hr hc ?_ (by simp_all)) fun leaseId s _ ↦ fun _ ↦
    placeQueuedLeases_guarded _ _ _ _ _ s
  exact hone.imp_left (by simp)

theorem heartbeatLease_guarded (svc : Service) (env : Env) (leaseId : ℕ) (token phase : String) :
    Tx.Guarded Guard (svc.heartbeatLease env leaseId token phase) := by
  intro db
  simp only [Service.heartbeatLease, getLease, Tx.wp_bind, wp_check, wp_lift, wp_read, wp_write,
    wp_require, Tx.wp_ite, Tx.wp_pure, implies_true, true_and, and_true]
  exact fun _ _ _ _ _ _ _ _ ↦ ⟨trivial, fun _ ↦ placeQueuedLeases_guarded _ _ _ _ _ _⟩

theorem acceptLease_guarded (svc : Service) (env : Env) (leaseId : ℕ) (token : String) :
    Tx.Guarded Guard (svc.acceptLease env leaseId token) := by
  intro db
  simp only [Service.acceptLease, getLease, Tx.wp_bind, wp_check, wp_lift, wp_read, wp_write,
    wp_require, Tx.wp_require, Tx.wp_ite, Tx.wp_pure, implies_true, true_and, and_true]
  intro l hl _ _ hoffered
  have hmem := (authorizeLease_mem hl).1
  have hstate : l.state = .offered := by simpa using hoffered
  exact ⟨fun _ ↦ ⟨hmem, hstate, rfl⟩, fun _ ↦ ⟨fun _ _ ↦ ⟨hmem, hstate⟩, fun _ ↦ trivial⟩⟩

theorem activateLease_guarded (svc : Service) (env : Env) (leaseId : ℕ) (token : String) :
    Tx.Guarded Guard (svc.activateLease env leaseId token) := by
  intro db
  simp only [Service.activateLease, getLease, Tx.wp_bind, wp_check, wp_lift, wp_read, wp_write,
    wp_require, Tx.wp_ite, implies_true, true_and]
  refine fun l _ _ hstate _ ↦ ⟨?_, ?_⟩
  · have hstate : l.state = if l.protocolVersion < 2 then .leased else .attaching := by
      simpa using hstate
    rw [hstate]
    split
    · exact .inl rfl
    · exact .inr rfl
  · exact (grantSolveBatchIfReady_guarded svc _ env.now false).wp (by simp)

theorem requestSolvePermit_guarded (svc : Service) (env : Env) (leaseId : ℕ) (token : String)
    (sealUnderfilled : Bool) :
    Tx.Guarded Guard (svc.requestSolvePermit env leaseId token sealUnderfilled) := by
  intro db
  simp only [Service.requestSolvePermit, getLease, Tx.wp_bind, wp_check, wp_lift, wp_read,
    wp_write, wp_require, implies_true]
  exact fun l _ _ ↦ ⟨trivial, (grantSolveBatchIfReady_guarded svc _ env.now sealUnderfilled).wp
    (by simp)⟩

theorem completeNativePipeline_guarded (svc : Service) (env : Env) (leaseId : ℕ) (token : String)
    (generation : ℕ) : Tx.Guarded Guard (svc.completeNativePipeline env leaseId token generation) := by
  intro db
  simp only [Service.completeNativePipeline, getLease, Tx.wp_bind, wp_check, wp_lift, wp_read,
    wp_write, wp_require, implies_true, and_true]
  exact fun _ _ _ _ _ _ _ _ ↦ trivial

theorem bindLeaseProjectName_guarded (svc : Service) (env : Env) (leaseId : ℕ)
    (token projectName : String) :
    Tx.Guarded Guard (svc.bindLeaseProjectName env leaseId token projectName) := by
  intro db
  simp only [Service.bindLeaseProjectName, getLease, Tx.wp_bind, wp_check, wp_lift, wp_read,
    wp_write, wp_require, implies_true, and_true]
  exact fun _ _ _ _ _ ↦ trivial

theorem cancelLease_guarded (svc : Service) (env : Env) (leaseId : ℕ) (token reason : String) :
    Tx.Guarded Guard (svc.cancelLease env leaseId token reason) := by
  intro db
  simp only [Service.cancelLease, getLease, Tx.wp_bind, wp_lift, wp_read, wp_write, wp_require,
    Tx.wp_ite, implies_true, and_true]
  intro l hl hlive
  obtain ⟨hmem, hid⟩ := authorizeLease_mem hl
  refine ⟨fun howner ↦ ⟨l, hmem, hid, rfl, ?_⟩, fun howner ↦ ⟨l, hmem, hid, rfl, ?_, fun hown ↦ ?_⟩⟩
  · simp only [Bool.and_eq_true, Bool.or_eq_true, beq_iff_eq] at howner
    exact howner.1.symm.imp_left (·.1)
  · simpa [LeaseState.terminal_eq_false] using hlive
  · simpa [hown] using howner

theorem reportProjectFault_guarded (svc : Service) (env : Env) (leaseId : ℕ) (token : String)
    (fault : ProjectFault) {m : PoolTx Unit}
    (hm : m ∈ svc.reportProjectFault env leaseId token fault) : Tx.Guarded Guard m := by
  have hwrite : ∀ w, (∀ db, Guard db w) → Tx.Guarded Guard (write w) :=
    fun w hw db ↦ wp_write.mpr ⟨hw db, trivial⟩
  have hcancel : ∀ reason, Tx.Guarded Guard (do
      let _ ← svc.cancelLease env leaseId token reason) := by
    intro reason db
    simp only [Tx.wp_bind, Tx.wp_pure]
    exact cancelLease_guarded svc env leaseId token reason db
  unfold Service.reportProjectFault at hm
  dsimp only at hm
  split at hm
  · split at hm
    · simp only [List.mem_cons, List.not_mem_nil, or_false] at hm
      rcases hm with rfl | rfl | rfl
      · exact hwrite _ fun _ ↦ trivial
      · exact hwrite _ fun _ ↦ trivial
      · exact hcancel _
    · split at hm
      · simp only [List.mem_cons, List.not_mem_nil, or_false] at hm
        exact hm ▸ hwrite _ fun _ ↦ trivial
      · simp only [List.mem_cons, List.not_mem_nil, or_false] at hm
        rcases hm with rfl | rfl <;> exact hwrite _ fun _ ↦ trivial
    · simp only [List.mem_cons, List.not_mem_nil, or_false] at hm
      rcases hm with rfl | rfl <;> exact hwrite _ fun _ ↦ trivial
    · split at hm <;>
      · simp only [List.mem_cons, List.not_mem_nil, or_false] at hm
        rcases hm with rfl | rfl
        · exact hwrite _ fun _ ↦ trivial
        · exact hcancel _
  · cases hm

theorem authorizeSession_mem {svc : Service} {db : Db} {sid : ℕ} {token : String} {s : Session}
    (h : svc.authorizeSession db sid token = .ok s) :
    s ∈ db.sessions ∧ s.id = sid ∧ s.hostTokenHash ≠ "" := by
  unfold Service.authorizeSession at h
  split at h
  · cases h
  · rename_i x hx
    split at h
    · rename_i htoken
      cases h
      obtain ⟨hmem, hid⟩ := find?_session hx
      simp only [Bool.and_eq_true, bne_iff_ne] at htoken
      exact ⟨hmem, hid, htoken.1⟩
    · cases h

theorem authorizeBootstrap_guarded {svc : Service} {token : String} {db : Db}
    {Q : Unit → Db → Prop} (hQ : Q () db) : Tx.wp Guard (svc.authorizeBootstrap token) Q db :=
  Tx.wp_require.mpr fun _ ↦ hQ

theorem claimStart_guarded (svc : Service) (env : Env) (q : StartClaim) :
    Tx.Guarded Guard (svc.claimStart env q) := by
  intro db
  simp only [Service.claimStart, Tx.wp_bind, wp_check, wp_read]
  refine authorizeBootstrap_guarded fun _ ↦ ?_
  split
  · simp
  · simp only [Tx.wp_bind, wp_check, wp_read, wp_require, wp_write, and_true]
    exact fun _ _ _ _ _ _ ↦ trivial

theorem registerSession_guarded (svc : Service) (env : Env) (q : RegistrationRequest) :
    Tx.Guarded Guard (svc.registerSession env q) := by
  intro db
  simp only [Service.registerSession, getSession, Tx.wp_bind, wp_check, wp_read, wp_lift,
    wp_require, wp_write, Tx.wp_ite, Tx.wp_pure, implies_true, and_true, true_and]
  refine authorizeBootstrap_guarded fun _ profile _ s hs _ _ hstart hclaim _ ↦ ?_
  obtain ⟨hmem, hid⟩ := find?_session hs
  have hguard : ∀ state : SessionState, (state = .ready ∨ state = .draining) →
      (state = .ready ∨ state = .draining) ∧ ∃ x ∈ db.sessions, x.id = s.id ∧
        (x.state = .starting ∨ (x.state = .unhealthy ∧ x.startedAt = none)) := by
    refine fun state hstate ↦ ⟨hstate, s, hmem, rfl, ?_⟩
    simp only [Bool.or_eq_true, beq_iff_eq, Session.startTimedOut, Bool.and_eq_true,
      Option.isNone_iff_eq_none] at hstart
    exact hstart.imp_right fun h ↦ ⟨h.1.1.1.2, h.1.2⟩
  refine ⟨hguard _ ?_, fun _ _ ↦ trivial⟩
  split
  · exact .inl rfl
  · exact .inr rfl

theorem failSessionStart_guarded (svc : Service) (env : Env) (sid : ℕ)
    (hostId bootstrapToken : String) (failure : StartFailure) :
    Tx.Guarded Guard (svc.failSessionStart env sid hostId bootstrapToken failure) := by
  intro db
  simp only [Service.failSessionStart, Tx.wp_bind, wp_check, wp_read, wp_write]
  exact authorizeBootstrap_guarded fun _ ↦ ⟨trivial, trivial⟩

theorem bindSessionHostTask_guarded (env : Env) (sid taskId : ℕ) :
    Tx.Guarded Guard (bindSessionHostTask env sid taskId) := by
  intro db
  simp only [bindSessionHostTask, Tx.wp_bind, wp_check, wp_read, wp_require, wp_write]
  exact fun _ _ _ _ _ _ ↦ ⟨trivial, trivial⟩

theorem validateSessionHeartbeat_guarded {svc : Service} {s : Session} {q : SessionHeartbeat}
    {db : Db} {Q : Unit → Db → Prop} (hQ : Q () db) :
    Tx.wp Guard (svc.validateSessionHeartbeat s q) Q db := by
  simp only [Service.validateSessionHeartbeat, Tx.wp_bind, wp_check]
  exact fun _ _ _ _ _ ↦ hQ

theorem clearReuseBarrier_token {sid : ℕ} {now : Time} {db : Db} {s : Session}
    (hs : s ∈ db.sessions) : ∃ s' ∈ (clearReuseBarrier sid now db).sessions, s'.id = s.id ∧
      s'.hostTokenHash = s.hostTokenHash := by
  refine ⟨_, Db.mem_onSessions.mpr ⟨s, hs, rfl⟩, ?_⟩
  split <;> exact ⟨rfl, rfl⟩

theorem heartbeatSession_guarded (svc : Service) (env : Env) (sid : ℕ) (token : String)
    (q : SessionHeartbeat) : Tx.Guarded Guard (svc.heartbeatSession env sid token q) := by
  intro db
  simp only [Service.heartbeatSession, Tx.wp_bind, wp_lift, wp_read, wp_write, Tx.wp_ite,
    Tx.wp_pure]
  refine fun candidate _ ↦ validateSessionHeartbeat_guarded ⟨fun _ ↦ trivial, fun _ s hs ↦
    validateSessionHeartbeat_guarded ?_⟩
  obtain ⟨hmem, rfl, htoken⟩ := authorizeSession_mem hs
  have hplace : ∀ db, Tx.wp Guard (placeQueuedLeases env.cfg env.now env.clock none true)
      (fun _ _ ↦ True) db := placeQueuedLeases_guarded _ _ _ _ _
  have hrecover : Guard db (.recoverSession s.id env.now) := ⟨s, hmem, rfl, htoken⟩
  have hcleared : Guard ((Write.clearReuseBarrier s.id env.now).exec db)
      (.recoverSession s.id env.now) := by
    obtain ⟨s', hmem', hid, htoken'⟩ := clearReuseBarrier_token hmem
    exact ⟨s', hmem', hid, htoken' ▸ htoken⟩
  have hfree : ∀ db, Guard db (.clearReuseBarrier s.id env.now) ∧
      Guard db (.touchSession s.id env.now) ∧ Guard db (.restoreAllocation s.allocationId env.now) :=
    fun _ ↦ ⟨trivial, trivial, trivial⟩
  simp only [hplace, hrecover, hcleared, hfree, implies_true, and_self]

theorem completeRelease_guarded (svc : Service) (env : Env) (sid : ℕ) (token : String)
    (leaseId : ℕ) (success : Bool) (failureMessage : String) :
    Tx.Guarded Guard (svc.completeRelease env sid token leaseId success failureMessage) := by
  intro db
  simp only [Service.completeRelease, Tx.wp_bind, wp_lift, wp_read, wp_write, wp_check, wp_require,
    Tx.wp_ite, implies_true, true_and]
  intro _ _ l hl hstate
  obtain ⟨hfind, hsession⟩ := Option.filter_eq_some_iff.mp hl
  obtain ⟨hmem, hid⟩ := find?_lease hfind
  refine ⟨⟨l, hmem, hid, by simpa using hsession, by simpa using hstate⟩, ?_⟩
  refine Tx.wp_mono (refreshExactSessionReservations_guarded env.now _) fun _ s _ ↦ ?_
  exact ⟨fun _ ↦ placeQueuedLeases_guarded _ _ _ _ _ s, fun _ ↦ Tx.wp_pure.mpr trivial⟩

theorem reportSessionFault_guarded (svc : Service) (env : Env) (sid : ℕ) (token : String)
    (fault : SessionFault) {db : Db} (hseen : env.Earlier db) :
    Tx.wp Guard (svc.reportSessionFault env sid token fault) (fun _ _ ↦ True) db := by
  simp only [Service.reportSessionFault, Tx.wp_bind, wp_lift, wp_require]
  intro s hs kind _
  obtain ⟨hmem, hid, htoken⟩ := authorizeSession_mem hs
  obtain ⟨x, hx, hxid, hhosted⟩ := hseen s hmem htoken
  have hrow : ∃ x ∈ db.sessions, x.id = sid ∧ x.hostTokenHash ≠ "" :=
    ⟨x, hx, hxid.trans hid, hhosted⟩
  cases kind with
  | confirmedAedtDeath => exact wp_write.mpr ⟨hrow, trivial⟩
  | nativeProbeSuspect =>
      simp only [Tx.wp_bind, wp_read]
      exact wp_write.mpr ⟨hrow, trivial⟩

theorem validateReapCandidate_ok {svc : Service} {db : Db} {sid : ℕ} {expected : DeadIdentity}
    {s : Session} (h : svc.validateReapCandidate db sid expected = .ok s) :
    s.state = .unhealthy ∨ s.state = .draining := by
  unfold Service.validateReapCandidate at h
  split at h
  · cases h
  · split at h
    · cases h
    · rename_i x _ hstate
      have hx : x.state = .unhealthy ∨ x.state = .draining := by
        simpa only [Bool.not_eq_true, Bool.not_eq_false', Bool.or_eq_true, beq_iff_eq] using hstate
      repeat' split at h
      all_goals first | cases h; exact hx | cases h

theorem reapDeadSession_guarded (svc : Service) (env : Env) (sid : ℕ) (expected : DeadIdentity)
    (processesAbsent : Bool) :
    Tx.Guarded Guard (svc.reapDeadSession env sid expected processesAbsent) := by
  intro db
  simp only [Service.reapDeadSession, Tx.wp_bind, wp_lift, wp_read, wp_write, wp_check]
  exact fun candidate hcandidate _ _ _ _ ↦ ⟨validateReapCandidate_ok hcandidate, trivial⟩

theorem closeSession_guarded (svc : Service) (env : Env) (sid : ℕ) (token : String)
    (closure : Closure) : Tx.Guarded Guard (svc.closeSession env sid token closure) := by
  intro db
  simp only [Service.closeSession, getSession, Tx.wp_bind, wp_lift, wp_read, wp_write, wp_check,
    wp_require]
  intro _ _ s hs _
  obtain ⟨hmem, hid⟩ := find?_session hs
  exact ⟨⟨rfl, s, hmem, hid, rfl⟩, trivial⟩

def PendingSessions (ss : List Session) (db : Db) : Prop :=
  DistinctSessions ss ∧ ∀ s ∈ ss, s ∈ db.sessions

theorem PendingSessions.tail {s : Session} {ss : List Session} {db db' : Db}
    (h : PendingSessions (s :: ss) db)
    (hdb : ∀ x ∈ db.sessions, x.id ≠ s.id → x ∈ db'.sessions) : PendingSessions ss db' := by
  refine ⟨(List.pairwise_cons.mp h.1).2, fun x hx ↦ ?_⟩
  exact hdb x (h.2 x (List.mem_cons_of_mem s hx)) fun hid ↦
    (List.pairwise_cons.mp h.1).1 x hx hid.symm

/-- A loop that treats each session of a selection with one write of that session. -/
theorem forEach_sessions_guarded {ss : List Session} {w : Session → Write} {db : Db}
    (hdb : PendingSessions ss db)
    (hguard : ∀ s ∈ ss, ∀ db, s ∈ db.sessions → Guard db (w s))
    (hframe : ∀ s db, ∀ x ∈ db.sessions, x.id ≠ s.id → x ∈ ((w s).exec db).sessions) :
    Tx.wp Guard (Tx.forEach ss fun s ↦ write (w s)) (fun _ _ ↦ True) db := by
  induction ss generalizing db with
  | nil => exact Tx.wp_ret.mpr trivial
  | cons s ss ih =>
      refine Tx.wp_andThen.mpr (wp_write.mpr ⟨?_, ?_⟩)
      · exact hguard s List.mem_cons_self db (hdb.2 s List.mem_cons_self)
      · exact ih (hdb.tail (hframe s db)) fun x hx ↦ hguard x (List.mem_cons_of_mem s hx)

theorem onSessions_keep {db : Db} {p : Session → Bool} {f : Session → Session}
    {x : Session} (hx : x ∈ db.sessions) (hp : p x = false)
    (hf : ∀ s, Keyed.key (f s) = Keyed.key s) : x ∈ (db.onSessions p f hf).sessions :=
  Db.mem_onSessions.mpr ⟨x, hx, by simp [hp]⟩

theorem onLeases_keep {db : Db} {p : Lease → Bool} {f : Lease → Lease}
    {x : Lease} (hx : x ∈ db.leases) (hp : p x = false)
    (hf : ∀ l, Keyed.key (f l) = Keyed.key l) : x ∈ (db.onLeases p f hf).leases :=
  Db.mem_onLeases.mpr ⟨x, hx, by simp [hp]⟩

theorem refreshZeroOwnerDrainingSessions_guarded (now : Time) :
    Tx.Guarded Guard (refreshZeroOwnerDrainingSessions now) := by
  intro db
  simp only [refreshZeroOwnerDrainingSessions, Tx.wp_bind, wp_read]
  refine forEach_sessions_guarded (select_sessions db _).symm (fun s hs db hmem ↦ ?_)
    fun s db x hx hid ↦ onSessions_keep hx (by simp [hid]) (by intro; rfl)
  simp only [Table.mem_select, Bool.and_eq_true, beq_iff_eq] at hs
  exact ⟨s, hmem, rfl, hs.2.1.1⟩

theorem retireBlockedStarts_guarded (svc : Service) (now : Time) (args : ReconcileArgs) :
    Tx.Guarded Guard (retireBlockedStarts svc now args) := by
  refine Tx.Guarded.forEach fun account _ db ↦ ?_
  simp only [Tx.wp_bind, wp_read]
  exact Tx.Guarded.forEach (fun s _ db ↦ wp_write.mpr ⟨trivial, trivial⟩) db

theorem storageCandidate_mem {db : Db} {account : String} {s : Session}
    (h : db.storageCandidate account = some s) :
    s ∈ db.sessions ∧ s.state.assignable = true ∧ s.drainRequestedAt = none := by
  unfold Db.storageCandidate at h
  split at h
  · cases h
  · have hmem := (List.mem_insertionSort _).mp (List.mem_of_head? h)
    simp only [Table.mem_select, Bool.and_eq_true, Option.isNone_iff_eq_none] at hmem
    exact ⟨hmem.1, hmem.2.1⟩

theorem drainPressuredAccounts_guarded (svc : Service) (now : Time) (args : ReconcileArgs) :
    Tx.Guarded Guard (drainPressuredAccounts svc now args) := by
  intro db
  simp only [drainPressuredAccounts, Tx.wp_bind, Tx.wp_ite, Tx.wp_pure]
  refine Tx.wp_mono (Tx.wp_fold (I := fun _ _ _ ↦ True) (fun account _ drained s _ ↦ ?_) trivial)
    fun _ s _ ↦ ⟨fun _ ↦ Tx.wp_mono (refreshExactSessionReservations_guarded now s) fun _ s _ ↦
      refreshZeroOwnerDrainingSessions_guarded now s, fun _ ↦ trivial⟩
  simp only [Tx.wp_bind, wp_read]
  split
  · simp
  · rename_i x hcandidate
    obtain ⟨hx, hrow⟩ := storageCandidate_mem hcandidate
    simp only [Tx.wp_bind, wp_write, Tx.wp_pure, and_true]
    exact ⟨x, hx, rfl, hrow⟩

theorem rotateAgedAllocations_guarded (cfg : AedtPoolConfig) (now : Time) :
    Tx.Guarded Guard (rotateAgedAllocations cfg now) := by
  intro db
  simp [rotateAgedAllocations, Tx.wp_ite, Guard]

/-- A loop that treats each lease of a selection by writes of that lease. -/
theorem forEach_leases_guarded {ls : List Lease} {f : Lease → PoolTx Unit} {db : Db}
    (hdb : Pending ls db)
    (hf : ∀ l ∈ ls, ∀ rest db, Pending (l :: rest) db →
      Tx.wp Guard (f l) (fun _ db' ↦ Pending rest db') db) :
    Tx.wp Guard (Tx.forEach ls f) (fun _ _ ↦ True) db := by
  induction ls generalizing db with
  | nil => exact Tx.wp_ret.mpr trivial
  | cons l ls ih =>
      refine Tx.wp_andThen.mpr (Tx.wp_mono (hf l List.mem_cons_self ls db hdb) fun _ s hs ↦ ?_)
      exact ih hs fun x hx ↦ hf x (List.mem_cons_of_mem l hx)

theorem refreshSessions_leases (sids : List ℕ) (now : Time) (db : Db) :
    (refreshSessions sids now db).leases = db.leases := by
  obtain ⟨sessions, h⟩ := refreshSessions_frame sids now db
  rw [h]

theorem beginRelease_keep {leaseId : ℕ} {sid : Option ℕ} {reason : String} {now : Time} {db : Db}
    {x : Lease} (hx : x ∈ db.leases) (hid : x.id ≠ leaseId) :
    x ∈ (beginRelease leaseId sid reason now db).leases := by
  cases sid <;> exact onLeases_keep hx (by simp [hid]) (by intro; rfl)

theorem cancelLease_keep {leaseId : ℕ} {sid : Option ℕ} {reason : String} {now : Time} {db : Db}
    {x : Lease} (hx : x ∈ db.leases) (hid : x.id ≠ leaseId) :
    x ∈ (cancelLease leaseId sid reason now db).leases := by
  unfold cancelLease
  rw [refreshSessions_leases]
  exact onLeases_keep hx (by simp [hid]) (by intro; rfl)

theorem expireOffer_keep {leaseId : ℕ} {sid : Option ℕ} {now : Time} {db : Db}
    {x : Lease} (hx : x ∈ db.leases) (hid : x.id ≠ leaseId) :
    x ∈ (expireOffer leaseId sid now db).leases := by
  unfold expireOffer
  rw [refreshSessions_leases]
  exact onLeases_keep hx (by simp [hid]) (by intro; rfl)

theorem requeueOffer_keep {l : Lease} {now : Time} {db : Db} {x : Lease} (hx : x ∈ db.leases)
    (hid : x.id ≠ l.id) : x ∈ (requeueOffer l now db).leases := by
  unfold requeueOffer
  rw [refreshSessions_leases]
  exact onLeases_keep hx (by simp [hid]) (by intro; rfl)

theorem endTerminalTasks_guarded (now : Time) : Tx.Guarded Guard (endTerminalTasks now) := by
  intro db
  simp only [endTerminalTasks, Tx.wp_bind, wp_read]
  refine forEach_leases_guarded (select_leases db _).symm fun l hl rest db hdb ↦ ?_
  simp only [Table.mem_select, Bool.and_eq_true, bne_iff_ne] at hl
  rw [Tx.wp_ite]
  refine ⟨fun howner ↦ wp_write.mpr ⟨⟨l, hdb.head, rfl, rfl, .inr ?_⟩, ?_⟩,
    fun howner ↦ wp_write.mpr ⟨⟨l, hdb.head, rfl, rfl, hl.2.1.1, fun hown ↦ ?_⟩, ?_⟩⟩
  · simp only [Bool.and_eq_true, Bool.or_eq_true, beq_iff_eq] at howner
    rcases howner.1 with h | h <;> rw [h] <;> rfl
  · exact hdb.tail fun x hx hid ↦ beginRelease_keep hx hid
  · cases hstate : l.state <;> simp_all [LeaseState.ownsProject]
  · exact hdb.tail fun x hx hid ↦ cancelLease_keep hx hid

theorem requeueStaleOffers_guarded (now : Time) : Tx.Guarded Guard (requeueStaleOffers now) := by
  intro db
  simp only [requeueStaleOffers, Tx.wp_bind, wp_read]
  refine forEach_leases_guarded (select_leases db _).symm fun l hl rest db hdb ↦ ?_
  simp only [Table.mem_select, Bool.and_eq_true, beq_iff_eq] at hl
  exact wp_write.mpr ⟨⟨hdb.head, hl.2.1.1.1.1⟩, hdb.tail fun x hx hid ↦ requeueOffer_keep hx hid⟩

theorem expireLeases_guarded (cfg : AedtPoolConfig) (now : Time) :
    Tx.Guarded Guard (expireLeases cfg now) := by
  intro db
  simp only [expireLeases, Tx.wp_bind, wp_read]
  refine forEach_leases_guarded (select_leases db _).symm fun l hl rest db hdb ↦ ?_
  simp only [Table.mem_select, Lease.lapsed, Bool.and_eq_true, bne_iff_ne] at hl
  split
  · rename_i hq
    exact wp_write.mpr ⟨⟨l, hdb.head, rfl, hq⟩,
      hdb.tail fun x hx hid ↦ onLeases_keep hx (by simp [hid]) (by intro; rfl)⟩
  · rename_i ho
    exact wp_write.mpr ⟨⟨l, hdb.head, rfl, rfl, ho⟩,
      hdb.tail fun x hx hid ↦ expireOffer_keep hx hid⟩
  · have hkeep : ∀ x ∈ db.leases, x.id ≠ l.id →
        x ∈ (beginRelease l.id l.sessionId "lease heartbeat expired" now db).leases :=
      fun x hx hid ↦ beginRelease_keep hx hid
    simp only [Tx.wp_bind, wp_write]
    refine ⟨⟨l, hdb.head, rfl, rfl, ?_⟩, ?_⟩
    · cases hstate : l.state <;> simp_all [LeaseState.ownsProject, LeaseState.live,
        LeaseState.holdsSlot]
    · split
      · exact wp_write.mpr ⟨trivial, hdb.tail hkeep⟩
      · exact Tx.wp_pure.mpr (hdb.tail hkeep)

theorem recycleUnhealthySessions_guarded (cfg : AedtPoolConfig) (now : Time) :
    Tx.Guarded Guard (recycleUnhealthySessions cfg now) := by
  intro db
  simp only [recycleUnhealthySessions, Tx.wp_bind, wp_read, wp_write]
  refine ⟨trivial, trivial, trivial, trivial, ?_⟩
  refine forEach_sessions_guarded (select_sessions _ _).symm (fun s hs db hmem ↦ ?_)
    fun s db x hx hid ↦ onSessions_keep hx (by simp [hid]) (by intro; rfl)
  simp only [Table.mem_select, Db.reapable, Bool.and_eq_true, beq_iff_eq] at hs
  exact ⟨s, hmem, rfl, hs.2.1⟩

theorem reviveAllocations_guarded (now : Time) : Tx.Guarded Guard (reviveAllocations now) := by
  intro db
  simp only [reviveAllocations, Tx.wp_bind, wp_read, wp_write]
  refine Tx.wp_mono (Tx.Guarded.forEach (fun a _ db ↦ wp_write.mpr ⟨trivial, trivial⟩) db)
    fun _ _ _ ↦ ⟨trivial, trivial⟩

theorem scale_guarded (cfg : AedtPoolConfig) (now : Time) (plan : Plan) :
    Tx.Guarded Guard (scale cfg now plan) := by
  intro db
  simp only [scale, Tx.wp_bind, wp_read]
  have hrebalance : Tx.Guarded Guard (Tx.forEach plan.rebalanceDrainsByAccount fun drain ↦ do
      let candidates ← read (·.rebalanceCandidates drain.1)
      Tx.forEach (candidates.take drain.2) fun s ↦ write (.drainForRebalance s.id now)) := by
    refine Tx.Guarded.forEach fun drain _ db ↦ ?_
    simp only [Tx.wp_bind, wp_read]
    exact Tx.Guarded.forEach (fun s _ db ↦ wp_write.mpr ⟨trivial, trivial⟩) db
  refine Tx.wp_mono (hrebalance db) fun _ s _ ↦ ?_
  refine Tx.wp_mono (forEach_sessions_guarded ?_ (fun x hx db hmem ↦ ?_)
    fun x db y hy hid ↦ onSessions_keep hy (by simp [hid]) (by intro; rfl)) fun _ s _ ↦
      Tx.Guarded.forEach (fun p _ db ↦ wp_write.mpr ⟨trivial, trivial⟩) s
  · have hmem : ∀ x ∈ s.scaleInCandidates, x ∈ s.sessions := by
      intro x hx
      simp only [Db.scaleInCandidates, List.mem_insertionSort, Table.mem_select] at hx
      exact hx.1
    have hnodup : s.scaleInCandidates.Nodup :=
      (List.perm_insertionSort _ _).nodup_iff.mpr (s.sessions.nodup_rows.filter _)
    exact ⟨(distinctSessions_of_nodup hnodup hmem).sublist (List.take_sublist _ _),
      fun x hx ↦ hmem x (List.mem_of_mem_take hx)⟩
  · have hx := List.mem_of_mem_take hx
    simp only [Db.scaleInCandidates, List.mem_insertionSort, Table.mem_select,
      Bool.and_eq_true] at hx
    exact ⟨x, hmem, rfl, hx.2.1⟩

theorem reconcile_guarded (svc : Service) (env : Env) (args : ReconcileArgs) :
    Tx.Guarded Guard (svc.reconcile env args) := by
  unfold Service.reconcile
  refine (refreshZeroOwnerDrainingSessions_guarded env.now).bind fun _ ↦ .bind ?_ fun _ ↦
    (refreshZeroOwnerDrainingSessions_guarded env.now).bind fun _ ↦ .bind ?_ fun _ ↦
    .bind (guarded_when (rotateAgedAllocations_guarded env.cfg env.now)) fun _ ↦
    (endTerminalTasks_guarded env.now).bind fun _ ↦
    (requeueStaleOffers_guarded env.now).bind fun _ ↦
    (expireLeases_guarded env.cfg env.now).bind fun _ ↦
    (recycleUnhealthySessions_guarded env.cfg env.now).bind fun _ ↦
    .bind (guarded_when (reviveAllocations_guarded env.now)) fun _ ↦ guarded_when ?_
  · exact fun s ↦ Tx.wp_mono (refreshExactSessionReservations_guarded env.now s) fun _ _ _ ↦ trivial
  · exact guarded_when ((retireBlockedStarts_guarded svc env.now args).bind fun _ ↦
      drainPressuredAccounts_guarded svc env.now args)
  · exact (placeQueuedLeases_guarded env.cfg env.now env.clock none false).bind fun _ ↦
      scale_guarded env.cfg env.now args.plan

/-- Only the report of a session fault relies on what the call has read before. -/
theorem transactions_guarded_of {svc : Service} {env : Env} {call : Call} {m : PoolTx Unit}
    {db : Db} (hm : m ∈ call.transactions svc env) (hfresh : call.Fresh db)
    (hseen : ∀ sid token fault, call = .reportSessionFault sid token fault → env.Earlier db) :
    Tx.wp Guard m (fun _ _ ↦ True) db := by
  have hvoid : ∀ {α : Type} {m : PoolTx α}, Tx.wp Guard m (fun _ _ ↦ True) db →
      Tx.wp Guard m.void (fun _ _ ↦ True) db := fun h ↦ wp_void.mpr h
  have hwrite : ∀ w, Guard db w → Tx.wp Guard (write w) (fun _ _ ↦ True) db :=
    fun w hw ↦ wp_write.mpr ⟨hw, trivial⟩
  cases call <;> simp only [Call.transactions, List.mem_cons, List.not_mem_nil, or_false] at hm
  case createExactSessionReservation q =>
    exact hm ▸ hvoid (createExactSessionReservation_guarded svc env.cfg env.now q db)
  case preparePooledTaskSession q =>
    exact hm ▸ hvoid (preparePooledTaskSession_guarded svc env.cfg env.now q db hfresh)
  case createMixedCanaryAdmission q =>
    exact hm ▸ hvoid (createMixedCanaryAdmission_guarded svc env.now q db)
  case requestLease args => exact hm ▸ hvoid (requestLease_guarded svc env args db)
  case heartbeatLease leaseId token phase =>
    exact hm ▸ hvoid (heartbeatLease_guarded svc env leaseId token phase db)
  case acceptLease leaseId token => exact hm ▸ hvoid (acceptLease_guarded svc env leaseId token db)
  case activateLease leaseId token =>
    exact hm ▸ hvoid (activateLease_guarded svc env leaseId token db)
  case requestSolvePermit leaseId token sealUnderfilled =>
    exact hm ▸ hvoid (requestSolvePermit_guarded svc env leaseId token sealUnderfilled db)
  case completeNativePipeline leaseId token generation =>
    exact hm ▸ hvoid (completeNativePipeline_guarded svc env leaseId token generation db)
  case bindLeaseProjectName leaseId token name =>
    exact hm ▸ hvoid (bindLeaseProjectName_guarded svc env leaseId token name db)
  case cancelLease leaseId token reason =>
    exact hm ▸ hvoid (cancelLease_guarded svc env leaseId token reason db)
  case reportProjectFault leaseId token fault =>
    exact reportProjectFault_guarded svc env leaseId token fault hm db
  case claimStart q => exact hm ▸ hvoid (claimStart_guarded svc env q db)
  case registerSession q pass =>
    rcases hm with rfl | rfl
    · exact registerSession_guarded svc env q db
    · exact reconcile_guarded svc env pass db
  case failSessionStart sid hostId token failure =>
    exact hm ▸ failSessionStart_guarded svc env sid hostId token failure db
  case failUnclaimedSessionStart sid reason => exact hm ▸ hwrite _ trivial
  case bindSessionHostTask sid taskId => exact hm ▸ bindSessionHostTask_guarded env sid taskId db
  case heartbeatSession sid token q => exact hm ▸ heartbeatSession_guarded svc env sid token q db
  case completeRelease sid token leaseId success message =>
    exact hm ▸ completeRelease_guarded svc env sid token leaseId success message db
  case reportSessionFault sid token fault =>
    exact hm ▸ reportSessionFault_guarded svc env sid token fault (hseen sid token fault rfl)
  case reapDeadSession sid expected absent pass =>
    rcases hm with rfl | rfl
    · exact reapDeadSession_guarded svc env sid expected absent db
    · exact reconcile_guarded svc env pass db
  case closeSession sid token closure => exact hm ▸ closeSession_guarded svc env sid token closure db
  case reconcile args => exact hm ▸ reconcile_guarded svc env args db
  case requestAllSessionsDrain reason => exact hm ▸ hwrite _ trivial
  case putSettings values => exact hm ▸ hwrite _ trivial
  case recordValidation passed pooledProjects mixedPassed => exact hm ▸ hwrite _ trivial

theorem transactions_guarded {svc : Service} {env : Env} {call : Call} {m : PoolTx Unit} {db : Db}
    (hm : m ∈ call.transactions svc env) (hfresh : call.Fresh db) (hseen : env.Earlier db) :
    Tx.wp Guard m (fun _ _ ↦ True) db :=
  transactions_guarded_of hm hfresh fun _ _ _ _ ↦ hseen

end SlurmScheduler.Pool
