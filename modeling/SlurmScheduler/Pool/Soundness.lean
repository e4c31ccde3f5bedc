import SlurmScheduler.Pool.TakingWrites
import SlurmScheduler.Pool.Runs

namespace SlurmScheduler.Pool

open Relational

section Plain

variable {keeps : Aspect → Prop} {db db' : Db}

theorem Moves.registered (h : Moves keeps db db') (hdb : Registered db) : Registered db' where
  positive s' hs' := by
    obtain ⟨s, hs, hm⟩ := h.sessions.exists_left hs'
    exact hm.id ▸ hdb.positive s hs
  unregistered s' hs' hnone := by
    obtain ⟨s, hs, hm⟩ := h.sessions.exists_left hs'
    refine hm.unregistered hnone (hdb.unregistered s hs ?_)
    by_contra hne
    have hsome := hm.started (Option.isSome_iff_ne_none.mpr hne)
    simp [hnone] at hsome
  token s' hs' htoken := by
    obtain ⟨s, hs, hm⟩ := h.sessions.exists_left hs'
    exact (hm.token htoken).elim (fun ht ↦ hm.started (hdb.token s hs ht)) id
  starting s' hs' hstate := by
    obtain ⟨s, hs, hm⟩ := h.sessions.exists_left hs'
    obtain ⟨hstart, hsame⟩ := hm.starting hstate
    exact hsame.trans (hdb.starting s hs hstart)
  sealed_ s' hs' hsealed := by
    obtain ⟨s, hs, hm⟩ := h.sessions.exists_left hs'
    exact hm.started (hdb.sealed_ s hs (hm.sealed_ hsealed ▸ hsealed))
  lease l' hl' sid hsid := by
    obtain ⟨l, hl, hm⟩ := h.leases.exists_left hl'
    rcases hm.session with hsame | hnone
    · exact h.started (hdb.lease l hl sid (hsame ▸ hsid))
    · simp [hnone] at hsid
  reservation r' hr' := by
    obtain ⟨r, hr, hm⟩ := h.reservations.exists_left hr'
    exact hm.session ▸ h.started (hdb.reservation r hr)
  admission a' ha' := by
    obtain ⟨a, ha, hm⟩ := h.admissions.exists_left ha'
    exact hm.session ▸ h.started (hdb.admission a ha)

theorem Moves.paired (h : Moves keeps db db') (hdb : Paired db) : Paired db' where
  positive r' hr' := by
    obtain ⟨r, hr, hm⟩ := h.reservations.exists_left hr'
    exact hm.id ▸ hdb.positive r hr
  claimed r' hr' k hk := by
    obtain ⟨r, hr, hm⟩ := h.reservations.exists_left hr'
    obtain ⟨l, hl, hid, hexact, hrequested⟩ := hdb.claimed r hr k (hm.lease ▸ hk)
    obtain ⟨l', hl', hlm⟩ := h.leases.exists_right hl
    exact ⟨l', hl', hlm.id.trans hid, by rw [hlm.exactReservation, hexact, hm.id],
      by rw [hlm.requestedSession, hrequested, hm.session]⟩
  authorized l' hl' hne := by
    obtain ⟨l, hl, hm⟩ := h.leases.exists_left hl'
    obtain ⟨r, hr, hid, hlease⟩ := hdb.authorized l hl (hm.exactReservation ▸ hne)
    obtain ⟨r', hr', hrm⟩ := h.reservations.exists_right hr
    exact ⟨r', hr', by rw [hrm.id, hid, hm.exactReservation], by rw [hrm.lease, hlease, hm.id]⟩
  exact l' hl' hne hslot := by
    obtain ⟨l, hl, hm⟩ := h.leases.exists_left hl'
    rw [(hm.place hslot).1, hm.requestedSession]
    exact hdb.exact l hl (hm.exactReservation ▸ hne) (hm.holdsSlot hslot)

theorem Moves.seated (h : Moves keeps db db') (hdb : Seated db) : Seated db' where
  seat l' hl' hslot := by
    obtain ⟨l, hl, hm⟩ := h.leases.exists_left hl'
    obtain ⟨s, hs, hsid, i, hi, hlt⟩ := hdb.seat l hl (hm.holdsSlot hslot)
    obtain ⟨s', hs', hsm⟩ := h.sessions.exists_right hs
    obtain ⟨hsession, hindex⟩ := hm.place hslot
    exact ⟨s', hs', by rw [hsession, hsid, hsm.id], i, hindex.trans hi, hsm.slotsTotal ▸ hlt⟩
  distinct a' ha' b' hb' sid hah hbh hindex := by
    obtain ⟨a, ha, ham⟩ := h.leases.exists_left ha'
    obtain ⟨b, hb, hbm⟩ := h.leases.exists_left hb'
    have hab : a = b := hdb.distinct a ha b hb sid (ham.holds hah).1 (hbm.holds hbh).1
      (by rw [← (ham.holds hah).2, ← (hbm.holds hbh).2, hindex])
    exact Table.eq_of_key_eq ha' hb' (ham.id.trans (hab ▸ hbm.id.symm))
  load s' hs' := by
    obtain ⟨s, hs, hm⟩ := h.sessions.exists_left hs'
    have hle := h.load_le s.id
    have hload := hdb.load s hs
    rw [hm.id, hm.slotsTotal]
    omega

theorem Moves.sound (h : Moves keeps db db') (hdb : Sound db) : Sound db' :=
  ⟨h.registered hdb.registered, h.paired hdb.paired, h.seated hdb.seated⟩

end Plain

section Insert

variable {db db' : Db}

/-- Only the admissions and the tables without references change. -/
theorem Sound.of_admissions (hdb : Sound db) (hs : db'.sessions = db.sessions)
    (hl : db'.leases = db.leases) (hr : db'.reservations = db.reservations)
    (ha : ∀ a ∈ db'.admissions, db.Started a.sessionId) : Sound db' := by
  obtain ⟨hreg, hpair, hseat⟩ := hdb
  cases db
  cases db'
  dsimp only at hs hl hr ha
  subst hs hl hr
  exact
    { registered := { hreg with admission := ha }
      paired := ⟨hpair.positive, hpair.claimed, hpair.authorized, hpair.exact⟩
      seated := ⟨hseat.seat, hseat.distinct, hseat.load⟩ }

theorem Sound.reserveSlot {terms : ReservationTerms} {now : Time} {taskId : ℕ} (hdb : Sound db)
    {s : Session} (hs : s ∈ db.sessions) (hid : s.id = terms.sessionId)
    (hstarted : s.startedAt.isSome = true)
    (hroom : db.used s.id + db.held s.id < s.slotsTotal) :
    Sound (Pool.reserveSlot terms now db taskId) := by
  have hmem : ∀ r ∈ (Pool.reserveSlot terms now db taskId).reservations, r ∈ db.reservations ∨
      (r.id ≠ 0 ∧ r.leaseId = none ∧ r.sessionId = terms.sessionId) := by
    intro r hr
    refine (Table.mem_insert.mp hr).imp_right fun h ↦ ?_
    subst h
    exact ⟨Nat.succ_ne_zero _, rfl, rfl⟩
  have hold : ∀ r ∈ db.reservations, r ∈ (Pool.reserveSlot terms now db taskId).reservations :=
    fun r hr ↦ Table.mem_insert.mpr (.inl hr)
  refine ⟨{ hdb.registered with reservation := fun r hr ↦ ?_ },
    ⟨fun r hr ↦ ?_, fun r hr k hk ↦ ?_, fun l hl hne ↦ ?_, hdb.paired.exact⟩,
    ⟨hdb.seated.seat, hdb.seated.distinct, fun x hx ↦ ?_⟩⟩
  · rcases hmem r hr with hr | ⟨-, -, hsession⟩
    · exact hdb.registered.reservation r hr
    · exact ⟨s, hs, hid.trans hsession.symm, hstarted⟩
  · rcases hmem r hr with hr | ⟨hne, -, -⟩
    · exact hdb.paired.positive r hr
    · exact hne
  · rcases hmem r hr with hr | ⟨-, hnone, -⟩
    · exact hdb.paired.claimed r hr k hk
    · simp [hnone] at hk
  · obtain ⟨r, hr, h⟩ := hdb.paired.authorized l hl hne
    exact ⟨r, hold r hr, h⟩
  · have hload := hdb.seated.load x hx
    have hheld : (Pool.reserveSlot terms now db taskId).held x.id =
        db.held x.id + if terms.sessionId == x.id then 1 else 0 := by
      unfold Db.held Pool.reserveSlot
      rw [Table.count_insert]
      simp [Reservation.holds, ReservationState.holdsSlot]
    have hused : (Pool.reserveSlot terms now db taskId).used x.id = db.used x.id := rfl
    rw [hheld, hused]
    split
    · rename_i hx'
      have hxs : x = s := Table.eq_of_key_eq hx hs
        ((by simpa using hx' : terms.sessionId = x.id).symm.trans hid.symm)
      subst hxs
      omega
    · omega

theorem Sound.reserve {terms : ReservationTerms} {tasks : List ℕ} {now : Time} (hdb : Sound db)
    {s : Session} (hs : Reservable db terms tasks s) (hmem : s ∈ db.sessions) :
    Sound (reserve terms tasks now db) := by
  have hstarted := hdb.registered.assignable s hmem hs.assignable
  have hroom := hs.room
  have hid := hs.id
  clear hs
  unfold Pool.reserve
  induction tasks generalizing db with
  | nil => exact hdb
  | cons taskId tasks ih =>
      simp only [List.length_cons] at hroom
      have hheld : (Pool.reserveSlot terms now db taskId).held s.id = db.held s.id + 1 := by
        unfold Db.held Pool.reserveSlot
        rw [Table.count_insert]
        simp [Reservation.holds, ReservationState.holdsSlot, hid]
      have hused : (Pool.reserveSlot terms now db taskId).used s.id = db.used s.id := rfl
      exact ih (hdb.reserveSlot hmem hid hstarted (by omega)) hmem (by omega)

theorem Sound.openCanary {sid : ℕ} (group profile : String)
    {slots : List (String × String × String)} (expires now : Time) (hdb : Sound db) {s : Session}
    (hs : CanaryReady db sid slots.length s) (hmem : s ∈ db.sessions) :
    Sound (openCanary sid group profile slots expires now db) := by
  obtain ⟨canarySlots, hframe⟩ := openCanary_frame sid group profile slots expires now db
  rw [hframe]
  refine hdb.of_admissions rfl rfl rfl fun a ha ↦ ?_
  rcases Table.mem_insert.mp ha with ha | rfl
  · exact hdb.registered.admission a ha
  · exact ⟨s, hmem, hs.id, hdb.registered.assignable s hmem (by rw [hs.ready]; rfl)⟩

theorem Sound.admitLease {q : LeaseRequest} {reservation : Option Reservation}
    {canary : Option (CanarySlot × Admission)} {now : Time} (hdb : Sound db)
    (hres : ∀ r, reservation = some r →
      r ∈ db.reservations ∧ r.state = .reserved ∧ r.leaseId = none ∧ r.taskId = q.taskId) :
    Sound (admitLease q reservation canary now db) := by
  have hsessions := admitLease_sessions q reservation canary now db
  have hmem := @mem_admitLease q reservation canary now db
  have hused := admitLease_used q reservation canary now db
  have hrows := admitLease_reservations q canary now db hres
  have hadmissions := admitLease_admissions q reservation canary now db
  revert hsessions hmem hused hrows hadmissions
  generalize Pool.admitLease q reservation canary now db = db'
  intro hsessions hmem hused hrows hadmissions
  have hstarted : ∀ sid, db.Started sid → db'.Started sid := fun sid h ↦ by
    unfold Db.Started
    rwa [hsessions]
  have hheld : ∀ sid, db'.held sid ≤ db.held sid := fun sid ↦ by
    refine hrows.count_le fun r r' h hr ↦ ?_
    simp only [Reservation.holds, Bool.and_eq_true, beq_iff_eq] at hr ⊢
    refine ⟨h.same.2.2.2 ▸ hr.1, ?_⟩
    by_cases hreservation : reservation = some r
    · rw [(hres r hreservation).2.1]
      rfl
    · exact h.kept hreservation ▸ hr.2
  refine
    ⟨{ positive := hsessions ▸ hdb.registered.positive
       unregistered := hsessions ▸ hdb.registered.unregistered
       token := hsessions ▸ hdb.registered.token
       starting := hsessions ▸ hdb.registered.starting
       sealed_ := hsessions ▸ hdb.registered.sealed_
       lease := fun l hl sid hsid ↦ ?_
       reservation := fun r' hr' ↦ ?_
       admission := fun a' ha' ↦ ?_ },
     { positive := fun r' hr' ↦ ?_
       claimed := fun r' hr' k hk ↦ ?_
       authorized := fun l hl hne ↦ ?_
       exact := fun l hl hne hslot ↦ ?_ },
     { seat := fun l hl hslot ↦ ?_
       distinct := fun a ha b hb sid hah hbh ↦ ?_
       load := fun s hs ↦ ?_ }⟩
  · rcases hmem.mp hl with hl | rfl
    · exact hstarted sid (hdb.registered.lease l hl sid hsid)
    · cases hsid
  · obtain ⟨r, hr, hm⟩ := hrows.exists_left hr'
    exact hm.same.2.2.2 ▸ hstarted _ (hdb.registered.reservation r hr)
  · obtain ⟨a, ha, hm⟩ := hadmissions.exists_left ha'
    exact hm.session ▸ hstarted _ (hdb.registered.admission a ha)
  · obtain ⟨r, hr, hm⟩ := hrows.exists_left hr'
    exact hm.same.1 ▸ hdb.paired.positive r hr
  · obtain ⟨r, hr, hm⟩ := hrows.exists_left hr'
    by_cases hreservation : reservation = some r
    · refine ⟨_, hmem.mpr (.inr rfl), ?_, ?_, ?_⟩
      · rw [hm.claimed hreservation] at hk
        exact Option.some.inj hk
      · simp [newLease, hreservation, hm.same.1]
      · simp [newLease, hreservation, hm.same.2.2.2]
    · rw [hm.kept hreservation] at hk ⊢
      obtain ⟨l, hl, h⟩ := hdb.paired.claimed r hr k hk
      exact ⟨l, hmem.mpr (.inl hl), h⟩
  · rcases hmem.mp hl with hl | rfl
    · obtain ⟨r, hr, hid, hlease⟩ := hdb.paired.authorized l hl hne
      obtain ⟨r', hr', hm⟩ := hrows.exists_right hr
      have hkept : reservation ≠ some r := fun h ↦ by simp [(hres r h).2.2.1] at hlease
      exact ⟨r', hr', by rw [hm.kept hkept, hid], by rw [hm.kept hkept, hlease]⟩
    · cases hreservation : reservation with
      | none => simp [newLease, hreservation] at hne
      | some r =>
          obtain ⟨r', hr', hm⟩ := hrows.exists_right (hres r hreservation).1
          refine ⟨r', hr', ?_, ?_⟩
          · simp [newLease, hm.same.1]
          · rw [hm.claimed hreservation]
            rfl
  · rcases hmem.mp hl with hl | rfl
    · exact hdb.paired.exact l hl hne hslot
    · cases hslot
  · rcases hmem.mp hl with hl | rfl
    · rw [hsessions]
      exact hdb.seated.seat l hl hslot
    · cases hslot
  · rcases hmem.mp ha with ha | rfl
    · rcases hmem.mp hb with hb | rfl
      · exact hdb.seated.distinct a ha b hb sid hah hbh
      · simp [Lease.holds, newLease] at hbh
    · simp [Lease.holds, newLease] at hah
  · rw [hsessions] at hs
    have hload := hdb.seated.load s hs
    have hle := hheld s.id
    rw [hused]
    omega

theorem Sound.startSession {key accountName nodeName : String} {allocationId slots : ℕ}
    {now : Time} (hdb : Sound db) :
    Sound (startSession key allocationId accountName nodeName slots now db) := by
  have hstarted : ∀ sid, db.Started sid →
      (Pool.startSession key allocationId accountName nodeName slots now db).Started sid := by
    rintro sid ⟨s, hs, h⟩
    exact ⟨s, mem_startSession.mpr (.inl hs), h⟩
  have hnew : ∀ sid, db.Started sid → sid ≠ db.sessions.nextKey := by
    rintro sid ⟨s, hs, rfl, -⟩
    exact (Table.lt_nextKey hs).ne
  refine
    ⟨{ positive := fun s hs ↦ ?_
       unregistered := fun s hs _ ↦ ?_
       token := fun s hs htoken ↦ ?_
       starting := fun s hs hstate ↦ ?_
       sealed_ := fun s hs hsealed ↦ ?_
       lease := fun l hl sid hsid ↦ hstarted sid (hdb.registered.lease l hl sid hsid)
       reservation := fun r hr ↦ hstarted _ (hdb.registered.reservation r hr)
       admission := fun a ha ↦ hstarted _ (hdb.registered.admission a ha) },
     ⟨hdb.paired.positive, hdb.paired.claimed, hdb.paired.authorized, hdb.paired.exact⟩,
     { seat := fun l hl hslot ↦ ?_
       distinct := hdb.seated.distinct
       load := fun s hs ↦ ?_ }⟩
  · rcases mem_startSession.mp hs with hs | rfl
    · exact hdb.registered.positive s hs
    · exact Nat.succ_ne_zero _
  · rcases mem_startSession.mp hs with hs | rfl
    · exact hdb.registered.unregistered s hs ‹_›
    · exact .inr ⟨rfl, .inl rfl⟩
  · rcases mem_startSession.mp hs with hs | rfl
    · exact hdb.registered.token s hs htoken
    · exact (htoken rfl).elim
  · rcases mem_startSession.mp hs with hs | rfl
    · exact hdb.registered.starting s hs hstate
    · rfl
  · rcases mem_startSession.mp hs with hs | rfl
    · exact hdb.registered.sealed_ s hs hsealed
    · cases hsealed
  · obtain ⟨s, hs, h⟩ := hdb.seated.seat l hl hslot
    exact ⟨s, mem_startSession.mpr (.inl hs), h⟩
  · rcases mem_startSession.mp hs with hs | rfl
    · exact hdb.seated.load s hs
    · have hused : db.used db.sessions.nextKey = 0 := by
        refine Table.count_eq_zero.mpr fun l hl ↦ ?_
        by_contra hholds
        simp only [Lease.holds, Bool.not_eq_false, Bool.and_eq_true, beq_iff_eq] at hholds
        exact hnew _ (hdb.registered.lease l hl _ hholds.1) rfl
      have hheld : db.held db.sessions.nextKey = 0 := by
        refine Table.count_eq_zero.mpr fun r hr ↦ ?_
        by_contra hholds
        simp only [Reservation.holds, Bool.not_eq_false, Bool.and_eq_true, beq_iff_eq] at hholds
        exact hnew _ (hdb.registered.reservation r hr) hholds.1
      exact (Nat.add_eq_zero_iff.mpr ⟨hused, hheld⟩).le.trans (Nat.zero_le _)

end Insert

section Place

variable {db : Db} {l : Lease} {s : Session} {sid slot : ℕ} {offerExpires now : Time}

/-- The count that `_lease_fits_session` compares leaves room for the lease. -/
theorem accepts_room (h : db.accepts l s = true) :
    db.used s.id + (db.reservations.select fun r ↦ r.holds s.id &&
      (l.exactSessionReservationId == 0 || r.id != l.exactSessionReservationId)).length <
        s.slotsTotal := by
  simp only [Db.accepts, leaseFitsSession, Bool.and_eq_true, decide_eq_true_eq] at h
  exact h.2.1.1.1.1.1.1.1

/-- An accepted exact lease has a claimed reservation of its own. -/
theorem accepts_reservation (h : db.accepts l s = true) (hne : l.exactSessionReservationId ≠ 0) :
    ∃ r ∈ db.reservations, r.id = l.exactSessionReservationId ∧ r.state = .claimed ∧
      r.leaseId = some l.id := by
  simp only [Db.accepts, Bool.and_eq_true, Bool.or_eq_true, beq_iff_eq] at h
  have hsome := h.1.resolve_left hne
  obtain ⟨r, hr⟩ := Option.isSome_iff_exists.mp hsome
  simp only [Db.reservationOfLease, Option.filter_eq_some_iff, Bool.and_eq_true, beq_iff_eq] at hr
  obtain ⟨hmem, hid⟩ := mem_of_find? hr.1
  exact ⟨r, hmem, hid, hr.2.1, hr.2.2⟩

theorem freeSlot_spec (h : db.freeSlot s = some slot) : slot < s.slotsTotal ∧
    ∀ o ∈ db.leases, o.holds s.id = true → o.slotIndex.getD 0 ≠ slot := by
  have hmem := List.mem_of_find?_eq_some h
  have hfree := List.find?_some h
  simp only [Bool.not_eq_true', List.any_eq_false, beq_iff_eq, Db.occupants, Table.mem_select,
    and_imp] at hfree
  exact ⟨List.mem_range.mp hmem, hfree⟩

/-- The holds that remain are those that the placement test has counted. -/
theorem seatLease_held_le (haccepts : db.accepts l s = true) :
    (seatLease l sid slot offerExpires now db).held s.id ≤
      (db.reservations.select fun r ↦ r.holds s.id &&
        (l.exactSessionReservationId == 0 || r.id != l.exactSessionReservationId)).length := by
  have hselect : (db.reservations.select fun r ↦ r.holds s.id &&
      (l.exactSessionReservationId == 0 || r.id != l.exactSessionReservationId)).length =
      db.reservations.count fun r ↦ r.holds s.id &&
        (l.exactSessionReservationId == 0 || r.id != l.exactSessionReservationId) := by
    simp [Table.select, Table.count, List.countP_eq_length_filter]
  rw [hselect]
  have hmoved : Table.Moved (fun r r' ↦ ConsumeMove l r r' ∧ r ∈ db.reservations) db.reservations
      (seatLease l sid slot offerExpires now db).reservations :=
    (seatLease_reservations sid slot offerExpires now).with_mem
  refine hmoved.count_le fun r r' hr hholds ↦ ?_
  obtain ⟨hm, hmem⟩ := hr
  simp only [Reservation.holds, Bool.and_eq_true, Bool.or_eq_true, beq_iff_eq, bne_iff_ne, ne_eq]
    at hholds ⊢
  have hnot : l.exactSessionReservationId = 0 ∨ r.id ≠ l.exactSessionReservationId := by
    by_contra hcon
    push Not at hcon
    obtain ⟨x, hx, hid, hclaimed, hlease⟩ := accepts_reservation haccepts hcon.1
    have hxr : x = r := Table.eq_of_key_eq hx hmem (hid.trans hcon.2.symm)
    subst hxr
    rw [hm.consumed hcon.1 hid hlease hclaimed] at hholds
    cases hholds.2
  refine ⟨⟨hm.session ▸ hholds.1, ?_⟩, hnot⟩
  rcases hm.state with hsame | ⟨-, -, hclaimed, -⟩
  · exact hsame ▸ hholds.2
  · rw [hclaimed]
    rfl

theorem Sound.seatLease (hdb : Sound db) (hl : l ∈ db.leases) (hq : l.state = .queued)
    (hs : s ∈ db.sessions) (hplace : Placeable db l s) (hslot : db.freeSlot s = some slot) :
    Sound (seatLease l s.id slot offerExpires now db) := by
  have hsessions := @seatLease_sessions db l s.id slot offerExpires now
  have hadmissions := @seatLease_admissions db l s.id slot offerExpires now
  have hleases := seatLease_leases s.id slot offerExpires now hl hq
  have hrows := @seatLease_reservations db l s.id slot offerExpires now
  have hused := seatLease_used_le s.id slot offerExpires now hl hq
  have hheld := @seatLease_held_le db l s s.id slot offerExpires now hplace.accepted
  have hroom := accepts_room hplace.accepted
  obtain ⟨hlt, hfree⟩ := freeSlot_spec hslot
  revert hsessions hadmissions hleases hrows hused hheld
  generalize Pool.seatLease l s.id slot offerExpires now db = db'
  intro hsessions hadmissions hleases hrows hused hheld
  have hstarted : ∀ sid, db.Started sid → db'.Started sid := fun sid h ↦ by
    unfold Db.Started
    rwa [hsessions]
  -- A row is the seated lease or an old row.
  have hmem : ∀ x' ∈ db'.leases, (x' ∈ db.leases ∧ x'.id ≠ l.id) ∨
      x' = l.seated s.id slot l.offerState offerExpires now := by
    intro x' hx'
    obtain ⟨x, hx, hm⟩ := hleases.exists_left hx'
    by_cases hid : x.id = l.id
    · exact .inr (hm.seated hid).2
    · exact .inl ⟨hm.kept hid ▸ hx, hm.kept hid ▸ hid⟩
  have hseated : l.seated s.id slot l.offerState offerExpires now ∈ db'.leases := by
    obtain ⟨x', hx', hm⟩ := hleases.exists_right hl
    exact (hm.seated rfl).2 ▸ hx'
  have hold : ∀ x ∈ db.leases, ∃ x' ∈ db'.leases, x'.id = x.id ∧
      x'.exactSessionReservationId = x.exactSessionReservationId ∧
      x'.requestedSessionId = x.requestedSessionId := by
    intro x hx
    by_cases hid : x.id = l.id
    · have hxl : x = l := Table.eq_of_key_eq hx hl hid
      exact ⟨_, hseated, hxl ▸ rfl, hxl ▸ rfl, hxl ▸ rfl⟩
    · obtain ⟨x', hx', hm⟩ := hleases.exists_right hx
      exact ⟨x', hx', by rw [hm.kept hid], by rw [hm.kept hid], by rw [hm.kept hid]⟩
  have hholds : ∀ sid, (l.seated s.id slot l.offerState offerExpires now).holds sid = true →
      sid = s.id := by
    intro sid h
    simp only [Lease.holds, Lease.seated, Bool.and_eq_true, beq_iff_eq, Option.some.injEq] at h
    exact h.1.symm
  refine
    ⟨{ positive := hsessions ▸ hdb.registered.positive
       unregistered := hsessions ▸ hdb.registered.unregistered
       token := hsessions ▸ hdb.registered.token
       starting := hsessions ▸ hdb.registered.starting
       sealed_ := hsessions ▸ hdb.registered.sealed_
       lease := fun x hx sid hsid ↦ ?_
       reservation := fun r' hr' ↦ ?_
       admission := fun a ha ↦ hstarted _ (hdb.registered.admission a (hadmissions ▸ ha)) },
     { positive := fun r' hr' ↦ ?_
       claimed := fun r' hr' k hk ↦ ?_
       authorized := fun x hx hne ↦ ?_
       exact := fun x hx hne hslot ↦ ?_ },
     { seat := fun x hx hslot ↦ ?_
       distinct := fun a ha b hb sid hah hbh hindex ↦ ?_
       load := fun x hx ↦ ?_ }⟩
  · rcases hmem x hx with ⟨hx, -⟩ | rfl
    · exact hstarted sid (hdb.registered.lease x hx sid hsid)
    · cases hsid
      exact hstarted _ ⟨s, hs, rfl, hdb.registered.assignable s hs hplace.assignable⟩
  · obtain ⟨r, hr, hm⟩ := hrows.exists_left hr'
    exact hm.session ▸ hstarted _ (hdb.registered.reservation r hr)
  · obtain ⟨r, hr, hm⟩ := hrows.exists_left hr'
    exact hm.id ▸ hdb.paired.positive r hr
  · obtain ⟨r, hr, hm⟩ := hrows.exists_left hr'
    obtain ⟨x, hx, hid, hexact, hrequested⟩ := hdb.paired.claimed r hr k (hm.lease ▸ hk)
    obtain ⟨x', hx', hid', hexact', hrequested'⟩ := hold x hx
    exact ⟨x', hx', hid'.trans hid, by rw [hexact', hexact, hm.id],
      by rw [hrequested', hrequested, hm.session]⟩
  · have hrow : ∀ y ∈ db.leases, y.exactSessionReservationId ≠ 0 → ∃ r' ∈ db'.reservations,
        r'.id = y.exactSessionReservationId ∧ r'.leaseId = some y.id := by
      intro y hy hne
      obtain ⟨r, hr, hid, hlease⟩ := hdb.paired.authorized y hy hne
      obtain ⟨r', hr', hm⟩ := hrows.exists_right hr
      exact ⟨r', hr', hm.id.trans hid, hm.lease.trans hlease⟩
    rcases hmem x hx with ⟨hx, -⟩ | rfl
    · exact hrow x hx hne
    · exact hrow l hl hne
  · rcases hmem x hx with ⟨hx, -⟩ | rfl
    · exact hdb.paired.exact x hx hne hslot
    · obtain ⟨r, hr, hid, hlease⟩ := hdb.paired.authorized l hl hne
      obtain ⟨-, hrequested⟩ := hdb.paired.session_of_claimed hr hl hlease
      obtain ⟨y, hy, hyid, -⟩ := hdb.registered.reservation r hr
      have hpos : l.requestedSessionId ≠ 0 := by
        rw [hrequested, ← hyid]
        exact hdb.registered.positive y hy
      exact congrArg some (hplace.requested.resolve_left hpos)
  · rw [hsessions]
    rcases hmem x hx with ⟨hx, -⟩ | rfl
    · exact hdb.seated.seat x hx hslot
    · exact ⟨s, hs, rfl, slot, rfl, hlt⟩
  · -- The free slot is the slot of no other holder.
    have hfresh : ∀ y ∈ db.leases, y.holds s.id = true → y.slotIndex ≠ some slot := by
      intro y hy hyh hsome
      exact hfree y hy hyh (by simp [hsome])
    rcases hmem a ha with ⟨ha, -⟩ | rfl <;> rcases hmem b hb with ⟨hb, -⟩ | rfl
    · exact hdb.seated.distinct a ha b hb sid hah hbh hindex
    · exact (hfresh a ha (hholds sid hbh ▸ hah) hindex).elim
    · exact (hfresh b hb (hholds sid hah ▸ hbh) hindex.symm).elim
    · rfl
  · rw [hsessions] at hx
    have hload := hdb.seated.load x hx
    have hle := hused x.id
    by_cases hid : x.id = s.id
    · have hxs : x = s := Table.eq_of_key_eq hx hs hid
      subst hxs
      rw [if_pos rfl] at hle
      omega
    · rw [if_neg hid] at hle
      have hheld' : db'.held x.id ≤ db.held x.id := by
        refine hrows.count_le fun r r' hm hr ↦ ?_
        simp only [Reservation.holds, Bool.and_eq_true, beq_iff_eq] at hr ⊢
        refine ⟨hm.session ▸ hr.1, ?_⟩
        rcases hm.state with hsame | ⟨-, -, hclaimed, -⟩
        · exact hsame ▸ hr.2
        · rw [hclaimed]
          rfl
      omega

theorem Sound.place (hdb : Sound db) (hl : l ∈ db.leases) (hq : l.state = .queued)
    (hs : s ∈ db.sessions) (hplace : Placeable db l s) (hslot : db.freeSlot s = some slot) :
    Sound (place l s.id slot offerExpires now db) := by
  have hrun : db.Running s.id := hdb.registered.running
    ⟨s, hs, rfl, hdb.registered.assignable s hs hplace.assignable⟩
  have hmoves : Moves (· ≠ .profiles) (Pool.seatLease l s.id slot offerExpires now db)
      (Pool.place l s.id slot offerExpires now db) := moves_place hrun fun h ↦ h rfl
  exact hmoves.sound (hdb.seatLease hl hq hs hplace hslot)

end Place

theorem Sound.grantWave {db : Db} {leaseIds : List ℕ} {now : Time} {s : Session} (hdb : Sound db)
    (hs : s ∈ db.sessions) (hassign : s.state.assignable = true) :
    Sound (grantWave s.id leaseIds now db) := by
  have hleases := grantWave_leases hs leaseIds now
  have hsessions := grantWave_sessions hs leaseIds now
  have hstarted : ∀ sid, db.Started sid → (Pool.grantWave s.id leaseIds now db).Started sid := by
    rintro sid ⟨y, hy, hid, hstart⟩
    obtain ⟨x, hx, hm⟩ := hsessions.exists_right hy
    exact ⟨x, hx, (hm.same (·.id) fun _ ↦ rfl).trans hid, by rw [hm.same (·.startedAt) fun _ ↦ rfl, hstart]⟩
  have hexactOf : ∀ {l l' : Lease}, PermitMove s leaseIds l l' →
      l'.exactSessionReservationId = l.exactSessionReservationId :=
    fun hm ↦ congrArg LeaseTerms.exactSessionReservationId hm.terms
  have hused : ∀ sid, (Pool.grantWave s.id leaseIds now db).used sid ≤ db.used sid := fun sid ↦
    hleases.count_le fun l l' hm h ↦ hm.holds ▸ h
  refine
    ⟨{ positive := fun x hx ↦ ?_
       unregistered := fun x hx hnone ↦ ?_
       token := fun x hx ↦ ?_
       starting := fun x hx ↦ ?_
       sealed_ := fun x hx hsealed ↦ ?_
       lease := fun l' hl' sid hsid ↦ ?_
       reservation := fun r hr ↦ hstarted _ (hdb.registered.reservation r hr)
       admission := fun a ha ↦ hstarted _ (hdb.registered.admission a ha) },
     { positive := hdb.paired.positive
       claimed := fun r hr k hk ↦ ?_
       authorized := fun l' hl' hne ↦ ?_
       exact := fun l' hl' hne hslot ↦ ?_ },
     { seat := fun l' hl' hslot ↦ ?_
       distinct := fun a' ha' b' hb' sid hah hbh hindex ↦ ?_
       load := fun x hx ↦ ?_ }⟩
  · obtain ⟨y, hy, hm⟩ := hsessions.exists_left hx
    exact (hm.same (·.id) fun _ ↦ rfl) ▸ hdb.registered.positive y hy
  · obtain ⟨y, hy, hm⟩ := hsessions.exists_left hx
    rw [hm.same (·.startedAt) fun _ ↦ rfl] at hnone
    exact (hdb.registered.unregistered y hy hnone).of_same (hm.same (·.state) fun _ ↦ rfl)
      (hm.same (·.failureMessage) fun _ ↦ rfl) (hm.same (·.quarantineReason) fun _ ↦ rfl)
  · obtain ⟨y, hy, hm⟩ := hsessions.exists_left hx
    rw [hm.same (·.hostTokenHash) fun _ ↦ rfl, hm.same (·.startedAt) fun _ ↦ rfl]
    exact hdb.registered.token y hy
  · obtain ⟨y, hy, hm⟩ := hsessions.exists_left hx
    rw [hm.same (·.state) fun _ ↦ rfl, hm.same (·.startedAt) fun _ ↦ rfl]
    exact hdb.registered.starting y hy
  · obtain ⟨y, hy, hm⟩ := hsessions.exists_left hx
    rw [hm.same (·.startedAt) fun _ ↦ rfl]
    by_cases hid : y.id = s.id
    · exact (hm.granted hid).1 ▸ hdb.registered.assignable s hs hassign
    · rw [hm.kept hid] at hsealed
      exact hdb.registered.sealed_ y hy hsealed
  · obtain ⟨l, hl, hm⟩ := hleases.exists_left hl'
    exact hstarted sid (hdb.registered.lease l hl sid (hm.session ▸ hsid))
  · obtain ⟨l, hl, hid, hexact, hrequested⟩ := hdb.paired.claimed r hr k hk
    obtain ⟨l', hl', hm⟩ := hleases.exists_right hl
    exact ⟨l', hl', hm.id.trans hid, (hexactOf hm).trans hexact,
      (congrArg LeaseTerms.requestedSessionId hm.terms).trans hrequested⟩
  · obtain ⟨l, hl, hm⟩ := hleases.exists_left hl'
    obtain ⟨r, hr, hid, hlease⟩ := hdb.paired.authorized l hl (hexactOf hm ▸ hne)
    exact ⟨r, hr, hid.trans (hexactOf hm).symm, by rw [hlease, hm.id]⟩
  · obtain ⟨l, hl, hm⟩ := hleases.exists_left hl'
    rw [hm.session, show l'.requestedSessionId = l.requestedSessionId from
      congrArg LeaseTerms.requestedSessionId hm.terms]
    exact hdb.paired.exact l hl (hexactOf hm ▸ hne) (hm.state ▸ hslot)
  · obtain ⟨l, hl, hm⟩ := hleases.exists_left hl'
    obtain ⟨y, hy, hsid, i, hi, hlt⟩ := hdb.seated.seat l hl (hm.state ▸ hslot)
    obtain ⟨x, hx, hxm⟩ := hsessions.exists_right hy
    exact ⟨x, hx, by rw [hm.session, hsid, hxm.same (·.id) fun _ ↦ rfl], i, hm.slot.trans hi,
      (hxm.same (·.slotsTotal) fun _ ↦ rfl) ▸ hlt⟩
  · obtain ⟨a, ha, ham⟩ := hleases.exists_left ha'
    obtain ⟨b, hb, hbm⟩ := hleases.exists_left hb'
    have hab : a = b := hdb.seated.distinct a ha b hb sid (ham.holds ▸ hah) (hbm.holds ▸ hbh)
      (by rw [← ham.slot, ← hbm.slot, hindex])
    exact Table.eq_of_key_eq ha' hb' (ham.id.trans (hab ▸ hbm.id.symm))
  · obtain ⟨y, hy, hm⟩ := hsessions.exists_left hx
    have hload := hdb.seated.load y hy
    have hheld : (Pool.grantWave s.id leaseIds now db).held y.id = db.held y.id := rfl
    have hle := hused y.id
    rw [hm.same (·.id) fun _ ↦ rfl, hm.same (·.slotsTotal) fun _ ↦ rfl]
    omega

theorem sound_empty : Sound {} where
  registered := by constructor <;> simp [Table.mem_def, Table.empty]
  paired := by constructor <;> simp [Table.mem_def, Table.empty]
  seated := by constructor <;> simp [Table.mem_def, Table.empty]

theorem Moves.scheduler (db : Db) (tasks : Table Task) (allocations : Table Allocation)
    (settings : List (String × String)) (cursor : ℕ) :
    Moves (fun _ ↦ True) db { db with tasks, allocations, settings, placementCursor := cursor } :=
  .of_same rfl rfl rfl rfl rfl

theorem sound_rules {C : Db → Write → Prop} : WriteRules C Sound Sound where
  plain hdb _ _ _ hmoves _ := hmoves.sound hdb
  reserve hdb hmem hs _ _ := hdb.reserve hs hmem
  openCanary hdb hmem hs _ _ := hdb.openCanary _ _ _ _ hs hmem
  admitLease hdb hguard _ _ := hdb.admitLease hguard.1
  place hdb hl hq hs hplace hslot _ _ := hdb.place hl hq hs hplace hslot
  grantWave hdb hs hgrant _ _ := hdb.grantWave hs hgrant.assignable
  startSession hdb _ := hdb.startSession
  scheduler tasks allocations settings cursor hdb :=
    (Moves.scheduler _ tasks allocations settings cursor).sound hdb

theorem sound_invariant {C : Db → Write → Prop} : Invariant C Sound :=
  ⟨sound_empty, fun hdb hguard hC hp ↦ sound_rules.exec (fun _ h ↦ h) hdb hguard hC hp,
    (sound_rules (C := C)).scheduler⟩

/-- An invariant that relies on the references and the slots. -/
theorem WriteRules.stable {C : Db → Write → Prop} {I P : Db → Prop} (h : WriteRules C I P)
    (hI : ∀ db, I db → Sound db) : Stable C I P :=
  ⟨fun hdb hguard hC hp ↦ h.exec hI hdb hguard hC hp, h.scheduler⟩

theorem WriteRules.invariant {C : Db → Write → Prop} {P : Db → Prop} (hstart : P {})
    (h : WriteRules C (fun db ↦ Sound db ∧ P db) P) : Invariant C fun db ↦ Sound db ∧ P db :=
  sound_invariant.and hstart (h.stable fun _ hdb ↦ hdb.1)

def Db.passesOver (db : Db) (sid : ℕ) (p : Session → Bool) : Bool :=
  db.sessions.rows.all fun s ↦ s.id != sid || !p s

theorem Db.passesOver_row {db : Db} {sid : ℕ} {p : Session → Bool} {f : Session → Session}
    {hf : ∀ s, Keyed.key (f s) = Keyed.key s} {s s' : Session} (h : db.passesOver sid p = true)
    (hs : s ∈ db.sessions) (hs' : s' ∈ (db.onSessions p f hf).sessions) (hid : s'.id = s.id)
    (hsid : s.id = sid) : s' = s := by
  simp only [Db.passesOver, List.all_eq_true, Bool.or_eq_true, bne_iff_ne, ne_eq,
    Bool.not_eq_true'] at h
  have hp : p s = false := (h s hs).resolve_left fun hne ↦ hne hsid
  rw [Db.onSessions_row hs hs' hid, hp]
  rfl

/-- What the writes do to a session that satisfies `Q`. -/
structure SessionRules (C : Db → Write → Prop) (I : Db → Prop) (Q : Session → Prop) : Prop where
  plain : ∀ {db : Db} {w : Write} {s s' : Session}, I db → Guard db w → C db w → s ∈ db.sessions →
    s' ∈ (w.exec db).sessions → SessionMove (fun a ↦ w.keeps a = true) s s' → Q s → Q s'
  placed : ∀ {db : Db} {s s' : Session}, I db → s ∈ db.sessions →
    SessionMove (· ≠ .profiles) s s' → Q s → Q s'
  granted : ∀ {db : Db} {s : Session} {leaseIds : List ℕ} (now : Time), I db → s ∈ db.sessions →
    Grantable db leaseIds s → Q s → Q (s.sealedWave now)

namespace SessionRules

variable {C : Db → Write → Prop} {I : Db → Prop} {Q : Session → Prop}

/-- Every session of a table without new rows has been a session before. -/
theorem moved_place {db : Db} {l : Lease} {s : Session} {slot : ℕ} {offerExpires now : Time}
    (hdb : Sound db) (hs : s ∈ db.sessions) (hassign : s.state.assignable = true) :
    Table.Moved (SessionMove (· ≠ .profiles)) db.sessions
      (place l s.id slot offerExpires now db).sessions := by
  have hrun := hdb.registered.running ⟨s, hs, rfl, hdb.registered.assignable s hs hassign⟩
  have hmoves : Moves (· ≠ .profiles) (seatLease l s.id slot offerExpires now db)
      (place l s.id slot offerExpires now db) := moves_place hrun fun h ↦ h rfl
  have hsessions := hmoves.sessions
  rwa [seatLease_sessions] at hsessions

theorem some_session (h : SessionRules C I Q) (hI : ∀ db, I db → Sound db) :
    WriteRules C I fun db ↦ ∃ s ∈ db.sessions, Q s where
  plain := by
    rintro db w hdb hguard hC - hmoves ⟨s, hs, hq⟩
    obtain ⟨s', hs', hm⟩ := hmoves.sessions.exists_right hs
    exact ⟨s', hs', h.plain hdb hguard hC hs hs' hm hq⟩
  reserve {db terms tasks now _} _ _ _ _ hq := by
    obtain ⟨_, hframe⟩ := reserve_frame terms tasks now db
    rwa [hframe]
  openCanary {db sid group profile slots expires now _} _ _ _ _ hq := by
    obtain ⟨_, hframe⟩ := openCanary_frame sid group profile slots expires now db
    rwa [hframe]
  admitLease _ _ _ hq := by rwa [admitLease_sessions]
  place := by
    rintro db l x slot offerExpires now hdb - - hx hplace - - ⟨s, hs, hq⟩
    obtain ⟨s', hs', hm⟩ := (moved_place (hI db hdb) hx hplace.assignable).exists_right hs
    exact ⟨s', hs', h.placed hdb hs hm hq⟩
  grantWave := by
    rintro db x leaseIds now hdb hx hgrant - ⟨s, hs, hq⟩
    obtain ⟨s', hs', hm⟩ := (grantWave_sessions hx leaseIds now).exists_right hs
    refine ⟨s', hs', ?_⟩
    by_cases hid : s.id = x.id
    · obtain ⟨rfl, rfl⟩ := hm.granted hid
      exact h.granted now hdb hs hgrant hq
    · rwa [hm.kept hid]
  startSession := by
    rintro db key accountName nodeName allocationId slots now - ⟨s, hs, hq⟩
    exact ⟨s, mem_startSession.mpr (.inl hs), hq⟩
  scheduler _ _ _ _ hq := hq

theorem all_sessions (h : SessionRules C I Q) (hI : ∀ db, I db → Sound db)
    (hnew : ∀ key allocationId accountName nodeName slots now id,
      Q (newSession key allocationId accountName nodeName slots now id)) :
    WriteRules C I fun db ↦ ∀ s ∈ db.sessions, Q s where
  plain := by
    intro db w hdb hguard hC _ hmoves hq s' hs'
    obtain ⟨s, hs, hm⟩ := hmoves.sessions.exists_left hs'
    exact h.plain hdb hguard hC hs hs' hm (hq s hs)
  reserve {db terms tasks now _} _ _ _ _ hq := by
    obtain ⟨_, hframe⟩ := reserve_frame terms tasks now db
    rwa [hframe]
  openCanary {db sid group profile slots expires now _} _ _ _ _ hq := by
    obtain ⟨_, hframe⟩ := openCanary_frame sid group profile slots expires now db
    rwa [hframe]
  admitLease _ _ _ hq := by rwa [admitLease_sessions]
  place := by
    intro db l x slot offerExpires now hdb _ _ hx hplace _ _ hq s' hs'
    obtain ⟨s, hs, hm⟩ := (moved_place (hI db hdb) hx hplace.assignable).exists_left hs'
    exact h.placed hdb hs hm (hq s hs)
  grantWave := by
    intro db x leaseIds now hdb hx hgrant _ hq s' hs'
    obtain ⟨s, hs, hm⟩ := (grantWave_sessions hx leaseIds now).exists_left hs'
    by_cases hid : s.id = x.id
    · obtain ⟨rfl, rfl⟩ := hm.granted hid
      exact h.granted now hdb hs hgrant (hq s hs)
    · rw [hm.kept hid]
      exact hq s hs
  startSession := by
    intro db key accountName nodeName allocationId slots now _ hq s hs
    rcases mem_startSession.mp hs with hs | rfl
    · exact hq s hs
    · exact hnew _ _ _ _ _ _ _
  scheduler _ _ _ _ hq := hq

theorem invariant (h : SessionRules C Sound Q)
    (hnew : ∀ key allocationId accountName nodeName slots now id,
      Q (newSession key allocationId accountName nodeName slots now id)) :
    Invariant C fun db ↦ Sound db ∧ ∀ s ∈ db.sessions, Q s := by
  have hstable := (h.all_sessions (fun _ hdb ↦ hdb) hnew).stable fun _ hdb ↦ hdb
  refine sound_invariant.and ?_ (hstable.mono (fun _ hdb ↦ hdb.1) fun _ _ hC ↦ hC)
  simp [Table.mem_def, Table.empty]

end SessionRules

theorem place_leases_eq (l : Lease) (sid slot : ℕ) (offerExpires now : Time) (db : Db) :
    (place l sid slot offerExpires now db).leases =
      (seatLease l sid slot offerExpires now db).leases := by
  unfold place
  dsimp only
  split <;> rfl

/-- What the writes do to a lease that satisfies `Q`. -/
structure LeaseRules (C : Db → Write → Prop) (I : Db → Prop) (Q : Lease → Prop) : Prop where
  plain : ∀ {db : Db} {w : Write} {l l' : Lease}, I db → Guard db w → C db w → l ∈ db.leases →
    l' ∈ (w.exec db).leases → LeaseMove (fun a ↦ w.keeps a = true) l l' → Q l → Q l'
  seated : ∀ {db : Db} {l : Lease} {s : Session} {slot : ℕ} {offerExpires now : Time}, I db →
    C db (.place l s.id slot offerExpires now) → l ∈ db.leases → l.state = .queued →
    s ∈ db.sessions → Placeable db l s → Q l →
    Q (l.seated s.id slot l.offerState offerExpires now)
  granted : ∀ {db : Db} {s : Session} {leaseIds : List ℕ} {now : Time} {l l' : Lease}, I db →
    C db (.grantWave s.id leaseIds now) → s ∈ db.sessions → Grantable db leaseIds s →
    l ∈ db.leases → PermitMove s leaseIds l l' → Q l → Q l'

theorem LeaseRules.some_lease {C : Db → Write → Prop} {I : Db → Prop} {Q : Lease → Prop}
    (h : LeaseRules C I Q) : WriteRules C I fun db ↦ ∃ l ∈ db.leases, Q l where
  plain := by
    rintro db w hdb hguard hC - hmoves ⟨l, hl, hq⟩
    obtain ⟨l', hl', hm⟩ := hmoves.leases.exists_right hl
    exact ⟨l', hl', h.plain hdb hguard hC hl hl' hm hq⟩
  reserve {db terms tasks now _} _ _ _ _ hq := by
    obtain ⟨_, hframe⟩ := reserve_frame terms tasks now db
    rwa [hframe]
  openCanary {db sid group profile slots expires now _} _ _ _ _ hq := by
    obtain ⟨_, hframe⟩ := openCanary_frame sid group profile slots expires now db
    rwa [hframe]
  admitLease := by
    rintro db q reservation canary now - - - ⟨l, hl, hq⟩
    exact ⟨l, (mem_admitLease _ _ _ _ _).mpr (.inl hl), hq⟩
  place := by
    rintro db x s slot offerExpires now hdb hx hqueued hs hplace - hC ⟨l, hl, hq⟩
    obtain ⟨l', hl', hm⟩ := (seatLease_leases s.id slot offerExpires now hx hqueued).exists_right hl
    rw [← place_leases_eq] at hl'
    refine ⟨l', hl', ?_⟩
    by_cases hid : l.id = x.id
    · obtain ⟨rfl, rfl⟩ := hm.seated hid
      exact h.seated hdb hC hl hqueued hs hplace hq
    · rwa [hm.kept hid]
  grantWave := by
    rintro db s leaseIds now hdb hs hgrant hC ⟨l, hl, hq⟩
    obtain ⟨l', hl', hm⟩ := (grantWave_leases hs leaseIds now).exists_right hl
    exact ⟨l', hl', h.granted hdb hC hs hgrant hl hm hq⟩
  startSession _ hq := hq
  scheduler _ _ _ _ hq := hq

theorem LeaseRules.all_leases {C : Db → Write → Prop} {I : Db → Prop} {Q : Lease → Prop}
    (h : LeaseRules C I Q)
    (hnew : ∀ q reservation canary now id, Q (newLease q reservation canary now id)) :
    WriteRules C I fun db ↦ ∀ l ∈ db.leases, Q l where
  plain := by
    intro db w hdb hguard hC _ hmoves hq l' hl'
    obtain ⟨l, hl, hm⟩ := hmoves.leases.exists_left hl'
    exact h.plain hdb hguard hC hl hl' hm (hq l hl)
  reserve {db terms tasks now _} _ _ _ _ hq := by
    obtain ⟨_, hframe⟩ := reserve_frame terms tasks now db
    rwa [hframe]
  openCanary {db sid group profile slots expires now _} _ _ _ _ hq := by
    obtain ⟨_, hframe⟩ := openCanary_frame sid group profile slots expires now db
    rwa [hframe]
  admitLease := by
    intro db q reservation canary now _ _ _ hq l hl
    rcases (mem_admitLease _ _ _ _ _).mp hl with hl | rfl
    · exact hq l hl
    · exact hnew _ _ _ _ _
  place := by
    intro db x s slot offerExpires now hdb hx hqueued hs hplace _ hC hq l' hl'
    rw [place_leases_eq] at hl'
    obtain ⟨l, hl, hm⟩ := (seatLease_leases s.id slot offerExpires now hx hqueued).exists_left hl'
    by_cases hid : l.id = x.id
    · obtain ⟨rfl, rfl⟩ := hm.seated hid
      exact h.seated hdb hC hl hqueued hs hplace (hq l hl)
    · rw [hm.kept hid]
      exact hq l hl
  grantWave := by
    intro db s leaseIds now hdb hs hgrant hC hq l' hl'
    obtain ⟨l, hl, hm⟩ := (grantWave_leases hs leaseIds now).exists_left hl'
    exact h.granted hdb hC hs hgrant hl hm (hq l hl)
  startSession _ hq := hq
  scheduler _ _ _ _ hq := hq

end SlurmScheduler.Pool
