import SlurmScheduler.Pool.PlainWrites

namespace SlurmScheduler.Pool

open Relational

variable {db : Db}

theorem openCanary_frame (sid : ℕ) (group profile : String)
    (slots : List (String × String × String)) (expires now : Time) (db : Db) :
    ∃ canarySlots, openCanary sid group profile slots expires now db =
      { db with
        admissions := db.admissions.insert fun id ↦
          { id, sessionId := sid, placementGroup := group, sessionProfile := profile
            expectedProjects := slots.length, expiresAt := expires, createdAt := now
            updatedAt := now }
        canarySlots } := by
  unfold openCanary
  dsimp only
  generalize db.admissions.nextKey = admissionId
  suffices h : ∀ d : Db, ∃ canarySlots, slots.foldl (fun db slot ↦ { db with
      canarySlots := db.canarySlots.insert fun id ↦
        { id, admissionId, dedupeKey := slot.1, workloadFamily := slot.2.1
          projectNamespace := slot.2.2, createdAt := now, updatedAt := now } }) d =
      { d with canarySlots } from h _
  induction slots with
  | nil => exact fun d ↦ ⟨d.canarySlots, rfl⟩
  | cons slot slots ih => exact fun d ↦ ih _

section ClaimCanarySlot

variable (slotId admissionId leaseId : ℕ) (now : Time) (db : Db)

theorem claimCanarySlot_sessions :
    (claimCanarySlot slotId admissionId leaseId now db).sessions = db.sessions := by
  unfold claimCanarySlot
  dsimp only
  split <;> rfl

theorem claimCanarySlot_leases :
    (claimCanarySlot slotId admissionId leaseId now db).leases = db.leases := by
  unfold claimCanarySlot
  dsimp only
  split <;> rfl

theorem claimCanarySlot_reservations :
    (claimCanarySlot slotId admissionId leaseId now db).reservations = db.reservations := by
  unfold claimCanarySlot
  dsimp only
  split <;> rfl

structure FillMove (admissionId : ℕ) (a a' : Admission) : Prop where
  id : a'.id = a.id
  session : a'.sessionId = a.sessionId
  expected : a'.expectedProjects = a.expectedProjects
  state : a'.state = a.state ∨ (a.id = admissionId ∧ a.state = .open ∧ a'.state = .filled)

theorem FillMove.refl (a : Admission) : FillMove admissionId a a := ⟨rfl, rfl, rfl, .inl rfl⟩

theorem claimCanarySlot_admissions :
    Table.Moved (FillMove admissionId) db.admissions
      (claimCanarySlot slotId admissionId leaseId now db).admissions := by
  unfold claimCanarySlot
  dsimp only
  split
  · refine Db.admissions_moved (fun a _ ha ↦ ?_) fun a _ _ ↦ .refl admissionId a
    simp only [Bool.and_eq_true, beq_iff_eq] at ha
    exact ⟨rfl, rfl, rfl, .inr ⟨ha.1, ha.2, rfl⟩⟩
  · exact .refl fun a _ ↦ .refl admissionId a

end ClaimCanarySlot

def Reservation.claimedBy (leaseId : ℕ) (now : Time) (r : Reservation) : Reservation :=
  { r with state := .claimed, leaseId := some leaseId, claimedAt := some now, updatedAt := now }

structure ClaimMove (reservation : Option Reservation) (leaseId : ℕ) (now : Time)
    (r r' : Reservation) : Prop where
  kept : reservation ≠ some r → r' = r
  claimed : reservation = some r → r' = r.claimedBy leaseId now

namespace ClaimMove

variable {reservation : Option Reservation} {leaseId : ℕ} {now : Time} {r r' : Reservation}

theorem same (h : ClaimMove reservation leaseId now r r') : r'.id = r.id ∧
    r'.reservationKey = r.reservationKey ∧ r'.taskId = r.taskId ∧ r'.sessionId = r.sessionId := by
  by_cases hr : reservation = some r
  · rw [h.claimed hr]
    exact ⟨rfl, rfl, rfl, rfl⟩
  · rw [h.kept hr]
    exact ⟨rfl, rfl, rfl, rfl⟩

end ClaimMove

section AdmitLease

variable (q : LeaseRequest) (reservation : Option Reservation)
  (canary : Option (CanarySlot × Admission)) (now : Time) (db : Db)

theorem admitLease_sessions :
    (admitLease q reservation canary now db).sessions = db.sessions := by
  unfold admitLease
  cases canary <;> cases reservation <;> simp only [claimCanarySlot_sessions] <;> rfl

theorem admitLease_leases : (admitLease q reservation canary now db).leases =
    (insertLease q reservation canary now db).leases := by
  unfold admitLease
  cases canary <;> cases reservation <;> simp only [claimCanarySlot_leases] <;> rfl

theorem mem_admitLease {l : Lease} : l ∈ (admitLease q reservation canary now db).leases ↔
    l ∈ db.leases ∨ l = newLease q reservation canary now db.leases.nextKey := by
  rw [admitLease_leases]
  exact @Table.mem_insert Lease _ db.leases (newLease q reservation canary now) (fun _ ↦ rfl) l

theorem admitLease_used (sid : ℕ) :
    (admitLease q reservation canary now db).used sid = db.used sid := by
  unfold Db.used
  rw [admitLease_leases]
  refine (@Table.count_insert Lease _ db.leases (newLease q reservation canary now) (fun _ ↦ rfl)
    (·.holds sid)).trans ?_
  simp [Lease.holds, newLease]

variable {reservation} in
theorem admitLease_reservations (hres : ∀ r, reservation = some r →
      r ∈ db.reservations ∧ r.state = .reserved ∧ r.leaseId = none ∧ r.taskId = q.taskId) :
    Table.Moved (ClaimMove reservation db.leases.nextKey now) db.reservations
      (admitLease q reservation canary now db).reservations := by
  have hsame : (admitLease q reservation canary now db).reservations =
      (reservation.elim (insertLease q reservation canary now db) fun r ↦
        claimReservation r.id db.leases.nextKey now
          (insertLease q reservation canary now db)).reservations := by
    unfold admitLease
    cases canary <;> cases reservation <;> simp only [claimCanarySlot_reservations] <;> rfl
  rw [hsame]
  cases reservation with
  | none => exact .refl fun r _ ↦ ⟨fun _ ↦ rfl, (by rintro ⟨⟩)⟩
  | some x =>
      obtain ⟨hx, hreserved, hnone, -⟩ := hres x rfl
      refine Db.reservations_moved (fun r hr hp ↦ ?_) fun r hr hp ↦ ?_
      · simp only [Bool.and_eq_true, beq_iff_eq] at hp
        have hrx : r = x := Table.eq_of_key_eq hr hx hp.1.1
        subst hrx
        exact ⟨fun h ↦ (h rfl).elim, fun _ ↦ rfl⟩
      · refine ⟨fun _ ↦ rfl, fun h ↦ ?_⟩
        cases h
        simp [hreserved, hnone] at hp

theorem admitLease_admissions : Table.Moved (FillMove ((canary.map (·.2.id)).getD 0)) db.admissions
    (admitLease q reservation canary now db).admissions := by
  cases canary with
  | none => cases reservation <;> exact .refl fun a _ ↦ .refl _ a
  | some c =>
      cases reservation with
      | none => exact claimCanarySlot_admissions c.1.id c.2.id _ now (insertLease q none (some c) now db)
      | some r =>
          exact claimCanarySlot_admissions c.1.id c.2.id _ now
            (claimReservation r.id _ now (insertLease q (some r) (some c) now db))

end AdmitLease

theorem mem_startSession {key accountName nodeName : String} {allocationId slots : ℕ} {now : Time}
    {s : Session} : s ∈ (startSession key allocationId accountName nodeName slots now db).sessions ↔
      s ∈ db.sessions ∨
        s = newSession key allocationId accountName nodeName slots now db.sessions.nextKey :=
  @Table.mem_insert Session _ db.sessions
    (newSession key allocationId accountName nodeName slots now) (fun _ ↦ rfl) s

theorem reserve_frame (terms : ReservationTerms) (tasks : List ℕ) (now : Time) (db : Db) :
    ∃ reservations, reserve terms tasks now db = { db with reservations } := by
  unfold reserve
  induction tasks generalizing db with
  | nil => exact ⟨_, rfl⟩
  | cons taskId tasks ih => exact ih (reserveSlot terms now db taskId)

structure SeatMove (l : Lease) (sid slot : ℕ) (offerExpires now : Time) (x x' : Lease) : Prop where
  kept : x.id ≠ l.id → x' = x
  seated : x.id = l.id → x = l ∧ x' = l.seated sid slot l.offerState offerExpires now

section SeatLease

variable {l : Lease} (sid slot : ℕ) (offerExpires now : Time)

theorem seatLease_sessions : (seatLease l sid slot offerExpires now db).sessions = db.sessions := by
  unfold seatLease
  dsimp only
  split <;> rfl

theorem seatLease_admissions :
    (seatLease l sid slot offerExpires now db).admissions = db.admissions := by
  unfold seatLease
  dsimp only
  split <;> rfl

theorem seatLease_leases (hl : l ∈ db.leases) (hq : l.state = .queued) :
    Table.Moved (SeatMove l sid slot offerExpires now) db.leases
      (seatLease l sid slot offerExpires now db).leases := by
  have hsame : (seatLease l sid slot offerExpires now db).leases =
      (db.onLeases (fun x ↦ x.id == l.id && x.state == .queued)
        (Lease.seated sid slot l.offerState offerExpires now) fun _ ↦ rfl).leases := by
    unfold seatLease
    dsimp only
    split <;> rfl
  rw [hsame]
  refine Db.leases_moved (fun x hx hp ↦ ?_) fun x hx hp ↦ ?_
  · simp only [Bool.and_eq_true, beq_iff_eq] at hp
    have hxl : x = l := Table.eq_of_key_eq hx hl hp.1
    subst hxl
    exact ⟨fun h ↦ (h rfl).elim, fun _ ↦ ⟨rfl, rfl⟩⟩
  · refine ⟨fun _ ↦ rfl, fun hid ↦ ?_⟩
    have hxl : x = l := Table.eq_of_key_eq hx hl hid
    subst hxl
    simp [hq] at hp

theorem seatLease_used_le (hl : l ∈ db.leases) (hq : l.state = .queued) (sid' : ℕ) :
    (seatLease l sid slot offerExpires now db).used sid' ≤
      db.used sid' + if sid' = sid then 1 else 0 := by
  have hleases : (seatLease l sid slot offerExpires now db).leases =
      (db.onLeases (fun x ↦ x.id == l.id && x.state == .queued)
        (Lease.seated sid slot l.offerState offerExpires now) fun _ ↦ rfl).leases := by
    unfold seatLease
    dsimp only
    split <;> rfl
  split
  · refine (congrArg (Table.count · (·.holds sid')) hleases).le.trans ?_
    refine Db.used_onLeases_le_succ sid' fun a ha b hb hpa hpb ↦ ?_
    simp only [Bool.and_eq_true, beq_iff_eq] at hpa hpb
    exact Table.eq_of_key_eq ha hb (hpa.1.trans hpb.1.symm)
  · rename_i hne
    refine (seatLease_leases sid slot offerExpires now hl hq).count_le fun x x' hm hholds ↦ ?_
    by_cases hid : x.id = l.id
    · rw [(hm.seated hid).2] at hholds
      simp only [Lease.holds, Lease.seated, Bool.and_eq_true, beq_iff_eq, Option.some.injEq]
        at hholds
      exact (hne hholds.1.symm).elim
    · rwa [hm.kept hid] at hholds

structure ConsumeMove (l : Lease) (r r' : Reservation) : Prop where
  id : r'.id = r.id
  key : r'.reservationKey = r.reservationKey
  task : r'.taskId = r.taskId
  session : r'.sessionId = r.sessionId
  lease : r'.leaseId = r.leaseId
  state : r'.state = r.state ∨
    (r.id = l.exactSessionReservationId ∧ r.leaseId = some l.id ∧ r.state = .claimed ∧
      r'.state = .consumed)
  consumed : l.exactSessionReservationId ≠ 0 → r.id = l.exactSessionReservationId →
    r.leaseId = some l.id → r.state = .claimed → r'.state = .consumed

theorem seatLease_reservations :
    Table.Moved (ConsumeMove l) db.reservations
      (seatLease l sid slot offerExpires now db).reservations := by
  unfold seatLease
  dsimp only
  split
  · rename_i h
    exact .refl fun r _ ↦ ⟨rfl, rfl, rfl, rfl, rfl, .inl rfl, fun hne ↦ (hne (by simpa using h)).elim⟩
  · refine Db.reservations_moved (fun r _ hp ↦ ?_) fun r _ hp ↦ ?_
    · simp only [Bool.and_eq_true, beq_iff_eq] at hp
      exact ⟨rfl, rfl, rfl, rfl, rfl, .inr ⟨hp.1.1, hp.2, hp.1.2, rfl⟩, fun _ _ _ _ ↦ rfl⟩
    · refine ⟨rfl, rfl, rfl, rfl, rfl, .inl rfl, fun _ hid hlease hstate ↦ ?_⟩
      simp [hid, hlease, hstate] at hp

end SeatLease

/-- After the lease is seated, placement only does what plain writes do. -/
theorem moves_place {keeps : Aspect → Prop} {l : Lease} {sid slot : ℕ} {offerExpires now : Time}
    (hrun : db.Running sid) (hprofiles : ¬ keeps .profiles) :
    Moves keeps (seatLease l sid slot offerExpires now db)
      (place l sid slot offerExpires now db) := by
  have hrun' : (seatLease l sid slot offerExpires now db).Running sid := by
    unfold Db.Running
    rwa [seatLease_sessions]
  unfold place
  dsimp only
  generalize seatLease l sid slot offerExpires now db = db' at hrun'
  split
  · exact .refreshSession now hrun'
  · have htouch : Moves keeps db' (db'.onSessions (fun s ↦ s.id == sid && s.sessionProfile == "")
        (fun s ↦ { s with sessionProfile := l.sessionProfile, updatedAt := now }) fun _ ↦ rfl) :=
      .touchSessions (fun _ _ _ ↦ .touch rfl rfl rfl rfl (.inr hprofiles) rfl (.inl rfl) rfl rfl)
        (fun _ _ _ ↦ rfl) fun _ ↦ rfl
    exact htouch.trans (.refreshSession now (htouch.running hrun'))

structure PermitMove (s : Session) (leaseIds : List ℕ) (l l' : Lease) : Prop where
  terms : l'.terms = l.terms
  state : l'.state = l.state
  session : l'.sessionId = l.sessionId
  slot : l'.slotIndex = l.slotIndex
  permit : l' = l ∨ (l.sessionId = some s.id ∧ l.state = .active ∧ l.solvePermitAt = none ∧
    l.id ∈ leaseIds ∧ l'.solvePermitAt.isSome = true ∧
    l'.solvePermitGeneration = s.solveBatchGeneration + 1)

theorem PermitMove.id {s : Session} {leaseIds : List ℕ} {l l' : Lease}
    (h : PermitMove s leaseIds l l') : l'.id = l.id := congrArg LeaseTerms.id h.terms

theorem PermitMove.holds {s : Session} {leaseIds : List ℕ} {l l' : Lease} {sid : ℕ}
    (h : PermitMove s leaseIds l l') : l'.holds sid = l.holds sid := by
  unfold Lease.holds
  rw [h.session, h.state]

structure WaveMove (s : Session) (now : Time) (x x' : Session) : Prop where
  kept : x.id ≠ s.id → x' = x
  granted : x.id = s.id → x = s ∧ x' = s.sealedWave now

theorem WaveMove.same {s x x' : Session} {now : Time} (h : WaveMove s now x x') {β : Type}
    (f : Session → β) (hf : ∀ y, f (Session.sealedWave now y) = f y) : f x' = f x := by
  by_cases hid : x.id = s.id
  · obtain ⟨rfl, rfl⟩ := h.granted hid
    exact hf x
  · rw [h.kept hid]

theorem grantWave_sessions {s : Session} (hs : s ∈ db.sessions) (leaseIds : List ℕ) (now : Time) :
    Table.Moved (WaveMove s now) db.sessions (grantWave s.id leaseIds now db).sessions := by
  change Table.Moved _ _ (db.onSessions (·.id == s.id) (Session.sealedWave now) fun _ ↦ rfl).sessions
  refine Db.sessions_moved (fun x hx hp ↦ ?_) fun x hx hp ↦ ?_
  · have hxs : x = s := Table.eq_of_key_eq hx hs (by simpa using hp)
    subst hxs
    exact ⟨fun h ↦ (h rfl).elim, fun _ ↦ ⟨rfl, rfl⟩⟩
  · exact ⟨fun _ ↦ rfl, fun hid ↦ by simp [hid] at hp⟩

theorem grantWave_leases {s : Session} (hs : s ∈ db.sessions) (leaseIds : List ℕ) (now : Time) :
    Table.Moved (PermitMove s leaseIds) db.leases (grantWave s.id leaseIds now db).leases := by
  have hgen : (((db.onSessions (·.id == s.id) (Session.sealedWave now) fun _ ↦ rfl).sessions.find?
      s.id).map (·.solveBatchGeneration)).getD 0 = s.solveBatchGeneration + 1 := by
    have hfind := @Db.find?_onSessions db (·.id == s.id) (Session.sealedWave now)
      (fun _ ↦ rfl) s.id
    rw [show db.sessions.find? s.id = some s from Table.find?_key hs] at hfind
    refine (congrArg (fun o ↦ (o.map (·.solveBatchGeneration)).getD 0) hfind).trans ?_
    simp [Session.sealedWave]
  unfold grantWave
  dsimp only
  refine Db.leases_moved (fun l _ hp ↦ ?_) fun l _ _ ↦
    ⟨rfl, rfl, rfl, rfl, .inl rfl⟩
  simp only [Bool.and_eq_true, beq_iff_eq, Option.isNone_iff_eq_none, List.contains_iff_mem] at hp
  exact ⟨rfl, rfl, rfl, rfl, .inr ⟨hp.1.1.1, hp.1.1.2, hp.1.2, hp.2, rfl, hgen⟩⟩

structure WriteRules (C : Db → Write → Prop) (I P : Db → Prop) : Prop where
  plain : ∀ {db : Db} {w : Write}, I db → Guard db w → C db w → w.plain = true →
    Moves (fun a ↦ w.keeps a = true) db (w.exec db) → P db → P (w.exec db)
  reserve : ∀ {db : Db} {terms : ReservationTerms} {tasks : List ℕ} {now : Time} {s : Session},
    I db → s ∈ db.sessions → Reservable db terms tasks s →
    C db (.reserve terms tasks now) → P db → P (Pool.reserve terms tasks now db)
  openCanary : ∀ {db : Db} {sid : ℕ} {group profile : String}
    {slots : List (String × String × String)} {expires now : Time} {s : Session},
    I db → s ∈ db.sessions → CanaryReady db sid slots.length s →
    C db (.openCanary sid group profile slots expires now) → P db →
    P (Pool.openCanary sid group profile slots expires now db)
  admitLease : ∀ {db : Db} {q : LeaseRequest} {reservation : Option Reservation}
    {canary : Option (CanarySlot × Admission)} {now : Time},
    I db → Guard db (.admitLease q reservation canary now) →
    C db (.admitLease q reservation canary now) → P db →
    P (Pool.admitLease q reservation canary now db)
  place : ∀ {db : Db} {l : Lease} {s : Session} {slot : ℕ} {offerExpires now : Time},
    I db → l ∈ db.leases → l.state = .queued → s ∈ db.sessions → Placeable db l s →
    db.freeSlot s = some slot → C db (.place l s.id slot offerExpires now) → P db →
    P (Pool.place l s.id slot offerExpires now db)
  grantWave : ∀ {db : Db} {s : Session} {leaseIds : List ℕ} {now : Time},
    I db → s ∈ db.sessions → Grantable db leaseIds s → C db (.grantWave s.id leaseIds now) →
    P db → P (Pool.grantWave s.id leaseIds now db)
  startSession : ∀ {db : Db} {key accountName nodeName : String} {allocationId slots : ℕ}
    {now : Time}, I db → P db →
    P (Pool.startSession key allocationId accountName nodeName slots now db)
  scheduler : ∀ {db : Db} (tasks : Table Task) (allocations : Table Allocation)
    (settings : List (String × String)) (cursor : ℕ), P db →
      P { db with tasks, allocations, settings, placementCursor := cursor }

theorem WriteRules.exec {C : Db → Write → Prop} {I P : Db → Prop} (h : WriteRules C I P)
    (hI : ∀ db, I db → Sound db) {db : Db} {w : Write} (hdb : I db) (hguard : Guard db w)
    (hC : C db w) (hp : P db) : P (w.exec db) := by
  obtain hplain | hplain := Bool.eq_false_or_eq_true w.plain
  · exact h.plain hdb hguard hC hplain (moves_of_plain (hI db hdb) hguard hplain) hp
  cases w <;> try (cases hplain; done)
  case reserve terms tasks now =>
    obtain ⟨s, hmem, hs⟩ := hguard
    exact h.reserve hdb hmem hs hC hp
  case openCanary sid group profile slots expires now =>
    obtain ⟨s, hmem, hs⟩ := hguard
    exact h.openCanary hdb hmem hs hC hp
  case admitLease q reservation canary now => exact h.admitLease hdb hguard hC hp
  case place l sid slot offerExpires now =>
    obtain ⟨hl, hq, s, hs, rfl, hplace, hslot⟩ := hguard
    exact h.place hdb hl hq hs hplace hslot hC hp
  case grantWave sid leaseIds now =>
    obtain ⟨s, hs, rfl, hgrant⟩ := hguard
    exact h.grantWave hdb hs hgrant hC hp
  case startSession => exact h.startSession hdb hp

end SlurmScheduler.Pool
