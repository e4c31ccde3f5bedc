import SlurmScheduler.Pool.Moves
import SlurmScheduler.Pool.Service

namespace SlurmScheduler.Pool

open Relational PoolTx

structure Placeable (db : Db) (l : Lease) (s : Session) : Prop where
  assignable : s.state.assignable = true
  unsealed : s.solveBatchSealedAt = none
  unblocked : s.reuseBlockedAt = none
  requested : l.requestedSessionId = 0 ∨ s.id = l.requestedSessionId
  canary : l.mixedCanarySessionId = 0 ∨ s.id = l.mixedCanarySessionId
  uncontended : l.mixedCanarySessionId ≠ 0 ∨ db.canaryReserving s.id = false
  accepted : db.accepts l s = true

structure Reservable (db : Db) (terms : ReservationTerms) (tasks : List ℕ) (s : Session) :
    Prop where
  id : s.id = terms.sessionId
  assignable : s.state.assignable = true
  unsealed : s.solveBatchSealedAt = none
  undrained : s.drainRequestedAt = none
  room : db.used s.id + db.held s.id + tasks.length ≤ s.slotsTotal
  positive : ∀ t ∈ tasks, 0 < t
  distinct : tasks.Nodup
  unreserved : ∀ r ∈ db.reservations, r.state.live = true → r.taskId ∉ tasks
  cohort : (∀ r ∈ db.reservations, r.reservationKey ≠ terms.key) ∨
    ∃ r ∈ db.reservations, r.reservationKey = terms.key ∧ r.sessionId = terms.sessionId

structure CanaryReady (db : Db) (sid size : ℕ) (s : Session) : Prop where
  id : s.id = sid
  ready : s.state = .ready
  slots : size = s.slotsTotal
  unsealed : s.solveBatchSealedAt = none
  empty : db.used sid = 0
  unreserved : db.held sid = 0
  idle : ∀ a ∈ db.admissions, a.sessionId = sid → a.state.pending = false
  refreshed : ∀ a ∈ db.admissions, a.state = .aborting → db.admissionLive a.id = true

structure Grantable (db : Db) (leaseIds : List ℕ) (s : Session) : Prop where
  assignable : s.state.assignable = true
  serial : leaseIds.length ≤ 1
  wave : (s.solveBatchSealedAt = none ∧ ∃ allowUnderfilled, db.sealable s allowUnderfilled = true) ∨
    (s.solveBatchSealedAt.isSome = true ∧
      db.granted s.id s.solveBatchGeneration ≠ [] ∧
      ∀ l ∈ db.granted s.id s.solveBatchGeneration, l.attested s.id s.solveBatchGeneration = true)

def Guard (db : Db) : Write → Prop
  | .failCohort key _ _ _ refresh => refresh = [] ∨ refresh = db.cohortSessions key
  | .releaseTaskReservations _ => ∀ r ∈ db.reservations, r.state.live = true →
      db.taskTerminal r.taskId = true → db.unsealedTarget r = true →
        ∀ x ∈ db.reservations, x.reservationKey = r.reservationKey → x.id ≠ r.id →
          x.state.live = false
  | .reserve terms tasks _ => ∃ s ∈ db.sessions, Reservable db terms tasks s
  | .openCanary sid _ _ slots _ _ => ∃ s ∈ db.sessions, CanaryReady db sid slots.length s
  | .abortCanary admissionId sid _ => ∃ a ∈ db.admissions, a.id = admissionId ∧ a.sessionId = sid
  | .supersedeLease leaseId sid _ _ => ∃ l ∈ db.leases, l.id = leaseId ∧ l.sessionId = sid ∧
      (l.state = .queued ∨ l.state = .offered)
  | .admitLease q reservation canary _ =>
      (∀ r, reservation = some r → r ∈ db.reservations ∧ r.state = .reserved ∧ r.leaseId = none ∧
        r.taskId = q.taskId) ∧
      (∀ c, canary = some c → c.1 ∈ db.canarySlots ∧ c.1.leaseId = none ∧ c.2 ∈ db.admissions ∧
        c.1.admissionId = c.2.id ∧ c.2.state.pending = true) ∧
      (reservation = none ∨ canary = none) ∧
      (q.isolationPolicy = .exclusive → q.exclusiveSession = true)
  | .place l sid slot _ _ => l ∈ db.leases ∧ l.state = .queued ∧
      ∃ s ∈ db.sessions, s.id = sid ∧ Placeable db l s ∧ db.freeSlot s = some slot
  | .revokeOffer l _ _ => l ∈ db.leases ∧ l.state = .offered
  | .requeueOffer l _ => l ∈ db.leases ∧ l.state = .offered
  | .rejectOffer l cohort _ => l ∈ db.leases ∧ l.state = .offered ∧
      cohort = (db.reservations.find? l.exactSessionReservationId).map (·.reservationKey)
  | .activateLease _ state _ _ => state = .leased ∨ state = .attaching
  | .grantWave sid leaseIds _ => ∃ s ∈ db.sessions, s.id = sid ∧ Grantable db leaseIds s
  | .beginRelease leaseId sid _ _ => ∃ l ∈ db.leases, l.id = leaseId ∧ l.sessionId = sid ∧
      (l.state = .leased ∨ l.state.ownsProject = true)
  | .cancelLease leaseId sid _ _ => ∃ l ∈ db.leases, l.id = leaseId ∧ l.sessionId = sid ∧
      l.state.live = true ∧ (l.state.ownsProject = true → sid = none)
  | .expireQueued leaseId _ => ∃ l ∈ db.leases, l.id = leaseId ∧ l.state = .queued
  | .expireOffer leaseId sid _ => ∃ l ∈ db.leases, l.id = leaseId ∧ l.sessionId = sid ∧
      l.state = .offered
  | .completeRelease sid leaseId _ _ _ => ∃ l ∈ db.leases, l.id = leaseId ∧
      l.sessionId = some sid ∧ l.state = .releasing
  | .registerSession sid state _ _ => (state = .ready ∨ state = .draining) ∧
      ∃ s ∈ db.sessions, s.id = sid ∧
        (s.state = .starting ∨ (s.state = .unhealthy ∧ s.startedAt = none))
  | .suspectNative sid _ _ _ _ => ∃ s ∈ db.sessions, s.id = sid ∧ s.hostTokenHash ≠ ""
  | .confirmDeath sid _ _ _ _ => ∃ s ∈ db.sessions, s.id = sid ∧ s.hostTokenHash ≠ ""
  | .recoverSession sid _ => ∃ s ∈ db.sessions, s.id = sid ∧ s.hostTokenHash ≠ ""
  | .reapDeadSession _ state _ _ => state = .unhealthy ∨ state = .draining
  | .closeSession sid aid _ live _ _ => live = db.used sid ∧
      ∃ s ∈ db.sessions, s.id = sid ∧ s.allocationId = aid
  | .refreshSession sid _ => ∃ s ∈ db.sessions, s.id = sid ∧ s.state = .busy
  | .reapStale sid _ => ∃ s ∈ db.sessions, s.id = sid ∧ s.state = .unhealthy
  | .storageDrain sid _ => ∃ s ∈ db.sessions, s.id = sid ∧ s.state.assignable = true ∧
      s.drainRequestedAt = none
  | .drainForScaleIn sid _ => ∃ s ∈ db.sessions, s.id = sid ∧ s.state.assignable = true
  | _ => True

theorem mem_of_find? {α : Type} [Keyed α] {t : Table α} {k : ℕ} {r : α} (h : t.find? k = some r) :
    r ∈ t ∧ Keyed.key r = k := Table.find?_eq_some.mp h

theorem find?_getD_mem {α : Type} [Keyed α] {t : Table α} {k : ℕ} {d : α}
    (h : (t.find? k).isSome = true) : (t.find? k).getD d ∈ t := by
  obtain ⟨r, hr⟩ := Option.isSome_iff_exists.mp h
  rw [hr]
  exact (mem_of_find? hr).1

structure Fades (db db' : Db) : Prop where
  tasks : db'.tasks = db.tasks
  unsealed : ∀ r, db'.unsealedTarget r = db.unsealedTarget r
  rows : Table.Moved ReservationMove db.reservations db'.reservations

namespace Fades

variable {db db' db'' : Db}

theorem refl (db : Db) : Fades db db := ⟨rfl, fun _ ↦ rfl, .refl fun r _ ↦ .refl r⟩

theorem trans (h : Fades db db') (h' : Fades db' db'') : Fades db db'' :=
  ⟨h'.tasks.trans h.tasks, fun r ↦ (h'.unsealed r).trans (h.unsealed r),
    h.rows.trans h'.rows fun _ _ _ ↦ ReservationMove.trans⟩

theorem onLeases {p : Lease → Bool} {f : Lease → Lease}
    {hf : ∀ l, Keyed.key (f l) = Keyed.key l} : Fades db (db.onLeases p f hf) :=
  ⟨rfl, fun _ ↦ rfl, .refl fun r _ ↦ .refl r⟩

theorem onReservations {p : Reservation → Bool} {f : Reservation → Reservation}
    {hf : ∀ r, Keyed.key (f r) = Keyed.key r}
    (h : ∀ r ∈ db.reservations, p r = true → ReservationMove r (f r)) :
    Fades db (db.onReservations p f hf) :=
  ⟨rfl, fun _ ↦ rfl, .update hf h fun r _ _ ↦ .refl r⟩

theorem onSessions {p : Session → Bool} {f : Session → Session}
    {hf : ∀ s, Keyed.key (f s) = Keyed.key s}
    (h : ∀ s, (f s).solveBatchSealedAt = s.solveBatchSealedAt) :
    Fades db (db.onSessions p f hf) := by
  refine ⟨rfl, fun r ↦ ?_, .refl fun r _ ↦ .refl r⟩
  unfold Db.unsealedTarget Db.onSessions
  rw [Table.find?_update]
  cases db.sessions.find? r.sessionId with
  | none => rfl
  | some s => by_cases hp : p s = true <;> simp [hp, h]

theorem blockCohortReuse (key : String) (now : Time) (db : Db) :
    Fades db (blockCohortReuse key now db) := onSessions fun _ ↦ rfl

theorem settleCohortOwners (key : String) (now : Time) (reason : String) (db : Db) :
    Fades db (settleCohortOwners key now reason db) :=
  onLeases.trans (blockCohortReuse key now _)

theorem failCohort (key : String) (now : Time) (reason : String) (settle : Bool) (db : Db) :
    Fades db (failCohort key now reason settle db) := by
  have hsettled : Fades db (if settle then Pool.settleCohortOwners key now reason db else db) := by
    cases settle with
    | false => exact refl db
    | true => exact settleCohortOwners key now reason db
  unfold Pool.failCohort
  refine (hsettled.trans onLeases).trans (onReservations fun r _ hr ↦ ?_)
  simp only [Bool.and_eq_true] at hr
  exact ⟨rfl, rfl, rfl, rfl, rfl, ReservationState.movesTo_of_dead hr.2 rfl⟩

theorem expireCohort (key : String) (now : Time) (db : Db) : Fades db (expireCohort key now db) := by
  unfold Pool.expireCohort
  refine ((onLeases.trans (blockCohortReuse key now _)).trans onLeases).trans
    (onReservations fun r _ hr ↦ ?_)
  simp only [Bool.and_eq_true] at hr
  exact ⟨rfl, rfl, rfl, rfl, rfl, ReservationState.movesTo_of_dead hr.1.2 rfl⟩

theorem releaseTaskReservations (now : Time) (db : Db) :
    Fades db (releaseTaskReservations now db) := by
  refine onReservations fun r _ hr ↦ ?_
  simp only [Bool.and_eq_true] at hr
  exact ⟨rfl, rfl, rfl, rfl, rfl, ReservationState.movesTo_of_dead hr.1 rfl⟩

theorem releaseLeaseReservations (now : Time) (db : Db) :
    Fades db (releaseLeaseReservations now db) := by
  refine onReservations fun r _ hr ↦ ?_
  simp only [Bool.and_eq_true, Bool.or_eq_true, beq_iff_eq] at hr
  exact ⟨rfl, rfl, rfl, rfl, rfl, ReservationState.movesTo_of_dead
    (by rcases hr.1 with h | h <;> rw [h] <;> rfl) rfl⟩

end Fades

def Db.NoTerminalSiblings (db : Db) : Prop :=
  ∀ r ∈ db.reservations, r.state.live = true → db.taskTerminal r.taskId = true →
    db.unsealedTarget r = true → ∀ x ∈ db.reservations, x.reservationKey = r.reservationKey →
      x.id ≠ r.id → x.state.live = false

theorem Fades.noTerminalSiblings {db db' : Db} (h : Fades db db') (hdb : db.NoTerminalSiblings) :
    db'.NoTerminalSiblings := by
  intro r' hr' hlive hterm hunsealed x' hx' hkey hne
  obtain ⟨r, hr, hm⟩ := h.rows.exists_left hr'
  obtain ⟨x, hx, hmx⟩ := h.rows.exists_left hx'
  have hdead := hdb r hr (hm.live hlive) (by
      rw [← hm.task]; simpa only [Db.taskTerminal, h.tasks] using hterm)
    (by
      rw [← h.unsealed r]
      simpa only [Db.unsealedTarget, hm.session] using hunsealed)
    x hx (by rw [← hmx.key, ← hm.key, hkey]) (by rw [← hmx.id, ← hm.id]; exact hne)
  cases hl : x'.state.live with
  | false => rfl
  | true => simp [hmx.live hl] at hdead

/-- The keys that already failed have no live row, and every lost sibling's key either failed
or is still to come. -/
structure SiblingLoop (start : Db) (rest : List (Reservation × TaskStatus)) (failed : List String)
    (db : Db) : Prop where
  fades : Fades start db
  dead : ∀ r ∈ db.reservations, r.reservationKey ∈ failed → r.state.live = false
  covered : ∀ r ∈ start.terminalSiblings, r.reservationKey ∈ failed ∨
    ∃ row ∈ rest, row.1.reservationKey = r.reservationKey

theorem failCohort_dead (key : String) (now : Time) (reason : String) (settle : Bool) (db : Db) :
    ∀ r ∈ (failCohort key now reason settle db).reservations, r.reservationKey = key →
      r.state.live = false := by
  intro r hr hkey
  simp only [failCohort, Db.mem_onReservations] at hr
  obtain ⟨a, -, rfl⟩ := hr
  split
  · rfl
  · rename_i hp
    rw [if_neg hp] at hkey
    simpa [hkey] using hp

theorem failTerminalSiblings_guarded (now : Time) (db : Db) :
    Tx.wp Guard (failTerminalSiblings now)
      (fun _ db' ↦ Fades db db' ∧ db'.NoTerminalSiblings) db := by
  simp only [failTerminalSiblings, Tx.wp_bind, wp_read]
  refine Tx.wp_mono (Tx.wp_fold (I := SiblingLoop db) ?step ?init) ?done
  case init =>
    refine ⟨.refl db, by simp, fun r hr ↦ .inr ⟨_, List.mem_map_of_mem hr, rfl⟩⟩
  case step =>
    intro row rest failed s hs
    rw [Tx.wp_ite]
    refine ⟨fun hmem ↦ ?_, fun hmem ↦ ?_⟩
    · rw [Tx.wp_pure]
      refine ⟨hs.fades, hs.dead, fun r hr ↦ ?_⟩
      rcases hs.covered r hr with h | ⟨x, hx, hkey⟩
      · exact .inl h
      · rcases List.mem_cons.mp hx with rfl | hx
        · exact .inl (by simpa [hkey] using hmem)
        · exact .inr ⟨x, hx, hkey⟩
    · simp only [Tx.wp_bind, wp_write, Tx.wp_pure]
      refine ⟨.inl rfl, hs.fades.trans (Fades.failCohort _ _ _ _ _), fun r hr hkey ↦ ?_,
        fun r hr ↦ ?_⟩
      · rcases List.mem_cons.mp hkey with hkey | hkey
        · exact failCohort_dead _ _ _ _ _ r hr hkey
        · obtain ⟨x, hx, hm⟩ := (Fades.failCohort _ _ _ _ s).rows.exists_left hr
          cases hl : r.state.live with
          | false => rfl
          | true => simpa [hm.live hl] using hs.dead x hx (hm.key ▸ hkey)
      · rcases hs.covered r hr with h | ⟨x, hx, hkey⟩
        · exact .inl (List.mem_cons_of_mem _ h)
        · rcases List.mem_cons.mp hx with rfl | hx
          · exact .inl (by simp [hkey])
          · exact .inr ⟨x, hx, hkey⟩
  case done =>
    intro failed s hs
    refine Tx.wp_pure.mpr ⟨hs.fades, ?_⟩
    intro r hr hlive hterm hunsealed x hx hkey hne
    cases hl : x.state.live with
    | false => rfl
    | true =>
        obtain ⟨r₀, hr₀, hm⟩ := hs.fades.rows.exists_left hr
        obtain ⟨x₀, hx₀, hmx⟩ := hs.fades.rows.exists_left hx
        have hmem : r₀ ∈ db.terminalSiblings := by
          simp only [Db.terminalSiblings, Table.mem_select, Bool.and_eq_true, List.any_eq_true,
            beq_iff_eq, bne_iff_ne, ne_eq]
          refine ⟨hr₀, ⟨⟨hm.live hlive, ?_⟩, ?_⟩, x₀, hx₀, ⟨?_, ?_⟩, hmx.live hl⟩
          · rw [← hm.task]
            simpa only [Db.taskTerminal, hs.fades.tasks] using hterm
          · rw [← hs.fades.unsealed r₀]
            simpa only [Db.unsealedTarget, hm.session] using hunsealed
          · rw [← hmx.key, ← hm.key, hkey]
          · rw [← hmx.id, ← hm.id]
            exact hne
        rcases hs.covered r₀ hmem with h | ⟨row, hrow, -⟩
        · simpa [hlive] using hs.dead r hr (hm.key ▸ h)
        · simp at hrow

theorem refreshExactSessionReservations_guarded (now : Time) (db : Db) :
    Tx.wp Guard (refreshExactSessionReservations now)
      (fun _ db' ↦ Table.Moved ReservationMove db.reservations db'.reservations) db := by
  simp only [refreshExactSessionReservations, Tx.wp_bind, wp_write]
  refine Tx.wp_mono (failTerminalSiblings_guarded now db) fun _ s hs ↦ ?_
  have hexpire : Tx.wp Guard (expireCohorts now)
      (fun _ s' ↦ Fades db s' ∧ s'.NoTerminalSiblings) s := by
    simp only [expireCohorts, Tx.wp_bind, wp_read]
    refine Tx.wp_forEach (fun key _ s hs ↦ ?_) hs
    rw [wp_write]
    have hf := Fades.expireCohort key now s
    exact ⟨trivial, hs.1.trans hf, hf.noTerminalSiblings hs.2⟩
  refine Tx.wp_mono hexpire fun _ s hs ↦ ⟨hs.2, trivial, ?_⟩
  simp only [failInvalidTargets, Tx.wp_bind, wp_read]
  refine Tx.wp_forEach (I := fun s' : Db ↦ Table.Moved ReservationMove db.reservations s'.reservations)
    (fun key _ s hs ↦ ?_) ?_
  · simp only [Tx.wp_bind, wp_read, wp_write]
    refine ⟨.inr rfl, ?_⟩
    have hrows := (Fades.failCohort key now targetUnavailableReason false s).rows
    obtain ⟨sessions, hframe⟩ := refreshSessions_frame (s.cohortSessions key) now
      (failCohort key now targetUnavailableReason false s)
    simp only [Write.exec, hframe]
    exact hs.trans hrows fun _ _ _ ↦ ReservationMove.trans
  · exact ((hs.1.trans (Fades.releaseTaskReservations now s)).trans
      (Fades.releaseLeaseReservations now _)).rows

theorem find?_session {db : Db} {sid : ℕ} {s : Session} (h : db.sessions.find? sid = some s) :
    s ∈ db.sessions ∧ s.id = sid := Table.find?_eq_some.mp h

theorem find?_lease {db : Db} {leaseId : ℕ} {l : Lease} (h : db.leases.find? leaseId = some l) :
    l ∈ db.leases ∧ l.id = leaseId := Table.find?_eq_some.mp h

theorem cohort_isEmpty {db : Db} {key : String} (h : (db.cohort key).isEmpty = true) :
    ∀ r ∈ db.reservations, r.reservationKey ≠ key := by
  intro r hr hkey
  have hmem : r ∈ db.cohort key := by simp [Db.cohort, List.mem_insertionSort, hr, hkey]
  rw [List.isEmpty_iff.mp h] at hmem
  cases hmem

theorem createExactSessionReservation_guarded (svc : Service) (cfg : AedtPoolConfig) (now : Time)
    (q : ReservationRequest) : Tx.Guarded Guard (svc.createExactSessionReservation cfg now q) := by
  intro db
  simp only [Service.createExactSessionReservation, Tx.wp_bind, wp_read, wp_lift, wp_check,
    wp_require, Tx.wp_ite, Tx.wp_pure, wp_write]
  intro _ _ _ _ _ hpositive _ profile _
  refine Tx.wp_mono (refreshExactSessionReservations_guarded now db) fun _ s _ ↦ ?_
  refine ⟨fun _ _ ↦ trivial, fun hexisting _ x hx hassign hserving hgen _ hfree hcanary _ _ _
    hreserved _ hroom ↦ ⟨?_, trivial⟩⟩
  obtain ⟨s₀, hs₀, hpair⟩ := Option.bind_eq_some_iff.mp hx
  obtain ⟨a, -, rfl⟩ := Option.map_eq_some_iff.mp hpair
  obtain ⟨hmem, hid⟩ := find?_session hs₀
  simp only [Bool.and_eq_true, Option.isNone_iff_eq_none] at hfree
  simp only [decide_eq_true_eq] at hroom
  refine ⟨s₀, hmem, hid, hassign, hfree.1, hfree.2, by rw [hid]; omega, fun t ht ↦ ?_,
    ((List.perm_insertionSort _ _).nodup_iff).mpr (List.nodup_dedup _), fun r hr hlive ht ↦ ?_,
    .inl (cohort_isEmpty (by simpa using hexisting))⟩
  · rw [List.mem_insertionSort, List.mem_dedup] at ht
    simpa using List.all_eq_true.mp hpositive t ht
  · simp only [Bool.not_eq_true', List.any_eq_false, Bool.and_eq_true, List.contains_eq_mem,
      decide_eq_true_eq, not_and] at hreserved
    exact hreserved r hr ht hlive

theorem autoCohort_some {db : Db} {s : Session} {key : String} {expires : Time}
    (h : db.autoCohort s = some (key, expires)) :
    ∃ r ∈ db.reservations, r.reservationKey = key ∧ r.sessionId = s.id := by
  unfold Db.autoCohort at h
  obtain ⟨r, hr, heq⟩ := Option.map_eq_some_iff.mp h
  have hmem := List.mem_of_mem_head? hr
  simp only [Table.mem_select, Bool.and_eq_true, beq_iff_eq] at hmem
  exact ⟨r, hmem.1, (Prod.mk.injEq .. ▸ heq).1, hmem.2.1.1.1⟩

def Db.FreshToken (db : Db) (token : String) : Prop :=
  ∀ r ∈ db.reservations, ∀ sid generation : ℕ, r.reservationKey ≠
    autoKeyPrefix ++ toString sid ++ ":" ++ toString generation ++ ":" ++ token

theorem Db.FreshToken.moved {db db' : Db} {token : String} (h : db.FreshToken token)
    (hm : Table.Moved ReservationMove db.reservations db'.reservations) :
    db'.FreshToken token := by
  intro r' hr'
  obtain ⟨r, hr, hmove⟩ := hm.exists_left hr'
  rw [hmove.key]
  exact h r hr

theorem reserveDesktop_guarded (svc : Service) (cfg : AedtPoolConfig) (now : Time)
    (q : PreparationRequest) (profile family : String) (policy : IsolationPolicy)
    (route : TaskRoute) (db : Db) (hfresh : db.FreshToken q.token) (htask : 0 < q.taskId) :
    Tx.wp Guard (reserveDesktop svc cfg now q profile family policy route) (fun _ _ ↦ True) db := by
  simp only [reserveDesktop, Tx.wp_bind, wp_read]
  split
  · simp only [Tx.wp_bind, wp_write, Tx.wp_pure]
    exact ⟨trivial, trivial⟩
  · rename_i s hs
    have hroom := List.find?_some hs
    have hmem := List.mem_of_find?_eq_some hs
    simp only [Db.preparationCandidates, List.mem_insertionSort, Table.mem_select,
      Bool.and_eq_true, Option.isNone_iff_eq_none] at hmem
    simp only [Bool.and_eq_true, decide_eq_true_eq] at hroom
    simp only [Tx.wp_bind, wp_read, Tx.wp_require, wp_write, and_true]
    intro hlive _
    have hroom' : db.used s.id + db.held s.id + [q.taskId].length ≤ s.slotsTotal := hroom.1
    refine ⟨⟨s, hmem.1, rfl, by tauto, by tauto, by tauto, hroom', by simpa using htask,
      List.nodup_singleton _, fun r hr hr' ht ↦ ?_, ?_⟩, trivial⟩
    · simp only [Bool.not_eq_true', List.any_eq_false, Bool.and_eq_true, beq_iff_eq,
        not_and] at hlive
      exact hlive r hr (by simpa using ht) hr'
    cases hc : db.autoCohort s with
    | none => exact .inl fun r hr ↦ hfresh r hr s.id s.generation
    | some cohort => exact .inr (autoCohort_some hc)

theorem preparePooledTaskSession_guarded (svc : Service) (cfg : AedtPoolConfig) (now : Time)
    (q : PreparationRequest) (db : Db) (hfresh : db.FreshToken q.token) :
    Tx.wp Guard (svc.preparePooledTaskSession cfg now q) (fun _ _ ↦ True) db := by
  simp only [Service.preparePooledTaskSession, Tx.wp_bind, wp_check, wp_lift, wp_require,
    Tx.wp_ite, Tx.wp_pure, implies_true, true_and]
  intro htask _ profile _ _ policy _ _ _ _
  have htask : 0 < q.taskId := by simpa using htask
  refine Tx.wp_mono (refreshExactSessionReservations_guarded now db) fun _ s hs ↦ ?_
  have hs := hfresh.moved hs
  rw [wp_read]
  split
  · exact Tx.wp_pure.mpr trivial
  · rename_i t _
    simp only [Tx.wp_bind, wp_check, wp_read, Tx.wp_ite, Tx.wp_pure, implies_true, true_and]
    intro _ _ _
    split
    · simp only [Tx.wp_bind, wp_write, Tx.wp_ite, Tx.wp_pure]
      exact ⟨fun _ ↦ ⟨trivial, trivial⟩,
        fun _ ↦ reserveDesktop_guarded svc cfg now q profile _ policy _ s hs htask⟩
    · rename_i r _
      simp only [Tx.wp_bind, wp_read, wp_write, Tx.wp_ite, Tx.wp_pure, implies_true, true_and]
      refine ⟨fun _ ↦ ⟨trivial, trivial⟩, fun _ _ ↦ ⟨fun _ ↦ ⟨.inl rfl, ?_⟩, fun _ ↦ ?_⟩⟩
      · have hs := hs.moved (Fades.failCohort r.reservationKey now
          "automatic AEDT reservation target became unavailable" false s).rows
        exact ⟨fun _ ↦ ⟨trivial, trivial⟩,
          fun _ ↦ reserveDesktop_guarded svc cfg now q profile _ policy _ _ hs htask⟩
      · exact ⟨fun _ ↦ ⟨trivial, trivial⟩,
          fun _ ↦ reserveDesktop_guarded svc cfg now q profile _ policy _ s hs htask⟩

/-- The candidates keep their session while earlier ones are aborted. -/
theorem abortCanary_admissions (admissionId sid : ℕ) (now : Time) (db : Db) :
    Table.Moved AdmissionMove db.admissions (abortCanary admissionId sid now db).admissions := by
  change Table.Moved AdmissionMove db.admissions (db.admissions.update
    (fun a ↦ a.id == admissionId && a.state.pending)
    fun a ↦ { a with state := .aborting, updatedAt := now })
  refine .update _ (fun a _ ha ↦ ⟨rfl, rfl, rfl, ?_⟩) fun a _ _ ↦ .refl a
  simp only [Bool.and_eq_true] at ha
  simp [AdmissionState.movesTo, ha.2]

theorem finishCanaries_aborting (now : Time) (db : Db) {a : Admission}
    (ha : a ∈ (finishCanaries now db).admissions) (hstate : a.state = .aborting) :
    (finishCanaries now db).admissionLive a.id = true := by
  have hlive : ∀ id, (finishCanaries now db).admissionLive id = db.admissionLive id :=
    fun _ ↦ rfl
  rw [hlive]
  unfold finishCanaries at ha
  obtain ⟨b, hb, rfl⟩ := Db.mem_onAdmissions.mp ha
  split at hstate
  · cases hstate
  · rename_i hfilled
    rw [if_neg hfilled]
    obtain ⟨c, -, rfl⟩ := Db.mem_onAdmissions.mp hb
    split at hstate
    · cases hstate
    · rename_i hdone
      rw [if_neg hdone]
      simpa [hstate] using hdone

theorem refreshMixedCanaryAdmissions_guarded (now : Time) (db : Db) :
    Tx.wp Guard (refreshMixedCanaryAdmissions now) (fun _ db' ↦
      ∀ a ∈ db'.admissions, a.state = .aborting → db'.admissionLive a.id = true) db := by
  simp only [refreshMixedCanaryAdmissions, Tx.wp_bind, wp_read, wp_write]
  refine Tx.wp_mono (Tx.wp_forEach (I := fun s : Db ↦ ∀ a ∈ db.abortCandidates now,
    ∃ a' ∈ s.admissions, a'.id = a.id ∧ a'.sessionId = a.sessionId) (fun a ha s hs ↦ ?_)
    fun a ha ↦ ?_) fun _ s _ ↦ ⟨trivial, fun a ha ↦ finishCanaries_aborting now s ha⟩
  · refine wp_write.mpr ⟨hs a ha, fun b hb ↦ ?_⟩
    obtain ⟨b', hb', hid, hsession⟩ := hs b hb
    obtain ⟨b'', hb'', hm⟩ := (abortCanary_admissions a.id a.sessionId now s).exists_right hb'
    exact ⟨b'', hb'', hm.id.trans hid, hm.session.trans hsession⟩
  · exact ⟨a, (Table.mem_select.mp ha).1, rfl, rfl⟩

theorem createMixedCanaryAdmission_guarded (svc : Service) (now : Time) (q : CanaryRequest) :
    Tx.Guarded Guard (svc.createMixedCanaryAdmission now q) := by
  intro db
  simp only [Service.createMixedCanaryAdmission, Tx.wp_bind, wp_read, wp_lift, wp_check,
    wp_require, Tx.wp_require, wp_write]
  intro _ _ _ _ _ _ _
  refine Tx.wp_mono (refreshMixedCanaryAdmissions_guarded now db) fun _ s hs ↦ ?_
  intro x hx hready hslots hunsealed _ _ _ hempty hidle hunreserved hlength _ _
  obtain ⟨hmem, hid⟩ := find?_session hx
  refine ⟨⟨x, hmem, hid, by simpa using hready, ?_, by simpa using hunsealed, by simpa using hempty,
    by simpa using hunreserved, ?_, hs⟩, trivial⟩
  · simp only [beq_iff_eq] at hlength hslots
    rw [hlength, hslots]
  · intro a ha hsession
    simp only [Bool.not_eq_true', List.any_eq_false, Bool.and_eq_true, beq_iff_eq, not_and,
      Bool.not_eq_true] at hidle
    exact hidle a ha hsession

theorem authorizeMixedCanaryLease_guarded {taskId : ℕ}
    {requestKey tokenHash family projectNamespace profile : String} {protocolVersion : ℕ}
    {now : Time} {db : Db} :
    Tx.wp Guard (authorizeMixedCanaryLease taskId requestKey tokenHash family projectNamespace
      profile protocolVersion now) (fun c db' ↦ db' = db ∧ c.1 ∈ db.canarySlots ∧
        c.2 ∈ db.admissions ∧ c.1.admissionId = c.2.id ∧ c.2.state.pending = true) db := by
  simp only [authorizeMixedCanaryLease, Tx.wp_bind, wp_read, wp_check, wp_require]
  intro _ t _ _ _ x hx hpending _ _ _ _ _ _ _ _
  obtain ⟨c, hc, hpair⟩ := Option.bind_eq_some_iff.mp hx
  obtain ⟨a, ha, rfl⟩ := Option.map_eq_some_iff.mp hpair
  obtain ⟨hmem, hid⟩ := Table.find?_eq_some.mp ha
  have hfacts : True ∧ c ∈ db.canarySlots ∧ a ∈ db.admissions ∧ c.admissionId = a.id ∧
      a.state.pending = true :=
    ⟨trivial, List.mem_of_find?_eq_some hc, hmem, hid.symm, hpending⟩
  split
  · simp only [Tx.wp_bind, wp_read, wp_check, Tx.wp_pure]
    exact fun _ ↦ hfacts
  · simp only [Tx.wp_bind, wp_check, Tx.wp_pure]
    exact fun _ ↦ hfacts

end SlurmScheduler.Pool
