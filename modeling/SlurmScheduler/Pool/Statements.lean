import SlurmScheduler.Pool.Queries

namespace SlurmScheduler.Pool

open Relational

namespace Db

variable (db : Db)

def onSessions (p : Session → Bool) (f : Session → Session)
    (hf : ∀ s, Keyed.key (f s) = Keyed.key s := by intro s; rfl) : Db :=
  { db with sessions := db.sessions.update p f hf }

def onLeases (p : Lease → Bool) (f : Lease → Lease)
    (hf : ∀ l, Keyed.key (f l) = Keyed.key l := by intro l; rfl) : Db :=
  { db with leases := db.leases.update p f hf }

def onReservations (p : Reservation → Bool) (f : Reservation → Reservation)
    (hf : ∀ r, Keyed.key (f r) = Keyed.key r := by intro r; rfl) : Db :=
  { db with reservations := db.reservations.update p f hf }

def onAdmissions (p : Admission → Bool) (f : Admission → Admission)
    (hf : ∀ a, Keyed.key (f a) = Keyed.key a := by intro a; rfl) : Db :=
  { db with admissions := db.admissions.update p f hf }

def onCanarySlots (p : CanarySlot → Bool) (f : CanarySlot → CanarySlot)
    (hf : ∀ c, Keyed.key (f c) = Keyed.key c := by intro c; rfl) : Db :=
  { db with canarySlots := db.canarySlots.update p f hf }

def onTasks (p : Task → Bool) (f : Task → Task)
    (hf : ∀ t, Keyed.key (f t) = Keyed.key t := by intro t; rfl) : Db :=
  { db with tasks := db.tasks.update p f hf }

def onAllocations (p : Allocation → Bool) (f : Allocation → Allocation)
    (hf : ∀ a, Keyed.key (f a) = Keyed.key a := by intro a; rfl) : Db :=
  { db with allocations := db.allocations.update p f hf }

variable {db}

@[simp] theorem mem_onSessions {p : Session → Bool} {f : Session → Session}
    {hf : ∀ s, Keyed.key (f s) = Keyed.key s} {s : Session} :
    s ∈ (db.onSessions p f hf).sessions ↔ ∃ a ∈ db.sessions, (if p a then f a else a) = s :=
  List.mem_map

@[simp] theorem mem_onLeases {p : Lease → Bool} {f : Lease → Lease}
    {hf : ∀ l, Keyed.key (f l) = Keyed.key l} {l : Lease} :
    l ∈ (db.onLeases p f hf).leases ↔ ∃ a ∈ db.leases, (if p a then f a else a) = l :=
  List.mem_map

@[simp] theorem mem_onReservations {p : Reservation → Bool} {f : Reservation → Reservation}
    {hf : ∀ r, Keyed.key (f r) = Keyed.key r} {r : Reservation} :
    r ∈ (db.onReservations p f hf).reservations ↔
      ∃ a ∈ db.reservations, (if p a then f a else a) = r :=
  List.mem_map

@[simp] theorem mem_onAdmissions {p : Admission → Bool} {f : Admission → Admission}
    {hf : ∀ a, Keyed.key (f a) = Keyed.key a} {a : Admission} :
    a ∈ (db.onAdmissions p f hf).admissions ↔ ∃ b ∈ db.admissions, (if p b then f b else b) = a :=
  List.mem_map

@[simp] theorem mem_onCanarySlots {p : CanarySlot → Bool} {f : CanarySlot → CanarySlot}
    {hf : ∀ c, Keyed.key (f c) = Keyed.key c} {c : CanarySlot} :
    c ∈ (db.onCanarySlots p f hf).canarySlots ↔
      ∃ b ∈ db.canarySlots, (if p b then f b else b) = c :=
  List.mem_map

@[simp] theorem mem_onAllocations {p : Allocation → Bool} {f : Allocation → Allocation}
    {hf : ∀ a, Keyed.key (f a) = Keyed.key a} {a : Allocation} :
    a ∈ (db.onAllocations p f hf).allocations ↔
      ∃ b ∈ db.allocations, (if p b then f b else b) = a :=
  List.mem_map

theorem onSessions_row {p : Session → Bool} {f : Session → Session}
    {hf : ∀ s, Keyed.key (f s) = Keyed.key s} {s s' : Session} (hs : s ∈ db.sessions)
    (hs' : s' ∈ (db.onSessions p f hf).sessions) (hid : s'.id = s.id) :
    s' = if p s then f s else s := by
  obtain ⟨a, ha, rfl⟩ := mem_onSessions.mp hs'
  have hkey : Keyed.key (if p a then f a else a) = Keyed.key a := by split <;> simp [hf]
  rw [Table.eq_of_key_eq ha hs (hkey.symm.trans hid)]

theorem onReservations_row {p : Reservation → Bool} {f : Reservation → Reservation}
    {hf : ∀ r, Keyed.key (f r) = Keyed.key r} {r r' : Reservation} (hr : r ∈ db.reservations)
    (hr' : r' ∈ (db.onReservations p f hf).reservations) (hid : r'.id = r.id) :
    r' = if p r then f r else r := by
  obtain ⟨a, ha, rfl⟩ := mem_onReservations.mp hr'
  have hkey : Keyed.key (if p a then f a else a) = Keyed.key a := by split <;> simp [hf]
  rw [Table.eq_of_key_eq ha hr (hkey.symm.trans hid)]

theorem onAdmissions_row {p : Admission → Bool} {f : Admission → Admission}
    {hf : ∀ a, Keyed.key (f a) = Keyed.key a} {a a' : Admission} (ha : a ∈ db.admissions)
    (ha' : a' ∈ (db.onAdmissions p f hf).admissions) (hid : a'.id = a.id) :
    a' = if p a then f a else a := by
  obtain ⟨b, hb, rfl⟩ := mem_onAdmissions.mp ha'
  have hkey : Keyed.key (if p b then f b else b) = Keyed.key b := by split <;> simp [hf]
  rw [Table.eq_of_key_eq hb ha (hkey.symm.trans hid)]

theorem onLeases_row {p : Lease → Bool} {f : Lease → Lease}
    {hf : ∀ l, Keyed.key (f l) = Keyed.key l} {l l' : Lease} (hl : l ∈ db.leases)
    (hl' : l' ∈ (db.onLeases p f hf).leases) (hid : l'.id = l.id) :
    l' = if p l then f l else l := by
  obtain ⟨a, ha, rfl⟩ := mem_onLeases.mp hl'
  have hkey : Keyed.key (if p a then f a else a) = Keyed.key a := by split <;> simp [hf]
  rw [Table.eq_of_key_eq ha hl (hkey.symm.trans hid)]

theorem used_onLeases_le_succ {p : Lease → Bool} {f : Lease → Lease}
    {hf : ∀ l, Keyed.key (f l) = Keyed.key l} (sid : ℕ)
    (huniq : ∀ a ∈ db.leases, ∀ b ∈ db.leases, p a = true → p b = true → a = b) :
    (db.onLeases p f hf).used sid ≤ db.used sid + 1 :=
  @Table.count_update_le_succ Lease _ p _ f db.leases hf huniq

theorem find?_onSessions {p : Session → Bool} {f : Session → Session}
    {hf : ∀ s, Keyed.key (f s) = Keyed.key s} (sid : ℕ) :
    (db.onSessions p f hf).sessions.find? sid =
      (db.sessions.find? sid).map fun s ↦ if p s then f s else s :=
  @Table.find?_update Session _ db.sessions p f hf sid

theorem sessions_moved {p : Session → Bool} {f : Session → Session}
    {hf : ∀ s, Keyed.key (f s) = Keyed.key s} {R : Session → Session → Prop}
    (h : ∀ s ∈ db.sessions, p s = true → R s (f s))
    (hn : ∀ s ∈ db.sessions, p s = false → R s s) :
    Table.Moved R db.sessions (db.onSessions p f hf).sessions :=
  .update hf h hn

theorem leases_moved {p : Lease → Bool} {f : Lease → Lease}
    {hf : ∀ l, Keyed.key (f l) = Keyed.key l} {R : Lease → Lease → Prop}
    (h : ∀ l ∈ db.leases, p l = true → R l (f l))
    (hn : ∀ l ∈ db.leases, p l = false → R l l) :
    Table.Moved R db.leases (db.onLeases p f hf).leases :=
  .update hf h hn

theorem reservations_moved {p : Reservation → Bool} {f : Reservation → Reservation}
    {hf : ∀ r, Keyed.key (f r) = Keyed.key r} {R : Reservation → Reservation → Prop}
    (h : ∀ r ∈ db.reservations, p r = true → R r (f r))
    (hn : ∀ r ∈ db.reservations, p r = false → R r r) :
    Table.Moved R db.reservations (db.onReservations p f hf).reservations :=
  .update hf h hn

theorem admissions_moved {p : Admission → Bool} {f : Admission → Admission}
    {hf : ∀ a, Keyed.key (f a) = Keyed.key a} {R : Admission → Admission → Prop}
    (h : ∀ a ∈ db.admissions, p a = true → R a (f a))
    (hn : ∀ a ∈ db.admissions, p a = false → R a a) :
    Table.Moved R db.admissions (db.onAdmissions p f hf).admissions :=
  .update hf h hn

end Db

/-- The states `_refresh_session_state` may rewrite. -/
def SessionState.refreshable : SessionState → Bool
  | .starting | .ready | .busy => true
  | _ => false

def Session.refreshed (live : ℕ) (now : Time) (s : Session) : Session :=
  { s with
    state := if s.drainRequestedAt.isSome && live == 0 then .draining
      else if live == 0 then .ready else .busy
    idleSince := if live != 0 || s.drainRequestedAt.isSome then none else some now
    solveBatchSealedAt := if live == 0 then none else s.solveBatchSealedAt
    updatedAt := now }

/-- `_refresh_session_state` -/
def refreshSession (sid : ℕ) (now : Time) (db : Db) : Db :=
  db.onSessions (fun s ↦ s.id == sid && s.state.refreshable) (Session.refreshed (db.used sid) now)

def refreshSessions (sids : List ℕ) (now : Time) (db : Db) : Db :=
  sids.foldl (fun db sid ↦ refreshSession sid now db) db

theorem refreshSessions_frame (sids : List ℕ) (now : Time) (db : Db) :
    ∃ sessions, refreshSessions sids now db = { db with sessions } := by
  induction sids generalizing db with
  | nil => exact ⟨_, rfl⟩
  | cons sid sids ih => exact ih (refreshSession sid now db)

def blockReuse (sid : ℕ) (now : Time) (db : Db) : Db :=
  db.onSessions (fun s ↦ s.id == sid && !s.state.terminal) fun s ↦
    { s with reuseBlockedAt := some (s.reuseBlockedAt.getD now), updatedAt := now }

def drainAllocation (aid : ℕ) (reason : String) (now : Time) (db : Db) : Db :=
  db.onAllocations (fun a ↦ a.id == aid && a.state.drainable) fun a ↦
    { a with
      state := .draining, drainReason := reason, drainAt := some (a.drainAt.getD now)
      updatedAt := now }

def restoreAllocation (aid : ℕ) (now : Time) (db : Db) : Db :=
  db.onAllocations (fun a ↦ a.id == aid && a.state == .draining &&
      a.drainReason == unhealthyAllocationRecycleReason) fun a ↦
    { a with
      state := .active, drainReason := demandDrainReason, drainAt := none
      failureMessage := "", updatedAt := now }

/-- The sessions on which a member of the cohort is `releasing` raise the reuse barrier. -/
def blockCohortReuse (key : String) (now : Time) (db : Db) : Db :=
  db.onSessions (fun s ↦ !s.state.terminal && db.leases.rows.any fun l ↦
      db.inCohort key l && l.state == .releasing && l.sessionId == some s.id) fun s ↦
    { s with reuseBlockedAt := some (s.reuseBlockedAt.getD now), updatedAt := now }

def settleCohortOwners (key : String) (now : Time) (reason : String) (db : Db) : Db :=
  blockCohortReuse key now <|
    db.onLeases (fun l ↦ db.inCohort key l && l.state.ownsProject) fun l ↦
      { l with
        state := .releasing, failureMessage := reason
        releaseRequestedAt := some (l.releaseRequestedAt.getD now), updatedAt := now }

def LeaseState.awaitsProject : LeaseState → Bool
  | .queued | .offered | .leased => true
  | _ => false

/-- `_fail_exact_session_reservation_cohort` -/
def failCohort (key : String) (now : Time) (reason : String) (settle : Bool) (db : Db) : Db :=
  let db := if settle then settleCohortOwners key now reason db else db
  let db := db.onLeases (fun l ↦ db.inCohort key l &&
      (if settle then l.state.awaitsProject else l.state.live)) fun l ↦
    { l with state := .failed, failureMessage := reason, finishedAt := some now, updatedAt := now }
  db.onReservations (fun r ↦ r.reservationKey == key && r.state.live) fun r ↦
    { r with state := .failed, failureMessage := reason, finishedAt := some now, updatedAt := now }

/-- `_expire_exact_session_reservation_cohort` -/
def expireCohort (key : String) (now : Time) (db : Db) : Db :=
  let db := db.onLeases (fun l ↦ db.inCohort key l && l.state.ownsProject &&
      l.solvePermitAt.isNone) fun l ↦
    { l with
      state := .releasing, failureMessage := cohortExpiryReason
      releaseRequestedAt := some (l.releaseRequestedAt.getD now), updatedAt := now }
  let db := blockCohortReuse key now db
  let db := db.onLeases (fun l ↦ db.inCohort key l && l.state.awaitsProject &&
      l.solvePermitAt.isNone) fun l ↦
    { l with
      state := .expired, failureMessage := cohortExpiryReason, finishedAt := some now
      updatedAt := now }
  db.onReservations (fun r ↦ r.reservationKey == key && r.state.live && !db.permittedLease r)
    fun r ↦
      { r with
        state := .expired, failureMessage := cohortExpiryReason, finishedAt := some now
        updatedAt := now }

def Reservation.freed (now : Time) (r : Reservation) : Reservation :=
  { r with state := .released, finishedAt := some now, updatedAt := now }

def releaseTaskReservations (now : Time) (db : Db) : Db :=
  db.onReservations (fun r ↦ r.state.live && db.taskTerminal r.taskId) (Reservation.freed now)

def releaseLeaseReservations (now : Time) (db : Db) : Db :=
  db.onReservations (fun r ↦ (r.state == .claimed || r.state == .consumed) &&
    (db.leaseOf r).any (·.state.terminal)) (Reservation.freed now)

structure ReservationTerms where
  key : String
  sessionId : ℕ
  sessionGeneration : ℕ
  sessionProfile : String
  workloadFamily : String := ""
  isolationPolicy : Option IsolationPolicy := none
  expiresAt : Time

def reserveSlot (terms : ReservationTerms) (now : Time) (db : Db) (taskId : ℕ) : Db :=
  { db with reservations := db.reservations.insert fun id ↦
      { id, reservationKey := terms.key, taskId, sessionId := terms.sessionId
        sessionGeneration := terms.sessionGeneration, sessionProfile := terms.sessionProfile
        workloadFamily := terms.workloadFamily, isolationPolicy := terms.isolationPolicy
        expiresAt := terms.expiresAt, createdAt := now, updatedAt := now } }

def reserve (terms : ReservationTerms) (tasks : List ℕ) (now : Time) (db : Db) : Db :=
  tasks.foldl (reserveSlot terms now) db

def pinTask (taskId allocationId : ℕ) (nodeName : String) (cpus : ℕ) (now : Time) (db : Db) : Db :=
  db.onTasks (fun t ↦ t.id == taskId && t.status == .queued) fun t ↦
    { t with requestedAllocationId := allocationId, nodeName, cpus, updatedAt := now }

def unpinTask (taskId : ℕ) (now : Time) (db : Db) : Db :=
  db.onTasks (fun t ↦ t.id == taskId && t.status == .queued) fun t ↦
    { t with
      requestedAllocationId := 0
      nodeName := if t.nodeNamePolicy == "strict" then t.nodeName else ""
      updatedAt := now }

def openCanary (sid : ℕ) (group profile : String) (slots : List (String × String × String))
    (expires now : Time) (db : Db) : Db :=
  let admissionId := db.admissions.nextKey
  let db := { db with admissions := db.admissions.insert fun id ↦
    { id, sessionId := sid, placementGroup := group, sessionProfile := profile
      expectedProjects := slots.length, expiresAt := expires, createdAt := now
      updatedAt := now } }
  slots.foldl (fun db slot ↦ { db with canarySlots := db.canarySlots.insert fun id ↦
    { id, admissionId, dedupeKey := slot.1, workloadFamily := slot.2.1
      projectNamespace := slot.2.2, createdAt := now, updatedAt := now } }) db

/-- One abort candidate of `_refresh_mixed_canary_admissions`. -/
def abortCanary (admissionId sid : ℕ) (now : Time) (db : Db) : Db :=
  let db := db.onAdmissions (fun a ↦ a.id == admissionId && a.state.pending) fun a ↦
    { a with state := .aborting, updatedAt := now }
  let db := db.onLeases (fun l ↦ db.inAdmission admissionId l &&
      (l.state == .queued || l.state == .offered)) fun l ↦
    { l with
      state := .cancelled, sessionId := none, slotIndex := none
      failureMessage := canaryAbortReason, finishedAt := some now, updatedAt := now }
  let db := db.onLeases (fun l ↦ db.inAdmission admissionId l &&
      (l.state == .leased || l.state == .attaching || l.state == .active)) fun l ↦
    { l with
      state := .releasing, failureMessage := canaryAbortReason
      releaseRequestedAt := some (l.releaseRequestedAt.getD now), updatedAt := now }
  refreshSession sid now (blockReuse sid now db)

def Db.admissionLive (db : Db) (admissionId : ℕ) : Bool :=
  db.canarySlots.rows.any fun c ↦ c.admissionId == admissionId &&
    (c.leaseId.bind db.leases.find?).any (·.state.live)

/-- Admissions without a live lease end: `aborting` as `aborted`, `filled` as `closed`. -/
def finishCanaries (now : Time) (db : Db) : Db :=
  let db := db.onAdmissions (fun a ↦ a.state == .aborting && !db.admissionLive a.id) fun a ↦
    { a with state := .aborted, finishedAt := some now, updatedAt := now }
  db.onAdmissions (fun a ↦ a.state == .filled && !db.admissionLive a.id) fun a ↦
    { a with state := .closed, finishedAt := some now, updatedAt := now }

def archiveRequestKey (leaseId : ℕ) (archivedKey : String) (now : Time) (db : Db) : Db :=
  db.onLeases (·.id == leaseId) fun l ↦ { l with requestKey := archivedKey, updatedAt := now }

def supersedeLease (leaseId : ℕ) (sid : Option ℕ) (archivedKey : String) (now : Time) (db : Db) :
    Db :=
  let db := db.onLeases (·.id == leaseId) fun l ↦
    { l with
      requestKey := archivedKey, state := .expired, sessionId := none, slotIndex := none
      failureMessage := "durable request was abandoned and replayed"
      finishedAt := some now, updatedAt := now }
  refreshSessions sid.toList now db

structure LeaseRequest where
  requestKey : String
  projectName : String
  placementGroup : String
  workloadFamily : String
  sessionProfile : String
  projectNamespace : String
  isolationPolicy : IsolationPolicy
  workspacePath : String
  protocolVersion : ℕ
  taskId : ℕ
  requestedAllocationId : ℕ
  requestedNodeName : String
  exclusiveSession : Bool
  clientTokenHash : String
  expiresAt : Time
  clientDeadlineAt : Time

def newLease (q : LeaseRequest) (reservation : Option Reservation)
    (canary : Option (CanarySlot × Admission)) (now : Time) (id : ℕ) : Lease :=
  { id, requestKey := q.requestKey, projectName := q.projectName
    placementGroup := q.placementGroup, workloadFamily := q.workloadFamily
    sessionProfile := q.sessionProfile, projectNamespace := q.projectNamespace
    isolationPolicy := q.isolationPolicy, workspacePath := q.workspacePath
    protocolVersion := q.protocolVersion, taskId := q.taskId
    requestedAllocationId := q.requestedAllocationId, requestedNodeName := q.requestedNodeName
    requestedSessionId := (reservation.map (·.sessionId)).getD 0
    requestedSessionGeneration := (reservation.map (·.sessionGeneration)).getD 0
    exactSessionReservationId := (reservation.map (·.id)).getD 0
    mixedCanaryAdmissionId := (canary.map (·.2.id)).getD 0
    mixedCanarySessionId := (canary.map (·.2.sessionId)).getD 0
    exclusiveSession := q.exclusiveSession, clientTokenHash := q.clientTokenHash
    requestedAt := now, lastHeartbeatAt := now, expiresAt := q.expiresAt
    clientDeadlineAt := some q.clientDeadlineAt, updatedAt := now }

def insertLease (q : LeaseRequest) (reservation : Option Reservation)
    (canary : Option (CanarySlot × Admission)) (now : Time) (db : Db) : Db :=
  { db with leases := db.leases.insert (newLease q reservation canary now) }

def claimReservation (reservationId leaseId : ℕ) (now : Time) (db : Db) : Db :=
  db.onReservations (fun r ↦ r.id == reservationId && r.state == .reserved && r.leaseId.isNone)
    fun r ↦ { r with
      state := .claimed, leaseId := some leaseId, claimedAt := some now, updatedAt := now }

def claimCanarySlot (slotId admissionId leaseId : ℕ) (now : Time) (db : Db) : Db :=
  let db := db.onCanarySlots (fun c ↦ c.id == slotId && c.leaseId.isNone) fun c ↦
    { c with leaseId := some leaseId, admittedAt := some now, updatedAt := now }
  if db.canarySlots.count (fun c ↦ c.admissionId == admissionId && c.leaseId.isNone) == 0 then
    db.onAdmissions (fun a ↦ a.id == admissionId && a.state == .open) fun a ↦
      { a with state := .filled, filledAt := some now, updatedAt := now }
  else db

def admitLease (q : LeaseRequest) (reservation : Option Reservation)
    (canary : Option (CanarySlot × Admission)) (now : Time) (db : Db) : Db :=
  let leaseId := db.leases.nextKey
  let db := insertLease q reservation canary now db
  let db := match reservation with
    | some r => claimReservation r.id leaseId now db
    | none => db
  match canary with
  | some c => claimCanarySlot c.1.id c.2.id leaseId now db
  | none => db

def consumeReservation (reservationId leaseId : ℕ) (now : Time) (db : Db) : Db :=
  db.onReservations (fun r ↦ r.id == reservationId && r.state == .claimed &&
      r.leaseId == some leaseId) fun r ↦
    { r with state := .consumed, consumedAt := some now, updatedAt := now }

def Lease.seated (sid slot : ℕ) (state : LeaseState) (offerExpires now : Time) (l : Lease) :
    Lease :=
  { l with
    sessionId := some sid, slotIndex := some slot, state, acquiredAt := some now
    offeredAt := some now, offerExpiresAt := some offerExpires, updatedAt := now }

def Lease.offerState (l : Lease) : LeaseState := if 2 ≤ l.protocolVersion then .offered else .leased

def seatLease (l : Lease) (sid slot : ℕ) (offerExpires now : Time) (db : Db) : Db :=
  let db := db.onLeases (fun x ↦ x.id == l.id && x.state == .queued)
    (Lease.seated sid slot l.offerState offerExpires now)
  if l.exactSessionReservationId == 0 then db
  else consumeReservation l.exactSessionReservationId l.id now db

/-- A queued lease takes a slot: the lease, its reservation, the profile of a Desktop that
has none yet, and the state of the session. -/
def place (l : Lease) (sid slot : ℕ) (offerExpires now : Time) (db : Db) : Db :=
  let db := seatLease l sid slot offerExpires now db
  let db := if l.sessionProfile == "" then db
    else db.onSessions (fun s ↦ s.id == sid && s.sessionProfile == "") fun s ↦
      { s with sessionProfile := l.sessionProfile, updatedAt := now }
  refreshSession sid now db

def unconsumeReservation (leaseId : ℕ) (now : Time) (db : Db) : Db :=
  db.onReservations (fun r ↦ r.leaseId == some leaseId && r.state == .consumed) fun r ↦
    { r with state := .claimed, consumedAt := none, updatedAt := now }

/-- `accept_lease` on an offer that is stale or behind the reuse barrier. -/
def revokeOffer (l : Lease) (expires now : Time) (db : Db) : Db :=
  let db := db.onLeases (fun x ↦ x.id == l.id && x.state == .offered) fun x ↦
    { x with
      state := .queued, sessionId := none, slotIndex := none, acquiredAt := none
      offeredAt := none, offerExpiresAt := none, acceptedAt := none, activatedAt := none
      solvePermitAt := none, solvePermitGeneration := 0
      failureMessage := "session reuse/liveness changed before offer acceptance"
      lastHeartbeatAt := now, expiresAt := expires, updatedAt := now }
  let db := if l.exactSessionReservationId == 0 then db
    else db.onReservations (fun r ↦ r.id == l.exactSessionReservationId &&
        r.leaseId == some l.id && r.state == .consumed) fun r ↦
      { r with state := .claimed, consumedAt := none, updatedAt := now }
  refreshSessions l.sessionId.toList now db

/-- `reconcile` on an offer whose acknowledgement window has passed. -/
def requeueOffer (l : Lease) (now : Time) (db : Db) : Db :=
  let db := db.onLeases (fun x ↦ x.id == l.id && x.state == .offered) fun x ↦
    { x with
      state := .queued, sessionId := none, slotIndex := none, offeredAt := none
      offerExpiresAt := none, acquiredAt := none, solvePermitAt := none
      solvePermitGeneration := 0
      failureMessage := "lease offer requeued after ACK window", updatedAt := now }
  refreshSessions l.sessionId.toList now (unconsumeReservation l.id now db)

/-- `accept_lease` on an exact offer whose target is gone. -/
def rejectOffer (l : Lease) (cohort : Option String) (now : Time) (db : Db) : Db :=
  let reason := "exact-session reservation target failed accept-time ownership/liveness validation"
  let db := match cohort with
    | some key => failCohort key now reason false db
    | none => db
  let db := db.onLeases (fun x ↦ x.id == l.id && x.state == .offered) fun x ↦
    { x with state := .failed, failureMessage := reason, finishedAt := some now, updatedAt := now }
  refreshSessions l.sessionId.toList now db

def attachLease (leaseId : ℕ) (expires now : Time) (db : Db) : Db :=
  db.onLeases (fun l ↦ l.id == leaseId && l.state == .offered &&
      l.offerExpiresAt.any (now < ·)) fun l ↦
    { l with
      state := .attaching, acceptedAt := some now, lastHeartbeatAt := now, expiresAt := expires
      updatedAt := now }

def heartbeatLease (leaseId : ℕ) (state : LeaseState) (tokenHash phase : String)
    (expires offerExpires now : Time) (db : Db) : Db :=
  db.onLeases (fun l ↦ l.id == leaseId && l.state == state && l.clientTokenHash == tokenHash)
    fun l ↦ { l with
      state := if l.protocolVersion < 2 && l.state == .leased then .active else l.state
      lastHeartbeatAt := now, expiresAt := expires
      offerExpiresAt := if 2 ≤ l.protocolVersion && l.state == .offered then some offerExpires
        else l.offerExpiresAt
      faultPhase := if phase == "" then l.faultPhase else phase
      updatedAt := now }

def activateLease (leaseId : ℕ) (state : LeaseState) (expires now : Time) (db : Db) : Db :=
  db.onLeases (fun l ↦ l.id == leaseId && l.state == state) fun l ↦
    { l with
      state := .active, activatedAt := some (l.activatedAt.getD now), lastHeartbeatAt := now
      expiresAt := expires, updatedAt := now }

/-- The poll of `request_solve_permit` renews the lease. -/
def renewWaiting (leaseId : ℕ) (tokenHash : String) (expires now : Time) (db : Db) : Db :=
  db.onLeases (fun l ↦ l.id == leaseId && l.state == .active && l.clientTokenHash == tokenHash)
    fun l ↦ { l with
      lastHeartbeatAt := now, expiresAt := expires, faultPhase := "waiting", updatedAt := now }

def Session.sealedWave (now : Time) (s : Session) : Session :=
  { s with
    solveBatchSealedAt := some (s.solveBatchSealedAt.getD now)
    solveBatchGeneration := s.solveBatchGeneration + 1, updatedAt := now }

/-- The next wave of a batch: the first one also seals the session.  Only waiting leases of
the session receive the permit. -/
def grantWave (sid : ℕ) (leaseIds : List ℕ) (now : Time) (db : Db) : Db :=
  let db := db.onSessions (·.id == sid) (Session.sealedWave now)
  let generation := ((db.sessions.find? sid).map (·.solveBatchGeneration)).getD 0
  db.onLeases (fun l ↦ l.sessionId == some sid && l.state == .active && l.solvePermitAt.isNone &&
      leaseIds.contains l.id) fun l ↦
    { l with
      solvePermitAt := some (l.solvePermitAt.getD now), solvePermitGeneration := generation
      updatedAt := now }

def predecessorFailedReason : String :=
  "sealed native solve predecessor wave failed; refusing mixed-family continuation"

/-- The predecessor wave was not attested: the Desktop drains and its waiting owners release. -/
def failPredecessor (sid : ℕ) (now : Time) (db : Db) : Db :=
  let db := db.onSessions (fun s ↦ s.id == sid && s.state.assignable) fun s ↦
    { s with
      state := .draining, failureMessage := predecessorFailedReason
      reuseBlockedAt := some (s.reuseBlockedAt.getD now)
      drainRequestedAt := some (s.drainRequestedAt.getD now), updatedAt := now }
  db.onLeases (fun l ↦ l.sessionId == some sid && l.state == .active && l.solvePermitAt.isNone)
    fun l ↦ { l with
      state := .releasing, failureMessage := predecessorFailedReason
      releaseRequestedAt := some (l.releaseRequestedAt.getD now), updatedAt := now }

def completePipeline (leaseId sid generation : ℕ) (tokenHash : String) (expires now : Time)
    (db : Db) : Db :=
  db.onLeases (fun l ↦ l.id == leaseId && l.state == .active && l.clientTokenHash == tokenHash &&
      l.sessionId == some sid && l.solvePermitGeneration == generation) fun l ↦
    { l with
      nativePipelineCompletedAt :=
        if l.nativePipelineSessionId == sid && l.nativePipelineGeneration == generation &&
          l.nativePipelineCompletedAt.isSome then l.nativePipelineCompletedAt else some now
      nativePipelineSessionId := sid, nativePipelineGeneration := generation
      faultPhase := "postprocess", lastHeartbeatAt := now, expiresAt := expires
      updatedAt := now }

def bindProjectName (leaseId : ℕ) (state : LeaseState) (tokenHash name : String) (now : Time)
    (db : Db) : Db :=
  db.onLeases (fun l ↦ l.id == leaseId && l.state == state && l.clientTokenHash == tokenHash)
    fun l ↦ { l with projectName := name, updatedAt := now }

def beginRelease (leaseId : ℕ) (sid : Option ℕ) (reason : String) (now : Time) (db : Db) : Db :=
  let db := db.onLeases (·.id == leaseId) fun l ↦
    { l with
      state := .releasing, failureMessage := reason, releaseRequestedAt := some now
      updatedAt := now }
  match sid with
  | some sid => blockReuse sid now db
  | none => db

def cancelLease (leaseId : ℕ) (sid : Option ℕ) (reason : String) (now : Time) (db : Db) : Db :=
  let db := db.onLeases (·.id == leaseId) fun l ↦
    { l with
      state := .cancelled, sessionId := none, slotIndex := none, failureMessage := reason
      finishedAt := some now, updatedAt := now }
  refreshSessions sid.toList now db

def expireQueued (leaseId : ℕ) (now : Time) (db : Db) : Db :=
  db.onLeases (·.id == leaseId) fun l ↦
    { l with
      state := .expired, failureMessage := "lease request heartbeat expired"
      finishedAt := some now, updatedAt := now }

def expireOffer (leaseId : ℕ) (sid : Option ℕ) (now : Time) (db : Db) : Db :=
  let db := db.onLeases (·.id == leaseId) fun l ↦
    { l with
      state := .expired, sessionId := none, slotIndex := none
      failureMessage := "lease offer acknowledgement expired", finishedAt := some now
      updatedAt := now }
  refreshSessions sid.toList now db

def recordLeaseFault (leaseId : ℕ) (kind phase evidence message : String) (now : Time) (db : Db) :
    Db :=
  db.onLeases (·.id == leaseId) fun l ↦
    { l with
      faultPhase := phase, faultKind := kind, faultEvidence := evidence
      failureMessage := if message == "" then l.failureMessage else message, updatedAt := now }

def completeRelease (sid leaseId : ℕ) (success : Bool) (message : String) (now : Time) (db : Db) :
    Db :=
  let db := db.onLeases (fun l ↦ l.id == leaseId && l.sessionId == some sid &&
      l.state == .releasing) fun l ↦
    { l with
      state := if success then .released else .failed, failureMessage := message
      finishedAt := some now, updatedAt := now }
  let db := db.onSessions (fun s ↦ s.id == sid && !s.state.terminal) fun s ↦
    { s with reuseBlockedAt := some now, updatedAt := now }
  let db := if success then db
    else db.onSessions (fun s ↦ s.id == sid && !s.state.terminal) fun s ↦
      { s with
        state := .unhealthy, drainRequestedAt := some now, quarantineUntil := some now
        quarantineReason := "project release cleanup failed"
        failureMessage := orDefault message "session host could not confirm project cleanup"
        updatedAt := now }
  refreshSession sid now db

def newSession (key : String) (allocationId : ℕ) (accountName nodeName : String) (slots : ℕ)
    (now : Time) (id : ℕ) : Session :=
  { id, sessionKey := key, allocationId, accountName, nodeName, slotsTotal := slots
    createdAt := now, updatedAt := now }

def startSession (key : String) (allocationId : ℕ) (accountName nodeName : String) (slots : ℕ)
    (now : Time) (db : Db) : Db :=
  { db with
    sessions := db.sessions.insert (newSession key allocationId accountName nodeName slots now) }

def claimStart (sid : ℕ) (hostId actualNode slurmJob hostProcess : String) (now : Time) (db : Db) :
    Db :=
  db.onSessions (fun s ↦ s.id == sid && s.state == .starting &&
      (s.hostId == "" || s.hostId == hostId)) fun s ↦
    { s with
      hostId, startClaimedAt := some (s.startClaimedAt.getD now), actualNodeName := actualNode
      hostSlurmJobId := slurmJob, hostProcessId := hostProcess, updatedAt := now }

structure Registration where
  endpoint : String
  processId : String
  artifactDir : String := ""
  errorLogPath : String := ""
  journalPath : String := ""
  runtimeMetadata : String := "{}"
  sessionProfile : String
  tokenHash : String

def registerSession (sid : ℕ) (state : SessionState) (reg : Registration) (now : Time) (db : Db) :
    Db :=
  db.onSessions (·.id == sid) fun s ↦
    { s with
      state, endpoint := reg.endpoint, processId := reg.processId, artifactDir := reg.artifactDir
      errorLogPath := reg.errorLogPath, journalPath := reg.journalPath
      runtimeMetadata := reg.runtimeMetadata
      sessionProfile := if reg.sessionProfile == "" then s.sessionProfile else reg.sessionProfile
      hostTokenHash := reg.tokenHash, startedAt := some now, lastHeartbeatAt := some now
      idleSince := some now, failureMessage := "", drainRequestedAt := none, updatedAt := now }

structure StartFailure where
  message : String
  artifactDir : String := ""
  errorLogPath : String := ""
  journalPath : String := ""
  runtimeMetadata : String := "{}"

def failSessionStart (sid : ℕ) (hostId : String) (failure : StartFailure) (now : Time) (db : Db) :
    Db :=
  db.onSessions (fun s ↦ s.id == sid && s.state == .starting && s.hostId == hostId) fun s ↦
    { s with
      state := .failed, failureMessage := failure.message, artifactDir := failure.artifactDir
      errorLogPath := failure.errorLogPath, journalPath := failure.journalPath
      runtimeMetadata := failure.runtimeMetadata, closedAt := some now, updatedAt := now }

def failUnclaimedStart (sid : ℕ) (reason : String) (now : Time) (db : Db) : Db :=
  db.onSessions (fun s ↦ s.id == sid && s.state == .starting && s.hostId == "") fun s ↦
    { s with
      state := .failed, failureMessage := reason, closedAt := some now, updatedAt := now }

def bindHostTask (sid taskId : ℕ) (stdoutPath stderrPath : String) (now : Time) (db : Db) : Db :=
  db.onSessions (fun s ↦ s.id == sid && s.state == .starting &&
      (s.hostTaskId == 0 || s.hostTaskId == taskId)) fun s ↦
    { s with
      hostTaskId := taskId, hostStdoutPath := stdoutPath, hostStderrPath := stderrPath
      updatedAt := now }

/-- `aedt_transport_death`: new placement stops until the next host heartbeat. -/
def suspectTransport (sid : ℕ) (message : String) (now : Time) (db : Db) : Db :=
  db.onSessions (fun s ↦ s.id == sid && s.state.assignable) fun s ↦
    { s with
      state := .unhealthy, failureMessage := transportSuspectPrefix ++ " " ++ message
      drainRequestedAt := none, updatedAt := now }

def SessionState.serving : SessionState → Bool
  | .ready | .busy | .draining => true
  | _ => false

/-- `aedt_death`: a client report that quarantines the session and its allocation. -/
def reportAedtDeath (sid aid : ℕ) (message : String) (now : Time) (db : Db) : Db :=
  drainAllocation aid "AEDT pool reported AEDT/gRPC death" now <|
    db.onSessions (fun s ↦ s.id == sid && s.state.serving) fun s ↦
      { s with
        state := .unhealthy, failureMessage := message, quarantineReason := "aedt_death_reported"
        drainRequestedAt := some (s.drainRequestedAt.getD now), updatedAt := now }

/-- `solver_timeout`: AEDT's stop call is global, so the whole session is quarantined. -/
def solverTimeout (leaseId sid aid : ℕ) (message : String) (until_ now : Time) (db : Db) : Db :=
  let db := db.onLeases (fun l ↦ l.id == leaseId &&
      (l.state == .leased || l.state == .attaching || l.state == .active)) fun l ↦
    { l with
      state := .releasing, failureMessage := orDefault message "solver timeout"
      releaseRequestedAt := some now, updatedAt := now }
  let db := db.onSessions (fun s ↦ s.id == sid && s.state.serving) fun s ↦
    { s with
      state := .draining, quarantineReason := "solver_timeout", quarantineUntil := some until_
      failureMessage := orDefault message "solver timeout; sibling grace active"
      reuseBlockedAt := some (s.reuseBlockedAt.getD now)
      drainRequestedAt := some (s.drainRequestedAt.getD now), updatedAt := now }
  drainAllocation aid "AEDT pool solver fault quarantine" now db

structure Evidence where
  json : String := "{}"
  nativeSnapshotPath : String := ""

def Session.faulted (s : Session) (message : String) (evidence : Evidence) (now : Time) : Session :=
  { s with
    state := .unhealthy, failureMessage := message, lastFaultEvidence := evidence.json
    lastFaultAt := some now
    nativeSnapshotPath := if evidence.nativeSnapshotPath == "" then s.nativeSnapshotPath
      else evidence.nativeSnapshotPath
    updatedAt := now }

/-- `native_probe_suspect`: a session with a live native owner keeps its heartbeat fresh. -/
def suspectNative (sid : ℕ) (message : String) (evidence : Evidence) (owner : Bool) (now : Time)
    (db : Db) : Db :=
  db.onSessions (fun s ↦ s.id == sid && (s.state.assignable || s.state == .unhealthy)) fun s ↦
    { s.faulted (nativeSuspectPrefix ++ " " ++ message) evidence now with
      quarantineReason := ""
      drainRequestedAt := if owner then none else some (s.drainRequestedAt.getD now)
      lastHeartbeatAt := if owner then some now else s.lastHeartbeatAt }

/-- `confirmed_aedt_death` -/
def confirmDeath (sid aid : ℕ) (message : String) (evidence : Evidence) (now : Time) (db : Db) :
    Db :=
  drainAllocation aid faultedDesktopAllocationRecycleReason now <|
    db.onSessions (fun s ↦ s.id == sid && (s.state.serving || s.state == .unhealthy)) fun s ↦
      { s.faulted message evidence now with
        quarantineReason := "confirmed_aedt_death"
        drainRequestedAt := some (s.drainRequestedAt.getD now) }

def clearReuseBarrier (sid : ℕ) (now : Time) (db : Db) : Db :=
  db.onSessions (fun s ↦ s.id == sid && s.reuseBlockedAt.any (· < now) && s.state.assignable &&
      s.failureMessage == "" && s.quarantineReason == "" &&
      !db.leases.rows.any fun l ↦ l.sessionId == some s.id && l.state == .releasing) fun s ↦
    { s with reuseBlockedAt := none, lastHeartbeatAt := some now, updatedAt := now }

def recoverSession (sid : ℕ) (now : Time) (db : Db) : Db :=
  let live := db.used sid
  db.onSessions (fun s ↦ s.id == sid && s.state == .unhealthy &&
      recoverableMessageSql s.failureMessage && s.quarantineReason == "") fun s ↦
    { s with
      state := if live == 0 then .ready else .busy
      failureMessage := "", drainRequestedAt := none, lastHeartbeatAt := some now
      idleSince := if live == 0 then some now else none, updatedAt := now }

def touchSession (sid : ℕ) (now : Time) (db : Db) : Db :=
  db.onSessions (·.id == sid) fun s ↦ { s with lastHeartbeatAt := some now, updatedAt := now }

def reapDeadSession (sid : ℕ) (state : SessionState) (updatedAt now : Time) (db : Db) : Db :=
  db.onSessions (fun s ↦ s.id == sid && s.state == state && s.updatedAt == updatedAt) fun s ↦
    { s with state := .closed, closedAt := some now, updatedAt := now }

/-- The keys of the cohorts that `close_session` fails. -/
def Db.targetCohorts (db : Db) (sid : ℕ) : List String :=
  ((db.reservations.select fun r ↦ r.sessionId == sid &&
    (r.state.live || (db.leaseOf r).any (·.state.live))).map (·.reservationKey)).dedup

def failTargetCohorts (sid : ℕ) (now : Time) (reason : String) (db : Db) : Db :=
  (db.targetCohorts sid).foldl (fun db key ↦ failCohort key now reason false db) db

def requeueOccupants (sid : ℕ) (reason : String) (expires now : Time) (db : Db) : Db :=
  db.onLeases (fun l ↦ l.holds sid && l.exactSessionReservationId == 0) fun l ↦
    { l with
      state := .queued, sessionId := none, slotIndex := none, requestedAllocationId := 0
      requestedNodeName := "", acquiredAt := none, releaseRequestedAt := none
      solvePermitAt := none, solvePermitGeneration := 0, failureMessage := reason
      lastHeartbeatAt := now, expiresAt := expires, updatedAt := now }

def failOccupants (sid : ℕ) (reason : String) (now : Time) (db : Db) : Db :=
  db.onLeases (·.holds sid) fun l ↦
    { l with state := .failed, failureMessage := reason, finishedAt := some now, updatedAt := now }

structure Closure where
  success : Bool
  message : String := ""
  requeueSiblings : Bool := true

def Closure.outcome (c : Closure) : SessionState := if c.success then .closed else .failed

def closeReason (sid : ℕ) (c : Closure) : String :=
  "exact-session reservation target " ++ toString sid ++ " " ++
    (if c.message != "" then "failed: " ++ c.message
     else if c.success then "closed before cohort completion" else "failed before cohort completion")

def closeOccupants (sid : ℕ) (c : Closure) (live : ℕ) (expires now : Time) (db : Db) : Db :=
  if live == 0 then db
  else if !c.success && c.requeueSiblings then
    requeueOccupants sid (orDefault c.message "AEDT session died; lease requeued") expires now db
  else failOccupants sid (orDefault c.message "AEDT session failed") now db

def finishSession (sid : ℕ) (c : Closure) (now : Time) (db : Db) : Db :=
  db.onSessions (·.id == sid) fun s ↦
    { s with
      state := c.outcome, failureMessage := if c.success then "" else c.message
      closedAt := some now, updatedAt := now }

/-- All statements of `close_session`; `live` is its count of slot holders. -/
def closeSession (sid aid : ℕ) (c : Closure) (live : ℕ) (expires now : Time) (db : Db) : Db :=
  let db := failTargetCohorts sid now (closeReason sid c) db
  let db := closeOccupants sid c live expires now db
  let db := finishSession sid c now db
  if !c.success && aid != 0 then
    drainAllocation aid faultedDesktopAllocationRecycleReason now db
  else db

def hostDedupeKey (sid : ℕ) : String := "aedt-session-host:" ++ toString sid

/-- `active_host`: an attaching or running host task of the session. -/
def Db.activeHost (db : Db) (s : Session) : Bool :=
  db.tasks.rows.any fun t ↦ (t.id == s.hostTaskId || t.dedupeKey == hostDedupeKey s.id) &&
    (t.status == .attaching || t.status == .running)

def retireBlockedStart (s : Session) (reason : String) (now : Time) (db : Db) : Db :=
  let db := db.onTasks (fun t ↦ t.status == .queued && t.project == "_aedt_pool_hosts" &&
      (t.id == s.hostTaskId || t.dedupeKey == hostDedupeKey s.id)) fun t ↦
    { t with
      status := .cancelled, failureMessage := reason, finishedAt := some now, updatedAt := now }
  db.onSessions (fun x ↦ x.id == s.id && x.state == .starting && x.hostId == "" &&
      !db.activeHost x) fun x ↦
    { x with
      state := .failed, failureMessage := reason, closedAt := some now, updatedAt := now }

def storageDrain (sid : ℕ) (now : Time) (db : Db) : Db :=
  db.onSessions (fun s ↦ s.id == sid && s.state.assignable && s.drainRequestedAt.isNone) fun s ↦
    { s with
      state := if s.state == .ready then .draining else s.state
      failureMessage := storagePressureDrainReason
      drainRequestedAt := some (s.drainRequestedAt.getD now), updatedAt := now }

def rotateAllocations (cutoff now : Time) (db : Db) : Db :=
  db.onAllocations (fun a ↦ a.state.serving && likePrefix "AEDT pool" a.drainReason &&
      decide (a.createdAt ≤ cutoff)) fun a ↦
    { a with
      state := .draining, drainReason := allocationAgeRotationReason
      drainAt := some (a.drainAt.getD now), updatedAt := now }

/-- `_request_sessions_drain`; no list of allocations means every session. -/
def requestSessionsDrain (reason : String) (allocationIds : Option (List ℕ)) (now : Time)
    (db : Db) : Db :=
  db.onSessions (fun s ↦ (s.state.assignable || (s.state == .unhealthy &&
      s.failureMessage == sessionHeartbeatTimeoutMessage && s.quarantineReason == "")) &&
      allocationIds.all (·.contains s.allocationId)) fun s ↦
    { s with
      state := .draining, failureMessage := reason
      drainRequestedAt := some (s.drainRequestedAt.getD now), updatedAt := now }

def quarantineExpired (sid : ℕ) (until_ now : Time) (db : Db) : Db :=
  db.onSessions (fun s ↦ s.id == sid && (s.state.assignable || (s.state == .unhealthy &&
      s.failureMessage == sessionHeartbeatTimeoutMessage && s.quarantineReason == ""))) fun s ↦
    { s with
      state := .draining, quarantineReason := "lease_heartbeat_expired"
      quarantineUntil := some (s.quarantineUntil.getD until_)
      failureMessage := "project lease heartbeat expired"
      drainRequestedAt := some (s.drainRequestedAt.getD now), updatedAt := now }

def expireSessionHeartbeats (cutoff now : Time) (db : Db) : Db :=
  db.onSessions (fun s ↦ s.state.serving && decide (s.lastSeen < cutoff)) fun s ↦
    { s with
      state := .unhealthy
      failureMessage := if s.state == .draining then "session heartbeat expired while already draining"
        else sessionHeartbeatTimeoutMessage
      drainRequestedAt := some (s.drainRequestedAt.getD now), updatedAt := now }

/-- `COALESCE(release_requested_at, updated_at, requested_at)` -/
def Lease.releaseAge (l : Lease) : Time := l.releaseRequestedAt.getD l.updatedAt

def quarantineLostReleases (cutoff now : Time) (db : Db) : Db :=
  db.onSessions (fun s ↦ s.state == .unhealthy && decide (s.lastSeen < cutoff) &&
      db.leases.rows.any fun l ↦ l.sessionId == some s.id && l.state == .releasing &&
        decide (l.releaseAge < cutoff)) fun s ↦
    { s with
      state := .unhealthy
      failureMessage := "release acknowledgement lost; Desktop recycle required"
      quarantineReason := "release_ack_lost"
      reuseBlockedAt := some (s.reuseBlockedAt.getD now)
      drainRequestedAt := some (s.drainRequestedAt.getD now), updatedAt := now }

def Db.orphanedRelease (db : Db) (cutoff : Time) (l : Lease) : Bool :=
  l.state == .releasing && decide (l.releaseAge < cutoff) &&
    match db.sessionOf l with
    | none => true
    | some s => s.state.terminal || (s.state == .unhealthy && decide (s.lastSeen < cutoff))

def failOrphanedReleases (cutoff now : Time) (db : Db) : Db :=
  let db := quarantineLostReleases cutoff now db
  db.onLeases (db.orphanedRelease cutoff) fun l ↦
    { l with
      state := .failed
      failureMessage := if notBlank l.failureMessage then l.failureMessage
        else "release acknowledgement lost after session heartbeat expiry"
      finishedAt := some now, updatedAt := now }

def expireStarts (cutoff now : Time) (db : Db) : Db :=
  db.onSessions (fun s ↦ s.state == .starting &&
      decide (s.startClaimedAt.getD s.createdAt < cutoff)) fun s ↦
    { s with
      state := .unhealthy, failureMessage := sessionStartAckTimeoutMessage
      drainRequestedAt := some (s.drainRequestedAt.getD now), updatedAt := now }

def drainUnhealthyAllocations (cutoff now : Time) (db : Db) : Db :=
  db.onAllocations (fun a ↦ a.state.drainable && db.sessions.rows.any fun s ↦
      s.allocationId == a.id && (s.quarantineReason != "" ||
        (s.state == .unhealthy && decide (s.unhealthySince < cutoff)))) fun a ↦
    { a with
      state := .draining
      drainReason := if a.state == .draining && notBlank a.drainReason &&
          a.drainReason != demandDrainReason then a.drainReason
        else unhealthyAllocationRecycleReason
      drainAt := some (a.drainAt.getD now), updatedAt := now }

def reapStale (sid : ℕ) (now : Time) (db : Db) : Db :=
  let db := failOccupants sid "AEDT session host unreachable; session reaped" now db
  db.onSessions (fun s ↦ s.id == sid && s.state == .unhealthy) fun s ↦
    { s with
      state := .failed
      failureMessage := if notBlank s.failureMessage then s.failureMessage
        else "session host unreachable; reaped"
      closedAt := some now, updatedAt := now }

def recycleReason (reason : String) : Bool :=
  reason == faultedDesktopAllocationRecycleReason || reason == unhealthyAllocationRecycleReason

def reviveAllocation (aid : ℕ) (now : Time) (db : Db) : Db :=
  let db := db.onAllocations (fun a ↦ a.id == aid && a.state == .draining &&
      recycleReason a.drainReason) fun a ↦
    { a with
      state := .active, drainReason := demandDrainReason, drainAt := none
      failureMessage := "", updatedAt := now }
  db.onSessions (fun s ↦ s.allocationId == aid && s.state.assignable) fun s ↦
    { s with drainRequestedAt := none, updatedAt := now }

def drainIdle (now : Time) (db : Db) : Db :=
  db.onSessions (fun s ↦ s.state == .ready && (db.allocationOf s).any (!·.state.serving)) fun s ↦
    { s with
      state := .draining, drainRequestedAt := some (s.drainRequestedAt.getD now)
      updatedAt := now }

def drainForRebalance (sid : ℕ) (now : Time) (db : Db) : Db :=
  db.onSessions (fun s ↦ s.id == sid && s.state == .ready) fun s ↦
    { s with
      state := .draining, drainRequestedAt := some (s.drainRequestedAt.getD now)
      updatedAt := now }

def drainForScaleIn (sid : ℕ) (now : Time) (db : Db) : Db :=
  db.onSessions (·.id == sid) fun s ↦
    { s with state := .draining, drainRequestedAt := some now, updatedAt := now }

def putSettings (values : List (String × String)) (db : Db) : Db :=
  { db with settings := values.foldl (fun settings kv ↦
      (settings.filter (·.1 != kv.1)) ++ [kv]) db.settings }

def recordValidation (passed : Bool) (pooledProjects : ℕ) (mixedPassed : Bool) (now : Time)
    (db : Db) : Db :=
  { db with validations := db.validations.insert fun id ↦
    { id, passed, pooledProjects, mixedFamilyIsolationPassed := mixedPassed, createdAt := now } }

end SlurmScheduler.Pool
