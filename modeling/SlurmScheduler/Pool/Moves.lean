import SlurmScheduler.Pool.Writes

namespace SlurmScheduler.Pool

open Relational

instance : Fintype LeaseState :=
  ⟨{.queued, .offered, .leased, .attaching, .active, .releasing, .released, .failed, .cancelled,
    .expired}, fun x ↦ by cases x <;> decide⟩

instance : Fintype ReservationState :=
  ⟨{.reserved, .claimed, .consumed, .released, .failed, .expired}, fun x ↦ by cases x <;> decide⟩

instance : Fintype AdmissionState :=
  ⟨{.open, .filled, .aborting, .aborted, .closed}, fun x ↦ by cases x <;> decide⟩

namespace LeaseState

def rank : LeaseState → ℕ
  | attaching => 1
  | active => 2
  | releasing => 3
  | _ => 0

def movesTo (a b : LeaseState) : Bool :=
  a == b || (a.live && b.terminal) || (a.holdsSlot && b == queued) ||
    (a.holdsSlot && b.ownsProject && decide (a.rank < b.rank))

theorem movesTo_refl (a : LeaseState) : a.movesTo a = true := by simp [movesTo]

theorem movesTo_trans : ∀ {a b c : LeaseState}, a.movesTo b = true → b.movesTo c = true →
    a.movesTo c = true := by decide

theorem movesTo_terminal : ∀ {a b : LeaseState}, a.movesTo b = true → a.terminal = true →
    b = a := by decide

theorem movesTo_of_end : ∀ {a b : LeaseState}, a.live = true → b.terminal = true →
    a.movesTo b = true := by decide

theorem movesTo_release : ∀ {a : LeaseState}, a = leased ∨ a.ownsProject = true →
    a.movesTo releasing = true := by decide

theorem movesTo_holdsSlot : ∀ {a b : LeaseState}, a.movesTo b = true → b.holdsSlot = true →
    a.holdsSlot = true := by decide

theorem movesTo_live : ∀ {a b : LeaseState}, a.movesTo b = true → b.live = true →
    a.live = true := by decide

theorem movesTo_offered : ∀ {a b : LeaseState}, a.movesTo b = true → b = offered →
    a = offered := by decide

theorem movesTo_permitted : ∀ {a b : LeaseState}, a.movesTo b = true →
    a = active ∨ a = releasing → b = queued ∨ (b = active ∨ b = releasing) ∨ b.terminal = true := by
  decide

theorem movesTo_queued : ∀ {a b : LeaseState}, a.movesTo b = true → a = queued →
    b = queued ∨ b.terminal = true := by decide

theorem movesTo_releasing : ∀ {a b : LeaseState}, a.movesTo b = true → a = releasing →
    b = queued ∨ b = releasing ∨ b.terminal = true := by decide

theorem movesTo_between : ∀ {a b c : LeaseState}, a.movesTo b = true → b.movesTo c = true →
    a = releasing → c = releasing → b = releasing := by decide

theorem movesTo_requeued : ∀ {a b c : LeaseState}, a.movesTo b = true → b.movesTo c = true →
    a.holdsSlot = true → c = queued → b.holdsSlot = true ∨ b = queued := by decide

theorem holdsSlot_of_ownsProject : ∀ {a : LeaseState}, a.ownsProject = true →
    a.holdsSlot = true := by decide

theorem live_of_holdsSlot : ∀ {a : LeaseState}, a.holdsSlot = true → a.live = true := by decide

theorem live_of_awaitsProject : ∀ {a : LeaseState}, a.awaitsProject = true → a.live = true := by
  decide

theorem not_ownsProject_of_awaitsProject : ∀ {a : LeaseState}, a.awaitsProject = true →
    a.ownsProject = false := by decide

theorem terminal_eq_false : ∀ {a : LeaseState}, a.terminal = false ↔ a.live = true := by decide

theorem terminal_eq_true : ∀ {a : LeaseState}, a.terminal = true ↔ a.live = false := by decide

theorem idle_of_not_ownsProject : ∀ {a : LeaseState}, a.ownsProject = false →
    a.awaitsProject = true ∨ a = releasing ∨ a.terminal = true := by decide

theorem holdsSlot_of_live : ∀ {a : LeaseState}, a.live = true → a ≠ queued →
    a.holdsSlot = true := by decide

theorem not_holdsSlot_of_terminal : ∀ {a : LeaseState}, a.terminal = true →
    a.holdsSlot = false := by decide

end LeaseState

namespace ReservationState

def movesTo (a b : ReservationState) : Bool :=
  a == b || (a.live && !b.live) || (a == consumed && b == claimed)

theorem movesTo_refl (a : ReservationState) : a.movesTo a = true := by simp [movesTo]

theorem movesTo_trans : ∀ {a b c : ReservationState}, a.movesTo b = true → b.movesTo c = true →
    a.movesTo c = true := by decide

theorem movesTo_of_dead : ∀ {a b : ReservationState}, a.live = true → b.live = false →
    a.movesTo b = true := by decide

theorem movesTo_live : ∀ {a b : ReservationState}, a.movesTo b = true → b.live = true →
    a.live = true := by decide

theorem movesTo_dead : ∀ {a b : ReservationState}, a.movesTo b = true → a.live = false →
    b = a := by decide

theorem movesTo_claimed : ∀ {a b : ReservationState}, a.movesTo b = true → b = claimed →
    a = claimed ∨ a = consumed := by decide

theorem live_of_holdsSlot : ∀ {a : ReservationState}, a.holdsSlot = true → a.live = true := by
  decide

end ReservationState

namespace AdmissionState

def movesTo (a b : AdmissionState) : Bool :=
  a == b || (a.pending && b == aborting) || (a.reserving && !b.reserving)

theorem movesTo_refl (a : AdmissionState) : a.movesTo a = true := by simp [movesTo]

theorem movesTo_trans : ∀ {a b c : AdmissionState}, a.movesTo b = true → b.movesTo c = true →
    a.movesTo c = true := by decide

end AdmissionState

theorem SessionState.not_terminal_of_assignable : ∀ {a : SessionState}, a.assignable = true →
    a.terminal = false := by
  rintro (_ | _) <;> simp [assignable, terminal]

structure LeaseTerms where
  id : ℕ
  placementGroup : String
  workloadFamily : String
  sessionProfile : String
  isolationPolicy : IsolationPolicy
  protocolVersion : ℕ
  taskId : ℕ
  requestedSessionId : ℕ
  exactSessionReservationId : ℕ
  exclusiveSession : Bool
  clientTokenHash : String
  mixedCanaryAdmissionId : ℕ
  mixedCanarySessionId : ℕ

def Lease.terms (l : Lease) : LeaseTerms where
  id := l.id
  placementGroup := l.placementGroup
  workloadFamily := l.workloadFamily
  sessionProfile := l.sessionProfile
  isolationPolicy := l.isolationPolicy
  protocolVersion := l.protocolVersion
  taskId := l.taskId
  requestedSessionId := l.requestedSessionId
  exactSessionReservationId := l.exactSessionReservationId
  exclusiveSession := l.exclusiveSession
  clientTokenHash := l.clientTokenHash
  mixedCanaryAdmissionId := l.mixedCanaryAdmissionId
  mixedCanarySessionId := l.mixedCanarySessionId

inductive Aspect
  /-- A terminal session keeps its outcome. -/
  | closure
  /-- A quarantine stays, and only a registration makes a session acceptable. -/
  | quarantine
  /-- A session whose drain is requested accepts no lease. -/
  | refusal
  /-- A session that becomes ready is unsealed. -/
  | seals
  /-- A requested drain stays requested. -/
  | drains
  /-- A session that is out of service stays out of service. -/
  | retirement
  /-- A registered session keeps its profile. -/
  | profiles
  /-- The owner of a project stays one. -/
  | owners
  /-- The holder of a slot stays one. -/
  | holders
  /-- A pending release keeps its reason. -/
  | reasons
  /-- No holder of a slot returns to the queue. -/
  | queue
  /-- No member of an exact cohort returns to the queue. -/
  | offers
  /-- No admission is aborted. -/
  | admissions
  deriving DecidableEq

/-- A requeued lease loses its permit; a lease of an exact cohort is requeued only from an offer. -/
structure LeaseMove (keeps : Aspect → Prop) (l l' : Lease) : Prop where
  terms : l'.terms = l.terms
  state : l.state.movesTo l'.state = true
  place : l'.state.holdsSlot = true → l'.sessionId = l.sessionId ∧ l'.slotIndex = l.slotIndex
  session : l'.sessionId = l.sessionId ∨ l'.sessionId = none
  permit : (l'.solvePermitAt = l.solvePermitAt ∧
      l'.solvePermitGeneration = l.solvePermitGeneration) ∨
    (l'.solvePermitAt = none ∧ l.state.holdsSlot = true ∧ l'.state.holdsSlot = false ∧
      (l.exactSessionReservationId = 0 ∨ l.state = .offered))
  requeued : l.state.holdsSlot = true → l'.state = .queued → l'.solvePermitAt = none ∧
    (l.exactSessionReservationId = 0 ∨ l.state = .offered)
  owner : keeps .owners → l.state.ownsProject = true → l'.state.ownsProject = true
  holder : keeps .holders → l.state.holdsSlot = true → l'.state.holdsSlot = true
  reason : keeps .reasons → l.state = .releasing → l'.state = .releasing →
    l'.failureMessage = l.failureMessage
  queue : keeps .queue → l.state.holdsSlot = true → l'.state ≠ .queued
  pinned : keeps .offers → l.state.holdsSlot = true → l'.state = .queued →
    l.exactSessionReservationId = 0

namespace LeaseMove

variable {keeps : Aspect → Prop} {l l' : Lease}

theorem id (h : LeaseMove keeps l l') : l'.id = l.id := congrArg LeaseTerms.id h.terms

theorem exactReservation (h : LeaseMove keeps l l') :
    l'.exactSessionReservationId = l.exactSessionReservationId :=
  congrArg LeaseTerms.exactSessionReservationId h.terms

theorem requestedSession (h : LeaseMove keeps l l') :
    l'.requestedSessionId = l.requestedSessionId :=
  congrArg LeaseTerms.requestedSessionId h.terms

theorem refl (l : Lease) : LeaseMove keeps l l where
  terms := rfl
  state := LeaseState.movesTo_refl _
  place _ := ⟨rfl, rfl⟩
  session := .inl rfl
  permit := .inl ⟨rfl, rfl⟩
  requeued h h' := by simp [h', LeaseState.holdsSlot] at h
  owner _ h := h
  holder _ h := h
  reason _ _ _ := rfl
  queue _ h h' := by simp [h', LeaseState.holdsSlot] at h
  pinned _ h h' := by simp [h', LeaseState.holdsSlot] at h

theorem holdsSlot (h : LeaseMove keeps l l') (hl : l'.state.holdsSlot = true) :
    l.state.holdsSlot = true := LeaseState.movesTo_holdsSlot h.state hl

theorem live (h : LeaseMove keeps l l') (hl : l'.state.live = true) : l.state.live = true :=
  LeaseState.movesTo_live h.state hl

theorem holds (h : LeaseMove keeps l l') {sid : ℕ} (hl : l'.holds sid = true) :
    l.holds sid = true ∧ l'.slotIndex = l.slotIndex := by
  simp only [Lease.holds, Bool.and_eq_true, beq_iff_eq] at hl ⊢
  have hplace := h.place hl.2
  exact ⟨⟨hplace.1 ▸ hl.1, h.holdsSlot hl.2⟩, hplace.2⟩

theorem permitted (h : LeaseMove keeps l l') (hp : l'.solvePermitAt.isSome = true) :
    l'.solvePermitAt = l.solvePermitAt ∧ l'.solvePermitGeneration = l.solvePermitGeneration := by
  rcases h.permit with hsame | ⟨hnone, -⟩
  · exact hsame
  · simp [hnone] at hp

theorem trans {a b c : Lease} (h : LeaseMove keeps a b) (h' : LeaseMove keeps b c) :
    LeaseMove keeps a c where
  terms := h'.terms.trans h.terms
  state := LeaseState.movesTo_trans h.state h'.state
  place hc := by
    have hb := h.place (h'.holdsSlot hc)
    exact ⟨(h'.place hc).1.trans hb.1, (h'.place hc).2.trans hb.2⟩
  session := by
    rcases h'.session with hc | hc
    · exact h.session.imp hc.trans hc.trans
    · exact .inr hc
  permit := by
    rcases h'.permit with hc | ⟨hc, hbs, hcs, hexact⟩
    · rcases h.permit with hb | ⟨hb, has, hbs, hexact⟩
      · exact .inl ⟨hc.1.trans hb.1, hc.2.trans hb.2⟩
      · refine .inr ⟨hc.1.trans hb, has, ?_, hexact⟩
        cases hcs : c.state.holdsSlot with
        | false => rfl
        | true => simp [h'.holdsSlot hcs] at hbs
    · refine .inr ⟨hc, h.holdsSlot hbs, hcs, ?_⟩
      exact hexact.imp h.exactReservation.symm.trans (LeaseState.movesTo_offered h.state)
  requeued ha hc := by
    rcases Bool.eq_false_or_eq_true b.state.holdsSlot with hb | hb
    · obtain ⟨hnone, hexact⟩ := h'.requeued hb hc
      exact ⟨hnone, hexact.imp h.exactReservation.symm.trans
        (LeaseState.movesTo_offered h.state)⟩
    · have hlive := h'.live (by rw [hc]; rfl)
      have hq : b.state = .queued := by
        by_contra hne
        rw [LeaseState.holdsSlot_of_live hlive hne] at hb
        cases hb
      obtain ⟨hnone, hexact⟩ := h.requeued ha hq
      refine ⟨?_, hexact⟩
      rcases h'.permit with hsame | ⟨hc, -⟩
      · exact hsame.1.trans hnone
      · exact hc
  owner hk ha := h'.owner hk (h.owner hk ha)
  holder hk ha := h'.holder hk (h.holder hk ha)
  reason hk ha hc := by
    have hb := LeaseState.movesTo_between h.state h'.state ha hc
    exact (h'.reason hk hb hc).trans (h.reason hk ha hb)
  queue hk ha hc := by
    rcases LeaseState.movesTo_requeued h.state h'.state ha hc with hb | hb
    · exact h'.queue hk hb hc
    · exact h.queue hk ha hb
  pinned hk ha hc := by
    rcases LeaseState.movesTo_requeued h.state h'.state ha hc with hb | hb
    · exact h.exactReservation ▸ h'.pinned hk hb hc
    · exact h.pinned hk ha hb

end LeaseMove

def Session.accepting (s : Session) : Bool :=
  s.state.assignable || (s.state == .unhealthy && recoverableMessageSql s.failureMessage &&
    s.quarantineReason == "")

def Session.Unregistered (s : Session) : Prop :=
  s.state.terminal = true ∨ (s.quarantineReason = "" ∧ (s.state = .starting ∨
    (s.state = .unhealthy ∧ s.failureMessage = sessionStartAckTimeoutMessage)))

structure SessionTerms where
  id : ℕ
  allocationId : ℕ
  slotsTotal : ℕ
  generation : ℕ
  solveBatchGeneration : ℕ

def Session.terms (s : Session) : SessionTerms where
  id := s.id
  allocationId := s.allocationId
  slotsTotal := s.slotsTotal
  generation := s.generation
  solveBatchGeneration := s.solveBatchGeneration

structure SessionMove (keeps : Aspect → Prop) (s s' : Session) : Prop where
  terms : s'.terms = s.terms
  sealed_ : s'.solveBatchSealedAt.isSome = true → s'.solveBatchSealedAt = s.solveBatchSealedAt
  started : s.startedAt.isSome = true → s'.startedAt.isSome = true
  starting : s'.state = .starting → s.state = .starting ∧ s'.startedAt = s.startedAt
  unregistered : s'.startedAt = none → s.Unregistered → s'.Unregistered
  token : s'.hostTokenHash ≠ "" → s.hostTokenHash ≠ "" ∨ s'.startedAt.isSome = true
  tokenKept : s.startedAt.isSome = true → s'.hostTokenHash = s.hostTokenHash
  profile : keeps .profiles → s.startedAt.isSome = true → s'.sessionProfile = s.sessionProfile
  terminal : s.state.terminal = true → s'.state.terminal = true
  settled : keeps .closure → s.state.terminal = true → s'.state = s.state
  healthy : (s.state.assignable = true → s.quarantineReason = "") →
    s'.state.assignable = true → s'.quarantineReason = ""
  quarantined : keeps .quarantine → s.quarantineReason ≠ "" → s'.quarantineReason ≠ ""
  accepting : keeps .quarantine → s.startedAt.isSome = true → s'.accepting = true →
    s.accepting = true
  undrained : keeps .refusal → (s.state.assignable = true → s.drainRequestedAt = none) →
    s'.state.assignable = true → s'.drainRequestedAt = none
  emptied : keeps .seals → s'.state = .ready → s.state = .ready ∨ s'.solveBatchSealedAt = none
  sticky : keeps .drains → s.startedAt.isSome = true → s.drainRequestedAt.isSome = true →
    s'.drainRequestedAt.isSome = true
  retired : keeps .retirement → s.startedAt.isSome = true → s'.state.assignable = true →
    s.state.assignable = true

namespace SessionMove

variable {keeps : Aspect → Prop}

theorem id {s s' : Session} (h : SessionMove keeps s s') : s'.id = s.id :=
  congrArg SessionTerms.id h.terms

theorem slotsTotal {s s' : Session} (h : SessionMove keeps s s') : s'.slotsTotal = s.slotsTotal :=
  congrArg SessionTerms.slotsTotal h.terms

theorem refl (s : Session) : SessionMove keeps s s where
  terms := rfl
  sealed_ _ := rfl
  started h := h
  starting h := ⟨h, rfl⟩
  unregistered _ h := h
  token := .inl
  tokenKept _ := rfl
  profile _ _ := rfl
  terminal h := h
  settled _ _ := rfl
  healthy h := h
  quarantined _ h := h
  accepting _ _ h := h
  undrained _ h := h
  emptied _ := .inl
  sticky _ _ h := h
  retired _ _ h := h

theorem trans {a b c : Session} (h : SessionMove keeps a b) (h' : SessionMove keeps b c) :
    SessionMove keeps a c where
  terms := h'.terms.trans h.terms
  sealed_ hc := by
    have hb := h'.sealed_ hc
    rw [hb]
    exact h.sealed_ (hb ▸ hc)
  started ha := h'.started (h.started ha)
  starting hc := ⟨(h.starting (h'.starting hc).1).1,
    (h'.starting hc).2.trans (h.starting (h'.starting hc).1).2⟩
  unregistered hc ha := by
    have hb : b.startedAt = none := by
      by_contra hne
      have hsome := h'.started (Option.isSome_iff_ne_none.mpr hne)
      simp [hc] at hsome
    exact h'.unregistered hc (h.unregistered hb ha)
  token hc := by
    rcases h'.token hc with hb | hb
    · exact (h.token hb).imp_right h'.started
    · exact .inr hb
  tokenKept ha := (h'.tokenKept (h.started ha)).trans (h.tokenKept ha)
  profile hk ha := (h'.profile hk (h.started ha)).trans (h.profile hk ha)
  terminal ha := h'.terminal (h.terminal ha)
  settled hk ha := (h'.settled hk (h.terminal ha)).trans (h.settled hk ha)
  healthy ha := h'.healthy (h.healthy ha)
  quarantined hk ha := h'.quarantined hk (h.quarantined hk ha)
  accepting hk hstarted hc := h.accepting hk hstarted (h'.accepting hk (h.started hstarted) hc)
  undrained hk ha := h'.undrained hk (h.undrained hk ha)
  emptied hk hc := by
    rcases h'.emptied hk hc with hb | hb
    · rcases h.emptied hk hb with ha | ha
      · exact .inl ha
      · right
        by_contra hne
        have hsome := Option.isSome_iff_ne_none.mpr hne
        exact hne ((h'.sealed_ hsome).trans ha)
    · exact .inr hb
  sticky hk hstarted ha := h'.sticky hk (h.started hstarted) (h.sticky hk hstarted ha)
  retired hk hstarted hc := h.retired hk hstarted (h'.retired hk (h.started hstarted) hc)

end SessionMove

structure ReservationMove (r r' : Reservation) : Prop where
  id : r'.id = r.id
  key : r'.reservationKey = r.reservationKey
  task : r'.taskId = r.taskId
  session : r'.sessionId = r.sessionId
  lease : r'.leaseId = r.leaseId
  state : r.state.movesTo r'.state = true

namespace ReservationMove

theorem refl (r : Reservation) : ReservationMove r r :=
  ⟨rfl, rfl, rfl, rfl, rfl, ReservationState.movesTo_refl _⟩

theorem trans {a b c : Reservation} (h : ReservationMove a b) (h' : ReservationMove b c) :
    ReservationMove a c :=
  ⟨h'.id.trans h.id, h'.key.trans h.key, h'.task.trans h.task, h'.session.trans h.session,
    h'.lease.trans h.lease, ReservationState.movesTo_trans h.state h'.state⟩

theorem live {r r' : Reservation} (h : ReservationMove r r') (hr : r'.state.live = true) :
    r.state.live = true := ReservationState.movesTo_live h.state hr

end ReservationMove

structure AdmissionMove (a a' : Admission) : Prop where
  id : a'.id = a.id
  session : a'.sessionId = a.sessionId
  expected : a'.expectedProjects = a.expectedProjects
  state : a.state.movesTo a'.state = true

namespace AdmissionMove

theorem refl (a : Admission) : AdmissionMove a a :=
  ⟨rfl, rfl, rfl, AdmissionState.movesTo_refl _⟩

theorem trans {a b c : Admission} (h : AdmissionMove a b) (h' : AdmissionMove b c) :
    AdmissionMove a c :=
  ⟨h'.id.trans h.id, h'.session.trans h.session, h'.expected.trans h.expected,
    AdmissionState.movesTo_trans h.state h'.state⟩

end AdmissionMove

structure Moves (keeps : Aspect → Prop) (db db' : Db) : Prop where
  leases : Table.Moved (LeaseMove keeps) db.leases db'.leases
  sessions : Table.Moved (SessionMove keeps) db.sessions db'.sessions
  reservations : Table.Moved ReservationMove db.reservations db'.reservations
  admissions : Table.Moved AdmissionMove db.admissions db'.admissions
  canarySlots : db'.canarySlots = db.canarySlots
  /-- A requeued lease takes back the slot of its own reservation at most. -/
  load_le : ∀ sid, db'.used sid + db'.held sid ≤ db.used sid + db.held sid
  restored : ∀ r ∈ db.reservations, ∀ r' ∈ db'.reservations, r'.id = r.id →
    r.state = .consumed → r'.state = .claimed →
      ∃ l ∈ db.leases, r.leaseId = some l.id ∧ l.state = .offered
  consumed : keeps .offers → ∀ r ∈ db.reservations, ∀ r' ∈ db'.reservations, r'.id = r.id →
    r.state = .consumed → r'.state ≠ .claimed
  /-- A reservation fails or expires together with its lease. -/
  ended : ∀ r ∈ db.reservations, ∀ r' ∈ db'.reservations, r'.id = r.id → r.id ≠ 0 →
    r.state.live = true → r'.state = .failed ∨ r'.state = .expired →
      ∀ l ∈ db'.leases, l.exactSessionReservationId = r.id →
        l.state = .releasing ∨ l.state.terminal = true
  aborted : keeps .admissions → ∀ a ∈ db.admissions, ∀ a' ∈ db'.admissions, a'.id = a.id →
    a'.state = .aborting → a.state = .aborting
  finished : ∀ a ∈ db.admissions, ∀ a' ∈ db'.admissions, a'.id = a.id →
    a.state.reserving = true → a'.state.reserving = false →
      ∀ c ∈ db.canarySlots, c.admissionId = a.id → ∀ l ∈ db'.leases, c.leaseId = some l.id →
        l.state.live = false
  /-- A session is unsealed only when its last slot holder is gone. -/
  unsealed : ∀ s ∈ db.sessions, ∀ s' ∈ db'.sessions, s'.id = s.id →
    s.solveBatchSealedAt.isSome = true → s'.solveBatchSealedAt = none → db'.used s.id = 0
  ready : ∀ s ∈ db.sessions, ∀ s' ∈ db'.sessions, s'.id = s.id →
    s'.state = .ready → s.state = .ready ∨ db'.used s.id = 0
  busy : keeps .holders → ∀ s ∈ db.sessions, ∀ s' ∈ db'.sessions, s'.id = s.id →
    s'.state = .busy → s.state = .busy ∨ 0 < db'.used s.id

namespace Moves

variable {keeps : Aspect → Prop} {db db' db'' : Db}

theorem used_le (h : Moves keeps db db') (sid : ℕ) : db'.used sid ≤ db.used sid :=
  h.leases.count_le fun _ _ hm hb ↦ (hm.holds hb).1

theorem used_eq (h : Moves keeps db db') (hk : keeps .holders) (sid : ℕ) :
    db'.used sid = db.used sid := by
  refine le_antisymm (h.used_le sid) ?_
  refine (Table.Moved.flip h.leases).count_le fun l' l hm hholds ↦ ?_
  simp only [Lease.holds, Bool.and_eq_true, beq_iff_eq] at hholds ⊢
  have hslot := hm.holder hk hholds.2
  exact ⟨(hm.place hslot).1.trans hholds.1, hslot⟩

/-- A row of the new table is the only one that the row with its id can have become. -/
theorem same_session (hs : db'.sessions = db.sessions) {s s' : Session} (hmem : s ∈ db.sessions)
    (hmem' : s' ∈ db'.sessions) (hid : s'.id = s.id) : s' = s :=
  Table.eq_of_key_eq (hs ▸ hmem') hmem hid

theorem same_admission (ha : db'.admissions = db.admissions) {a a' : Admission}
    (hmem : a ∈ db.admissions) (hmem' : a' ∈ db'.admissions) (hid : a'.id = a.id) : a' = a :=
  Table.eq_of_key_eq (ha ▸ hmem') hmem hid

theorem same_reservation (hr : db'.reservations = db.reservations) {r r' : Reservation}
    (hmem : r ∈ db.reservations) (hmem' : r' ∈ db'.reservations) (hid : r'.id = r.id) : r' = r :=
  Table.eq_of_key_eq (hr ▸ hmem') hmem hid

theorem of_leases (hl : Table.Moved (LeaseMove keeps) db.leases db'.leases)
    (hs : db'.sessions = db.sessions) (hr : db'.reservations = db.reservations)
    (ha : db'.admissions = db.admissions) (hc : db'.canarySlots = db.canarySlots) :
    Moves keeps db db' where
  leases := hl
  sessions := hs ▸ .refl fun s _ ↦ .refl s
  reservations := hr ▸ .refl fun r _ ↦ .refl r
  admissions := ha ▸ .refl fun a _ ↦ .refl a
  canarySlots := hc
  load_le sid := by
    have hused : db'.used sid ≤ db.used sid := hl.count_le fun _ _ hm hb ↦ (hm.holds hb).1
    have hheld : db'.held sid = db.held sid := by unfold Db.held; rw [hr]
    omega
  restored r hmem r' hmem' hid h h' := by simp [same_reservation hr hmem hmem' hid, h] at h'
  consumed _ r hmem r' hmem' hid h h' := by simp [same_reservation hr hmem hmem' hid, h] at h'
  ended r hmem r' hmem' hid _ h h' := by
    rw [same_reservation hr hmem hmem' hid] at h'
    rcases h' with h' | h' <;> simp [h', ReservationState.live] at h
  aborted _ a hmem a' hmem' hid h := by rwa [same_admission ha hmem hmem' hid] at h
  finished a hmem a' hmem' hid h h' := by simp [same_admission ha hmem hmem' hid, h] at h'
  unsealed s hmem s' hmem' hid h h' := by
    rw [same_session hs hmem hmem' hid] at h'
    simp [h'] at h
  ready s hmem s' hmem' hid h := by
    rw [same_session hs hmem hmem' hid] at h
    exact .inl h
  busy _ s hmem s' hmem' hid h := by
    rw [same_session hs hmem hmem' hid] at h
    exact .inl h

theorem of_same (hl : db'.leases = db.leases) (hs : db'.sessions = db.sessions)
    (hr : db'.reservations = db.reservations) (ha : db'.admissions = db.admissions)
    (hc : db'.canarySlots = db.canarySlots) : Moves keeps db db' :=
  of_leases (hl ▸ .refl fun l _ ↦ .refl l) hs hr ha hc

theorem refl (db : Db) : Moves keeps db db := of_same rfl rfl rfl rfl rfl

theorem trans (h : Moves keeps db db') (h' : Moves keeps db' db'') : Moves keeps db db'' where
  leases := h.leases.trans h'.leases fun _ _ _ ↦ LeaseMove.trans
  sessions := h.sessions.trans h'.sessions fun _ _ _ ↦ SessionMove.trans
  reservations := h.reservations.trans h'.reservations fun _ _ _ ↦ ReservationMove.trans
  admissions := h.admissions.trans h'.admissions fun _ _ _ ↦ AdmissionMove.trans
  canarySlots := h'.canarySlots.trans h.canarySlots
  load_le sid := (h'.load_le sid).trans (h.load_le sid)
  restored r hr r'' hr'' hid hconsumed hclaimed := by
    obtain ⟨r', hr', hm⟩ := h.reservations.exists_right hr
    have hid' : r''.id = r'.id := hid.trans hm.id.symm
    obtain ⟨x, hx, hm'⟩ := h'.reservations.exists_left hr''
    have hxr : x = r' := Table.eq_of_key_eq hx hr' (hm'.id.symm.trans hid')
    subst hxr
    rcases ReservationState.movesTo_claimed hm'.state hclaimed with hs | hs
    · exact h.restored r hr x hr' hm.id hconsumed hs
    · obtain ⟨l', hl', hlease, hoffered⟩ := h'.restored x hr' r'' hr'' hid' hs hclaimed
      obtain ⟨l, hl, hlm⟩ := h.leases.exists_left hl'
      exact ⟨l, hl, by rw [← hm.lease, hlease, hlm.id],
        LeaseState.movesTo_offered hlm.state hoffered⟩
  consumed hk r hr r'' hr'' hid hconsumed hclaimed := by
    obtain ⟨r', hr', hm⟩ := h.reservations.exists_right hr
    have hid' : r''.id = r'.id := hid.trans hm.id.symm
    obtain ⟨x, hx, hm'⟩ := h'.reservations.exists_left hr''
    have hxr : x = r' := Table.eq_of_key_eq hx hr' (hm'.id.symm.trans hid')
    subst hxr
    rcases ReservationState.movesTo_claimed hm'.state hclaimed with hs | hs
    · exact h.consumed hk r hr x hr' hm.id hconsumed hs
    · exact h'.consumed hk x hr' r'' hr'' hid' hs hclaimed
  ended r hr r'' hr'' hid hne hlive hended l'' hl'' hexact := by
    obtain ⟨r', hr', hm⟩ := h.reservations.exists_right hr
    have hid' : r''.id = r'.id := hid.trans hm.id.symm
    cases hlive' : r'.state.live with
    | true => exact h'.ended r' hr' r'' hr'' hid' (hm.id ▸ hne) hlive' hended l'' hl'' (hm.id ▸ hexact)
    | false =>
        obtain ⟨x, hx, hm'⟩ := h'.reservations.exists_left hr''
        have hxr : x = r' := Table.eq_of_key_eq hx hr' (hm'.id.symm.trans hid')
        subst hxr
        have hdead := ReservationState.movesTo_dead hm'.state hlive'
        obtain ⟨l', hl', hlm⟩ := h'.leases.exists_left hl''
        have hexact' : l'.exactSessionReservationId = r.id := hlm.exactReservation ▸ hexact
        rcases h.ended r hr x hr' hm.id hne hlive (hdead ▸ hended) l' hl' hexact' with hrel | hterm
        · rcases LeaseState.movesTo_releasing hlm.state hrel with hq | hq | hq
          · rcases (hlm.requeued (by rw [hrel]; rfl) hq).2 with hzero | hoffered
            · exact (hne (hexact'.symm.trans hzero)).elim
            · simp [hrel] at hoffered
          · exact .inl hq
          · exact .inr hq
        · exact .inr (LeaseState.movesTo_terminal hlm.state hterm ▸ hterm)
  aborted hk a ha a'' ha'' hid haborting := by
    obtain ⟨a', ha', hm⟩ := h.admissions.exists_right ha
    exact h.aborted hk a ha a' ha' hm.id
      (h'.aborted hk a' ha' a'' ha'' (hid.trans hm.id.symm) haborting)
  finished a ha a'' ha'' hid hres hdone c hc hadm l'' hl'' hlease := by
    obtain ⟨a', ha', hm⟩ := h.admissions.exists_right ha
    have hid' : a''.id = a'.id := hid.trans hm.id.symm
    cases hres' : a'.state.reserving with
    | true =>
        exact h'.finished a' ha' a'' ha'' hid' hres' hdone c (h.canarySlots ▸ hc)
          (hadm.trans hm.id.symm) l'' hl'' hlease
    | false =>
        obtain ⟨l', hl', hlm⟩ := h'.leases.exists_left hl''
        have hdead := h.finished a ha a' ha' hm.id hres hres' c hc hadm l' hl'
          (hlm.id ▸ hlease)
        cases hlive : l''.state.live with
        | false => rfl
        | true => simp [hlm.live hlive] at hdead
  unsealed s hs s'' hs'' hid hsome hnone := by
    obtain ⟨s', hs', hm⟩ := h.sessions.exists_right hs
    cases hsealed : s'.solveBatchSealedAt with
    | none =>
        have hle := h'.used_le s.id
        have hzero := h.unsealed s hs s' hs' hm.id hsome hsealed
        omega
    | some t =>
        have hzero := h'.unsealed s' hs' s'' hs'' (hid.trans hm.id.symm) (by simp [hsealed]) hnone
        rwa [hm.id] at hzero
  ready s hs s'' hs'' hid hready := by
    obtain ⟨s', hs', hm⟩ := h.sessions.exists_right hs
    rcases h'.ready s' hs' s'' hs'' (hid.trans hm.id.symm) hready with hr | hzero
    · refine (h.ready s hs s' hs' hm.id hr).imp_right fun hzero ↦ ?_
      have hle := h'.used_le s.id
      omega
    · exact .inr (hm.id ▸ hzero)
  busy hk s hs s'' hs'' hid hbusy := by
    obtain ⟨s', hs', hm⟩ := h.sessions.exists_right hs
    rcases h'.busy hk s' hs' s'' hs'' (hid.trans hm.id.symm) hbusy with hb | hpos
    · refine (h.busy hk s hs s' hs' hm.id hb).imp_right fun hpos ↦ ?_
      rwa [h'.used_eq hk]
    · exact .inr (hm.id ▸ hpos)

theorem onLeases {p : Lease → Bool} {f : Lease → Lease}
    {hf : ∀ l, Keyed.key (f l) = Keyed.key l}
    (h : ∀ l ∈ db.leases, p l = true → LeaseMove keeps l (f l)) : Moves keeps db (db.onLeases p f hf) :=
  of_leases (.update hf h fun l _ _ ↦ .refl l) rfl rfl rfl rfl

theorem onSessions {p : Session → Bool} {f : Session → Session}
    {hf : ∀ s, Keyed.key (f s) = Keyed.key s}
    (h : ∀ s ∈ db.sessions, p s = true → SessionMove keeps s (f s))
    (hkeep : ∀ s ∈ db.sessions, p s = true → s.solveBatchSealedAt.isSome = true →
      (f s).solveBatchSealedAt = none → db.used s.id = 0)
    (hready : ∀ s ∈ db.sessions, p s = true → (f s).state = .ready →
      s.state = .ready ∨ db.used s.id = 0)
    (hbusy : ∀ s ∈ db.sessions, p s = true → (f s).state = .busy →
      s.state = .busy ∨ 0 < db.used s.id) :
    Moves keeps db (db.onSessions p f hf) := by
  have hrow : ∀ s ∈ db.sessions, ∀ s' ∈ (db.onSessions p f hf).sessions, s'.id = s.id →
      s' = if p s then f s else s := fun s hs s' hs' hid ↦ Db.onSessions_row hs hs' hid
  exact
    { leases := .refl fun l _ ↦ .refl l
      sessions := .update hf h fun s _ _ ↦ .refl s
      reservations := .refl fun r _ ↦ .refl r
      admissions := .refl fun a _ ↦ .refl a
      canarySlots := rfl
      load_le := fun _ ↦ le_rfl
      restored := fun r hr r' hr' hid hc hc' ↦ by
        simp [Table.eq_of_key_eq hr' hr hid, hc] at hc'
      consumed := fun _ r hr r' hr' hid hc hc' ↦ by
        simp [Table.eq_of_key_eq hr' hr hid, hc] at hc'
      ended := fun r hr r' hr' hid _ hlive hdead ↦ by
        rw [Table.eq_of_key_eq hr' hr hid] at hdead
        rcases hdead with h | h <;> simp [h, ReservationState.live] at hlive
      aborted := fun _ a ha a' ha' hid h ↦ by rwa [Table.eq_of_key_eq ha' ha hid] at h
      finished := fun a ha a' ha' hid hres hres' ↦ by
        simp [Table.eq_of_key_eq ha' ha hid, hres] at hres'
      unsealed := fun s hs s' hs' hid hsome hnone ↦ by
        rw [hrow s hs s' hs' hid] at hnone
        split at hnone
        · exact hkeep s hs ‹_› hsome hnone
        · simp [hnone] at hsome
      ready := fun s hs s' hs' hid hr ↦ by
        rw [hrow s hs s' hs' hid] at hr
        split at hr
        · exact hready s hs ‹_› hr
        · exact .inl hr
      busy := fun _ s hs s' hs' hid hb ↦ by
        rw [hrow s hs s' hs' hid] at hb
        split at hb
        · exact hbusy s hs ‹_› hb
        · exact .inl hb }

theorem onReservations {p : Reservation → Bool} {f : Reservation → Reservation}
    {hf : ∀ r, Keyed.key (f r) = Keyed.key r}
    (h : ∀ r ∈ db.reservations, p r = true → ReservationMove r (f r) ∧
      (f r).state.live = false)
    (hended : ∀ r ∈ db.reservations, p r = true → (f r).state = .failed ∨ (f r).state = .expired →
      ∀ l ∈ db.leases, l.exactSessionReservationId = r.id →
        l.state = .releasing ∨ l.state.terminal = true) :
    Moves keeps db (db.onReservations p f hf) where
  leases := .refl fun l _ ↦ .refl l
  sessions := .refl fun s _ ↦ .refl s
  reservations := .update hf (fun r hr hp ↦ (h r hr hp).1) fun r _ _ ↦ .refl r
  admissions := .refl fun a _ ↦ .refl a
  canarySlots := rfl
  load_le sid := by
    refine Nat.add_le_add_left (Table.Moved.count_le (R := fun r r' ↦
      r'.sessionId = r.sessionId ∧ (r'.state.holdsSlot = true → r.state.holdsSlot = true)) ?_ ?_) _
    · refine .update hf (fun r hr hp ↦ ⟨(h r hr hp).1.session, fun hs ↦ ?_⟩)
        fun r _ _ ↦ ⟨rfl, fun hs ↦ hs⟩
      have := (h r hr hp).2
      simp [ReservationState.live_of_holdsSlot hs] at this
    · rintro r r' ⟨hsession, hslot⟩ hr
      simp only [Reservation.holds, Bool.and_eq_true, beq_iff_eq] at hr ⊢
      exact ⟨hsession ▸ hr.1, hslot hr.2⟩
  restored r hr r' hr' hid hc hc' := by
    rw [Db.onReservations_row hr hr' hid] at hc'
    split at hc'
    · have := (h r hr ‹_›).2
      simp [hc', ReservationState.live] at this
    · simp [hc] at hc'
  consumed _ r hr r' hr' hid hc hc' := by
    rw [Db.onReservations_row hr hr' hid] at hc'
    split at hc'
    · have := (h r hr ‹_›).2
      simp [hc', ReservationState.live] at this
    · simp [hc] at hc'
  ended r hr r' hr' hid _ hlive hdead l hl hexact := by
    rw [Db.onReservations_row hr hr' hid] at hdead
    split at hdead
    · exact hended r hr ‹_› hdead l hl hexact
    · rcases hdead with h | h <;> simp [h, ReservationState.live] at hlive
  aborted _ a ha a' ha' hid h := by rwa [Table.eq_of_key_eq ha' ha hid] at h
  finished a ha a' ha' hid h h' := by
    simp [Table.eq_of_key_eq ha' ha hid, h] at h'
  unsealed s hs s' hs' hid h h' := by
    rw [Table.eq_of_key_eq hs' hs hid] at h'
    simp [h'] at h
  ready s hs s' hs' hid h := by
    rw [Table.eq_of_key_eq hs' hs hid] at h
    exact .inl h
  busy _ s hs s' hs' hid h := by
    rw [Table.eq_of_key_eq hs' hs hid] at h
    exact .inl h

theorem onAdmissions {p : Admission → Bool} {f : Admission → Admission}
    {hf : ∀ a, Keyed.key (f a) = Keyed.key a}
    (h : ∀ a ∈ db.admissions, p a = true → AdmissionMove a (f a))
    (hfin : ∀ a ∈ db.admissions, p a = true → a.state.reserving = true →
      (f a).state.reserving = false → ∀ c ∈ db.canarySlots, c.admissionId = a.id →
        ∀ l ∈ db.leases, c.leaseId = some l.id → l.state.live = false)
    (habort : keeps .admissions → ∀ a ∈ db.admissions, p a = true → (f a).state = .aborting →
      a.state = .aborting) :
    Moves keeps db (db.onAdmissions p f hf) where
  leases := .refl fun l _ ↦ .refl l
  sessions := .refl fun s _ ↦ .refl s
  reservations := .refl fun r _ ↦ .refl r
  admissions := .update hf h fun a _ _ ↦ .refl a
  canarySlots := rfl
  load_le _ := le_rfl
  restored r hr r' hr' hid h h' := by
    simp [Table.eq_of_key_eq hr' hr hid, h] at h'
  consumed _ r hr r' hr' hid h h' := by
    simp [Table.eq_of_key_eq hr' hr hid, h] at h'
  ended r hr r' hr' hid _ hlive hdead := by
    rw [Table.eq_of_key_eq hr' hr hid] at hdead
    rcases hdead with h | h <;> simp [h, ReservationState.live] at hlive
  aborted hk a ha a' ha' hid h := by
    rw [Db.onAdmissions_row ha ha' hid] at h
    split at h
    · exact habort hk a ha ‹_› h
    · exact h
  finished a ha a' ha' hid hres hdone := by
    rw [Db.onAdmissions_row ha ha' hid] at hdone
    split at hdone
    · exact hfin a ha ‹_› hres hdone
    · simp [hres] at hdone
  unsealed s hs s' hs' hid h h' := by
    rw [Table.eq_of_key_eq hs' hs hid] at h'
    simp [h'] at h
  ready s hs s' hs' hid h := by
    rw [Table.eq_of_key_eq hs' hs hid] at h
    exact .inl h
  busy _ s hs s' hs' hid h := by
    rw [Table.eq_of_key_eq hs' hs hid] at h
    exact .inl h

end Moves

end SlurmScheduler.Pool
