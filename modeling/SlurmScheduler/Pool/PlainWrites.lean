import SlurmScheduler.Pool.GuardedCalls

namespace SlurmScheduler.Pool

open Relational

def Db.Started (db : Db) (sid : ℕ) : Prop :=
  ∃ s ∈ db.sessions, s.id = sid ∧ s.startedAt.isSome = true

structure Registered (db : Db) : Prop where
  positive : ∀ s ∈ db.sessions, s.id ≠ 0
  unregistered : ∀ s ∈ db.sessions, s.startedAt = none → s.Unregistered
  token : ∀ s ∈ db.sessions, s.hostTokenHash ≠ "" → s.startedAt.isSome = true
  starting : ∀ s ∈ db.sessions, s.state = .starting → s.startedAt = none
  sealed_ : ∀ s ∈ db.sessions, s.solveBatchSealedAt.isSome = true → s.startedAt.isSome = true
  lease : ∀ l ∈ db.leases, ∀ sid, l.sessionId = some sid → db.Started sid
  reservation : ∀ r ∈ db.reservations, db.Started r.sessionId
  admission : ∀ a ∈ db.admissions, db.Started a.sessionId

structure Paired (db : Db) : Prop where
  positive : ∀ r ∈ db.reservations, r.id ≠ 0
  claimed : ∀ r ∈ db.reservations, ∀ k, r.leaseId = some k → ∃ l ∈ db.leases, l.id = k ∧
    l.exactSessionReservationId = r.id ∧ l.requestedSessionId = r.sessionId
  authorized : ∀ l ∈ db.leases, l.exactSessionReservationId ≠ 0 → ∃ r ∈ db.reservations,
    r.id = l.exactSessionReservationId ∧ r.leaseId = some l.id
  exact : ∀ l ∈ db.leases, l.exactSessionReservationId ≠ 0 → l.state.holdsSlot = true →
    l.sessionId = some l.requestedSessionId

structure Seated (db : Db) : Prop where
  seat : ∀ l ∈ db.leases, l.state.holdsSlot = true → ∃ s ∈ db.sessions, l.sessionId = some s.id ∧
    ∃ i, l.slotIndex = some i ∧ i < s.slotsTotal
  distinct : ∀ a ∈ db.leases, ∀ b ∈ db.leases, ∀ sid, a.holds sid = true → b.holds sid = true →
    a.slotIndex = b.slotIndex → a = b
  load : ∀ s ∈ db.sessions, db.used s.id + db.held s.id ≤ s.slotsTotal

structure Sound (db : Db) : Prop where
  registered : Registered db
  paired : Paired db
  seated : Seated db

def Db.Running (db : Db) (sid : ℕ) : Prop :=
  ∀ s ∈ db.sessions, s.id = sid → s.state ≠ .starting

theorem Db.Started.row {db : Db} {sid : ℕ} (h : db.Started sid) {s : Session}
    (hs : s ∈ db.sessions) (hid : s.id = sid) : s.startedAt.isSome = true := by
  obtain ⟨x, hx, hxid, hstarted⟩ := h
  have hxs : x = s := Table.eq_of_key_eq hx hs (hxid.trans hid.symm)
  exact hxs ▸ hstarted

theorem Registered.running {db : Db} (h : Registered db) {sid : ℕ} (hs : db.Started sid) :
    db.Running sid := by
  intro s hmem hid hstate
  have hstarted := hs.row hmem hid
  simp [h.starting s hmem hstate] at hstarted

theorem Paired.session_of_claimed {db : Db} (h : Paired db) {r : Reservation}
    (hr : r ∈ db.reservations) {l : Lease} (hl : l ∈ db.leases) (hlease : r.leaseId = some l.id) :
    l.exactSessionReservationId = r.id ∧ l.requestedSessionId = r.sessionId := by
  obtain ⟨x, hx, hid, hexact⟩ := h.claimed r hr l.id hlease
  have hxl : x = l := Table.eq_of_key_eq hx hl hid
  exact hxl ▸ hexact

/-- The lease that an exact reservation row authorizes is on the session of the row. -/
theorem Paired.session_of_exact {db : Db} (h : Paired db) {r : Reservation}
    (hr : r ∈ db.reservations) {l : Lease} (hl : l ∈ db.leases)
    (hexact : l.exactSessionReservationId = r.id) :
    r.leaseId = some l.id ∧ l.requestedSessionId = r.sessionId := by
  have hne : l.exactSessionReservationId ≠ 0 := hexact ▸ h.positive r hr
  obtain ⟨x, hx, hid, hlease⟩ := h.authorized l hl hne
  have hxr : x = r := Table.eq_of_key_eq hx hr (hid.trans hexact)
  subst hxr
  exact ⟨hlease, (h.session_of_claimed hx hl hlease).2⟩

theorem Session.Unregistered.not_serving {s : Session} (h : s.Unregistered) :
    s.state.serving = false := by
  rcases h with h | ⟨-, h | ⟨h, -⟩⟩
  · cases hstate : s.state <;> simp_all [SessionState.serving, SessionState.terminal]
  · rw [h]
    rfl
  · rw [h]
    rfl

theorem Session.Unregistered.not_timedOut {s : Session} (h : s.Unregistered)
    (hstate : s.state = .unhealthy) : s.failureMessage ≠ sessionHeartbeatTimeoutMessage := by
  rcases h with h | ⟨-, h | ⟨-, h⟩⟩
  · simp [hstate, SessionState.terminal] at h
  · simp [hstate] at h
  · rw [h]
    decide

theorem Session.Unregistered.of_same {s s' : Session} (h : s.Unregistered)
    (hstate : s'.state = s.state) (hmessage : s'.failureMessage = s.failureMessage)
    (hreason : s'.quarantineReason = s.quarantineReason) : s'.Unregistered := by
  unfold Session.Unregistered
  rwa [hstate, hmessage, hreason]

theorem serving_of_assignable {s : SessionState} (h : s.assignable = true) : s.serving = true := by
  cases s <;> simp_all [SessionState.serving, SessionState.assignable]

theorem serving_not_terminal {s : SessionState} (h : s.serving = true) : s.terminal = false := by
  cases s <;> simp_all [SessionState.serving, SessionState.terminal]

theorem Registered.serving {db : Db} (h : Registered db) {s : Session} (hs : s ∈ db.sessions)
    (hserving : s.state.serving = true) : s.startedAt.isSome = true := by
  by_contra hne
  have hun := h.unregistered s hs (by simpa using hne)
  simp [hun.not_serving] at hserving

theorem Registered.assignable {db : Db} (h : Registered db) (s : Session) (hs : s ∈ db.sessions)
    (hassign : s.state.assignable = true) : s.startedAt.isSome = true :=
  h.serving hs (serving_of_assignable hassign)

namespace SessionMove

variable {keeps : Aspect → Prop} {s s' : Session}

/-- Bookkeeping that leaves alone most of what decides where leases may go. -/
theorem touch (hterms : s'.terms = s.terms) (hsealed : s'.solveBatchSealedAt = s.solveBatchSealedAt)
    (hstarted : s'.startedAt = s.startedAt) (htoken : s'.hostTokenHash = s.hostTokenHash)
    (hprofile : s'.sessionProfile = s.sessionProfile ∨ ¬ keeps .profiles)
    (hstate : s'.state = s.state)
    (hdrain : s'.drainRequestedAt = s.drainRequestedAt ∨
      (s'.drainRequestedAt = none ∧ ¬ keeps .drains))
    (hmessage : s'.failureMessage = s.failureMessage)
    (hreason : s'.quarantineReason = s.quarantineReason) : SessionMove keeps s s' where
  terms := hterms
  sealed_ _ := hsealed
  started h := hstarted ▸ h
  starting h := ⟨hstate ▸ h, hstarted⟩
  unregistered _ h := h.of_same hstate hmessage hreason
  token h := .inl (htoken ▸ h)
  tokenKept _ := htoken
  profile hk _ := hprofile.resolve_right fun hnot ↦ hnot hk
  terminal h := hstate ▸ h
  settled _ _ := hstate
  healthy h hassign := hreason.trans (h (hstate ▸ hassign))
  quarantined _ h := hreason ▸ h
  accepting _ _ h := by
    unfold Session.accepting at h ⊢
    rwa [hstate, hmessage, hreason] at h
  undrained _ h hassign := by
    rcases hdrain with hsame | ⟨hnone, -⟩
    · exact hsame.trans (h (hstate ▸ hassign))
    · exact hnone
  emptied _ h := .inl (hstate ▸ h)
  sticky hk _ h := by
    rcases hdrain with hsame | ⟨-, hnot⟩
    · exact hsame ▸ h
    · exact (hnot hk).elim
  retired _ _ h := hstate ▸ h

theorem retire (hterms : s'.terms = s.terms)
    (hsealed : s'.solveBatchSealedAt = s.solveBatchSealedAt)
    (hstarted : s'.startedAt = s.startedAt) (htoken : s'.hostTokenHash = s.hostTokenHash)
    (hprofile : s'.sessionProfile = s.sessionProfile)
    (hlive : s.state.terminal = false) (hidle : s'.state.assignable = false)
    (hstart : s'.state ≠ .starting) (haccepting : s'.accepting = true → s.accepting = true)
    (hunregistered : s'.startedAt = none → s.Unregistered → s'.Unregistered)
    (hreason : s'.quarantineReason = s.quarantineReason ∨ s'.quarantineReason ≠ "")
    (hdrain : keeps .drains → s.drainRequestedAt.isSome = true →
      s'.drainRequestedAt.isSome = true) : SessionMove keeps s s' where
  terms := hterms
  sealed_ _ := hsealed
  started h := hstarted ▸ h
  starting h := (hstart h).elim
  unregistered := hunregistered
  token h := .inl (htoken ▸ h)
  tokenKept _ := htoken
  profile _ _ := hprofile
  terminal h := by simp [hlive] at h
  settled _ h := by simp [hlive] at h
  healthy _ h := by simp [hidle] at h
  quarantined _ h := by
    rcases hreason with hsame | hset
    · exact hsame ▸ h
    · exact hset
  accepting _ _ := haccepting
  undrained _ _ h := by simp [hidle] at h
  emptied _ h := by simp [h, SessionState.assignable] at hidle
  sticky hk _ := hdrain hk
  retired _ _ h := by simp [hidle] at h

end SessionMove

theorem Session.accepting_of_assignable {s : Session} (h : s.state.assignable = true) :
    s.accepting = true := by simp [Session.accepting, h]

namespace LeaseMove

variable {keeps : Aspect → Prop} {l l' : Lease}

theorem touch (hterms : l'.terms = l.terms) (hsession : l'.sessionId = l.sessionId)
    (hslot : l'.slotIndex = l.slotIndex) (hpermit : l'.solvePermitAt = l.solvePermitAt)
    (hgen : l'.solvePermitGeneration = l.solvePermitGeneration) (hstate : l'.state = l.state)
    (hreason : keeps .reasons → l.state = .releasing → l'.failureMessage = l.failureMessage) :
    LeaseMove keeps l l' where
  terms := hterms
  state := hstate ▸ LeaseState.movesTo_refl _
  place _ := ⟨hsession, hslot⟩
  session := .inl hsession
  permit := .inl ⟨hpermit, hgen⟩
  requeued h hq := by simp [hstate ▸ hq, LeaseState.holdsSlot] at h
  owner _ h := hstate ▸ h
  holder _ h := hstate ▸ h
  reason hk h _ := hreason hk h
  queue _ h hq := by simp [hstate ▸ hq, LeaseState.holdsSlot] at h
  pinned _ h hq := by simp [hstate ▸ hq, LeaseState.holdsSlot] at h

theorem advance (hterms : l'.terms = l.terms) (hsession : l'.sessionId = l.sessionId)
    (hslot : l'.slotIndex = l.slotIndex) (hpermit : l'.solvePermitAt = l.solvePermitAt)
    (hgen : l'.solvePermitGeneration = l.solvePermitGeneration)
    (hstate : l.state.movesTo l'.state = true) (howns : l'.state.ownsProject = true)
    (hreason : keeps .reasons → l.state = .releasing → l'.state = .releasing →
      l'.failureMessage = l.failureMessage) : LeaseMove keeps l l' where
  terms := hterms
  state := hstate
  place _ := ⟨hsession, hslot⟩
  session := .inl hsession
  permit := .inl ⟨hpermit, hgen⟩
  requeued _ hq := by simp [hq, LeaseState.ownsProject] at howns
  owner _ _ := howns
  holder _ _ := LeaseState.holdsSlot_of_ownsProject howns
  reason := hreason
  queue _ _ hq := by simp [hq, LeaseState.ownsProject] at howns
  pinned _ _ hq := by simp [hq, LeaseState.ownsProject] at howns

theorem release (hterms : l'.terms = l.terms) (hsession : l'.sessionId = l.sessionId)
    (hslot : l'.slotIndex = l.slotIndex) (hpermit : l'.solvePermitAt = l.solvePermitAt)
    (hgen : l'.solvePermitGeneration = l.solvePermitGeneration) (hstate : l'.state = .releasing)
    (hfrom : l.state = .leased ∨ l.state.ownsProject = true)
    (hreason : keeps .reasons → l.state = .releasing → l'.failureMessage = l.failureMessage) :
    LeaseMove keeps l l' :=
  advance hterms hsession hslot hpermit hgen (hstate ▸ LeaseState.movesTo_release hfrom)
    (by rw [hstate]; rfl) fun hk h _ ↦ hreason hk h

theorem finish (hterms : l'.terms = l.terms)
    (hsession : l'.sessionId = l.sessionId ∨ l'.sessionId = none)
    (hpermit : l'.solvePermitAt = l.solvePermitAt)
    (hgen : l'.solvePermitGeneration = l.solvePermitGeneration)
    (hlive : l.state.live = true) (hterm : l'.state.terminal = true)
    (howner : keeps .owners → l.state.ownsProject = false)
    (hholder : keeps .holders → l.state.holdsSlot = false) : LeaseMove keeps l l' where
  terms := hterms
  state := LeaseState.movesTo_of_end hlive hterm
  place h := by simp [LeaseState.not_holdsSlot_of_terminal hterm] at h
  session := hsession
  permit := .inl ⟨hpermit, hgen⟩
  requeued _ h := by simp [h, LeaseState.terminal, LeaseState.live] at hterm
  owner hk h := by simp [howner hk] at h
  holder hk h := by simp [hholder hk] at h
  reason _ _ h := by simp [h, LeaseState.terminal, LeaseState.live, LeaseState.holdsSlot] at hterm
  queue _ _ h := by simp [h, LeaseState.terminal, LeaseState.live] at hterm
  pinned _ _ h := by simp [h, LeaseState.terminal, LeaseState.live] at hterm

theorem requeue (hterms : l'.terms = l.terms) (hsession : l'.sessionId = none)
    (hpermit : l'.solvePermitAt = none) (hholds : l.state.holdsSlot = true)
    (hstate : l'.state = .queued)
    (hcohort : l.exactSessionReservationId = 0 ∨ l.state = .offered)
    (howner : keeps .owners → l.state.ownsProject = false) (hholder : ¬ keeps .holders)
    (hqueue : ¬ keeps .queue) (hpinned : keeps .offers → l.exactSessionReservationId = 0) :
    LeaseMove keeps l l' where
  terms := hterms
  state := by simp [LeaseState.movesTo, hholds, hstate]
  place h := by simp [hstate, LeaseState.holdsSlot] at h
  session := .inr hsession
  permit := .inr ⟨hpermit, hholds, by rw [hstate]; rfl, hcohort⟩
  requeued _ _ := ⟨hpermit, hcohort⟩
  owner hk h := by simp [howner hk] at h
  holder hk := (hholder hk).elim
  reason _ _ h := by simp [hstate] at h
  queue hk := (hqueue hk).elim
  pinned hk _ _ := hpinned hk

end LeaseMove

namespace Moves

variable {keeps : Aspect → Prop} {db db' : Db}

theorem running (h : Moves keeps db db') {sid : ℕ} (hrun : db.Running sid) : db'.Running sid := by
  intro s' hs' hid hstate
  obtain ⟨s, hs, hm⟩ := h.sessions.exists_left hs'
  exact hrun s hs (hm.id ▸ hid) (hm.starting hstate).1

theorem started (h : Moves keeps db db') {sid : ℕ} (hs : db.Started sid) : db'.Started sid := by
  obtain ⟨s, hs, rfl, hstarted⟩ := hs
  obtain ⟨s', hs', hm⟩ := h.sessions.exists_right hs
  exact ⟨s', hs', hm.id, hm.started hstarted⟩

theorem unassigned {s t : Session} (h : t.state.assignable = false) :
    t.state = .ready ∨ t.state = .busy → t.state = s.state := by
  rintro (ht | ht) <;> simp [ht, SessionState.assignable] at h

theorem touchSessions {p : Session → Bool} {f : Session → Session}
    {hf : ∀ s, Keyed.key (f s) = Keyed.key s}
    (h : ∀ s ∈ db.sessions, p s = true → SessionMove keeps s (f s))
    (hready : ∀ s, p s = true → (f s).state = .ready ∨ (f s).state = .busy →
      (f s).state = s.state)
    (hsealed : ∀ s, (f s).solveBatchSealedAt = s.solveBatchSealedAt) :
    Moves keeps db (db.onSessions p f hf) :=
  onSessions h (fun s _ _ hsome hnone ↦ by simp [← hsealed s, hnone] at hsome)
    (fun s _ hp hr ↦ .inl ((hready s hp (.inl hr)).symm.trans hr))
    fun s _ hp hb ↦ .inl ((hready s hp (.inr hb)).symm.trans hb)

theorem refreshSession {sid : ℕ} (now : Time) (hrun : db.Running sid) :
    Moves keeps db (refreshSession sid now db) := by
  have hassign : ∀ s ∈ db.sessions, (s.id == sid && s.state.refreshable) = true →
      s.id = sid ∧ s.state.assignable = true := by
    intro s hs hp
    simp only [Bool.and_eq_true, beq_iff_eq] at hp
    refine ⟨hp.1, ?_⟩
    have hne := hrun s hs hp.1
    cases hstate : s.state <;> simp_all [SessionState.refreshable, SessionState.assignable]
  refine onSessions (fun s hs hp ↦ ?_) (fun s hs hp hsome hnone ↦ ?_) (fun s hs hp hr ↦ ?_)
    fun s hs hp hb ↦ ?_
  · obtain ⟨-, ha⟩ := hassign s hs hp
    have hnot : s.state.terminal = false := by
      cases hstate : s.state <;> simp_all [SessionState.assignable, SessionState.terminal]
    exact
      { terms := rfl
        sealed_ := fun h ↦ by
          simp only [Session.refreshed] at h ⊢
          split at h <;> simp_all
        started := fun h ↦ h
        starting := fun h ↦ by
          simp only [Session.refreshed] at h
          split at h <;> [cases h; split at h <;> cases h]
        unregistered := fun _ h ↦ by simpa [serving_of_assignable ha] using h.not_serving
        token := .inl
        tokenKept := fun _ ↦ rfl
        profile := fun _ _ ↦ rfl
        terminal := fun h ↦ by simp [hnot] at h
        settled := fun _ h ↦ by simp [hnot] at h
        healthy := fun h _ ↦ h ha
        quarantined := fun _ h ↦ h
        accepting := fun _ _ _ ↦ Session.accepting_of_assignable ha
        undrained := fun _ h _ ↦ h ha
        sticky := fun _ _ h ↦ h
        retired := fun _ _ _ ↦ ha
        emptied := fun _ h ↦ by
          simp only [Session.refreshed] at h ⊢
          split at h
          · cases h
          · split at h
            · exact .inr (by simp_all)
            · cases h }
  · obtain ⟨rfl, -⟩ := hassign s hs hp
    simp only [Session.refreshed] at hnone
    split at hnone
    · simp_all
    · simp [hnone] at hsome
  · obtain ⟨rfl, -⟩ := hassign s hs hp
    simp only [Session.refreshed] at hr
    split at hr
    · cases hr
    · split at hr
      · exact .inr (by simp_all)
      · cases hr
  · obtain ⟨rfl, -⟩ := hassign s hs hp
    simp only [Session.refreshed] at hb
    split at hb
    · cases hb
    · split at hb
      · cases hb
      · exact .inr (Nat.pos_of_ne_zero (by simp_all))

theorem refreshSessions {sids : List ℕ} (now : Time) (hrun : ∀ sid ∈ sids, db.Running sid) :
    Moves keeps db (refreshSessions sids now db) := by
  induction sids generalizing db with
  | nil => exact .refl db
  | cons sid sids ih =>
      have h : Moves keeps db (Pool.refreshSession sid now db) :=
        refreshSession now (hrun sid List.mem_cons_self)
      exact h.trans (ih fun sid' hsid' ↦ h.running (hrun sid' (List.mem_cons_of_mem _ hsid')))

theorem onTasks {p : Task → Bool} {f : Task → Task} {hf : ∀ t, Keyed.key (f t) = Keyed.key t} :
    Moves keeps db (db.onTasks p f hf) := of_same rfl rfl rfl rfl rfl

theorem onAllocations {p : Allocation → Bool} {f : Allocation → Allocation}
    {hf : ∀ a, Keyed.key (f a) = Keyed.key a} : Moves keeps db (db.onAllocations p f hf) :=
  of_same rfl rfl rfl rfl rfl

theorem drainAllocation (aid : ℕ) (reason : String) (now : Time) (db : Db) :
    Moves keeps db (drainAllocation aid reason now db) := onAllocations

theorem blockReuse (sid : ℕ) (now : Time) (db : Db) : Moves keeps db (blockReuse sid now db) :=
  touchSessions (fun _ _ _ ↦ .touch rfl rfl rfl rfl (.inl rfl) rfl (.inl rfl) rfl rfl)
    (fun _ _ _ ↦ rfl) fun _ ↦ rfl

theorem blockCohortReuse (key : String) (now : Time) (db : Db) :
    Moves keeps db (blockCohortReuse key now db) :=
  touchSessions (fun _ _ _ ↦ .touch rfl rfl rfl rfl (.inl rfl) rfl (.inl rfl) rfl rfl)
    (fun _ _ _ ↦ rfl) fun _ ↦ rfl

theorem settleCohortOwners (key : String) (now : Time) (reason : String) (db : Db)
    (hreasons : ¬ keeps .reasons) : Moves keeps db (settleCohortOwners key now reason db) := by
  refine trans (onLeases fun l _ hl ↦ ?_) (blockCohortReuse key now _)
  simp only [Bool.and_eq_true] at hl
  exact .release rfl rfl rfl rfl rfl rfl (.inr hl.2) fun hk ↦ (hreasons hk).elim

theorem inCohort_of {r : Reservation} {l : Lease} (hr : r ∈ db.reservations)
    (hexact : l.exactSessionReservationId = r.id) : db.inCohort r.reservationKey l = true :=
  List.any_eq_true.mpr ⟨r, hr, by simp [hexact]⟩

theorem settleCohortOwners_leases {key reason : String} {now : Time} :
    (Pool.settleCohortOwners key now reason db).leases =
      (db.onLeases (fun l ↦ db.inCohort key l && l.state.ownsProject) (fun l ↦ { l with
        state := .releasing, failureMessage := reason
        releaseRequestedAt := some (l.releaseRequestedAt.getD now), updatedAt := now })
        fun _ ↦ rfl).leases := rfl

theorem permittedLease_of {r : Reservation} {l : Lease} (hl : l ∈ db.leases)
    (hlease : r.leaseId = some l.id) : db.permittedLease r = l.solvePermitAt.isSome := by
  unfold Db.permittedLease Db.leaseOf
  rw [hlease, Option.bind_some, find?_leaseId hl, Option.any_some]

/-- Every member of a settled cohort waits for a project or for its release, or has ended. -/
theorem settleCohortOwners_idle {key reason : String} {now : Time} {l : Lease}
    (hl : l ∈ (Pool.settleCohortOwners key now reason db).leases)
    (hcohort : db.inCohort key l = true) : l.state.awaitsProject = true ∨ l.state = .releasing ∨
      l.state.terminal = true := by
  rw [settleCohortOwners_leases, Db.mem_onLeases] at hl
  obtain ⟨a, -, rfl⟩ := hl
  by_cases howns : (db.inCohort key a && a.state.ownsProject) = true
  · rw [if_pos howns]
    exact .inr (.inl rfl)
  · rw [if_neg howns] at hcohort ⊢
    rw [hcohort, Bool.true_and, Bool.not_eq_true] at howns
    exact LeaseState.idle_of_not_ownsProject howns

theorem failCohort_idle {key reason : String} {now : Time} {settle : Bool} {l : Lease}
    (hl : l ∈ (Pool.failCohort key now reason settle db).leases)
    (hcohort : db.inCohort key l = true) : l.state = .releasing ∨ l.state.terminal = true := by
  cases settle with
  | false =>
      have hrow : l ∈ (db.onLeases (fun l ↦ db.inCohort key l && l.state.live) (fun l ↦ { l with
        state := .failed, failureMessage := reason, finishedAt := some now, updatedAt := now })
        fun _ ↦ rfl).leases := hl
      obtain ⟨a, -, rfl⟩ := Db.mem_onLeases.mp hrow
      by_cases hlive : (db.inCohort key a && a.state.live) = true
      · rw [if_pos hlive]
        exact .inr rfl
      · rw [if_neg hlive] at hcohort ⊢
        rw [hcohort, Bool.true_and, Bool.not_eq_true] at hlive
        exact .inr (LeaseState.terminal_eq_true.mpr hlive)
  | true =>
      have hrow : l ∈ ((Pool.settleCohortOwners key now reason db).onLeases
        (fun l ↦ db.inCohort key l && l.state.awaitsProject) (fun l ↦ { l with
          state := .failed, failureMessage := reason, finishedAt := some now, updatedAt := now })
        fun _ ↦ rfl).leases := hl
      obtain ⟨a, ha, rfl⟩ := Db.mem_onLeases.mp hrow
      by_cases hawait : (db.inCohort key a && a.state.awaitsProject) = true
      · rw [if_pos hawait]
        exact .inr rfl
      · rw [if_neg hawait] at hcohort ⊢
        rw [hcohort, Bool.true_and] at hawait
        exact (settleCohortOwners_idle ha hcohort).resolve_left hawait

theorem expireCohort_leases {key : String} {now : Time} :
    (Pool.expireCohort key now db).leases =
      ((db.onLeases (fun l ↦ db.inCohort key l && l.state.ownsProject && l.solvePermitAt.isNone)
        (fun l ↦ { l with
          state := .releasing, failureMessage := cohortExpiryReason
          releaseRequestedAt := some (l.releaseRequestedAt.getD now), updatedAt := now })
        fun _ ↦ rfl).onLeases
        (fun l ↦ db.inCohort key l && l.state.awaitsProject && l.solvePermitAt.isNone)
        (fun l ↦ { l with
          state := .expired, failureMessage := cohortExpiryReason, finishedAt := some now
          updatedAt := now }) fun _ ↦ rfl).leases := rfl

theorem expireCohort_origin {key : String} {now : Time} {l : Lease}
    (hl : l ∈ (Pool.expireCohort key now db).leases) : ∃ a ∈ db.leases, a.id = l.id ∧
      a.exactSessionReservationId = l.exactSessionReservationId := by
  rw [expireCohort_leases] at hl
  obtain ⟨b, hb, rfl⟩ := Db.mem_onLeases.mp hl
  obtain ⟨a, ha, rfl⟩ := Db.mem_onLeases.mp hb
  refine ⟨a, ha, ?_, ?_⟩ <;> split <;> split <;> rfl

/-- The members of an expired cohort without a permit wait for their release or have ended. -/
theorem expireCohort_idle {key : String} {now : Time} {l : Lease}
    (hl : l ∈ (Pool.expireCohort key now db).leases) (hcohort : db.inCohort key l = true)
    (hnone : l.solvePermitAt = none) : l.state = .releasing ∨ l.state.terminal = true := by
  rw [expireCohort_leases] at hl
  obtain ⟨b, hb, rfl⟩ := Db.mem_onLeases.mp hl
  by_cases hawait : (db.inCohort key b && b.state.awaitsProject && b.solvePermitAt.isNone) = true
  · rw [if_pos hawait]
    exact .inr rfl
  · rw [if_neg hawait] at hcohort hnone ⊢
    obtain ⟨a, -, rfl⟩ := Db.mem_onLeases.mp hb
    by_cases howns : (db.inCohort key a && a.state.ownsProject && a.solvePermitAt.isNone) = true
    · rw [if_pos howns]
      exact .inl rfl
    · rw [if_neg howns] at hawait hcohort hnone ⊢
      simp only [hcohort, hnone, Option.isNone_none, Bool.true_and, Bool.and_true,
        Bool.not_eq_true] at howns hawait
      exact (LeaseState.idle_of_not_ownsProject howns).resolve_left (by simp [hawait])

theorem failCohort (key : String) (now : Time) (reason : String) (settle : Bool) (db : Db)
    (howners : settle = false → ¬ keeps .owners) (hholders : ¬ keeps .holders)
    (hreasons : settle = true → ¬ keeps .reasons) :
    Moves keeps db (failCohort key now reason settle db) := by
  have hsettled : Moves keeps db
      (if settle then Pool.settleCohortOwners key now reason db else db) := by
    cases settle with
    | false => exact .refl db
    | true => exact settleCohortOwners key now reason db (hreasons rfl)
  unfold Pool.failCohort
  refine (hsettled.trans (onLeases fun l _ hl ↦ ?_)).trans
    (onReservations (fun r _ hr ↦ ?_) fun r hr hp _ l hl hexact ↦ ?_)
  · simp only [Bool.and_eq_true] at hl
    refine .finish rfl (.inl rfl) rfl rfl ?_ rfl (fun hk ↦ ?_) fun hk ↦ (hholders hk).elim
    · cases settle with
      | false => exact hl.2
      | true => exact LeaseState.live_of_awaitsProject hl.2
    · cases settle with
      | false => exact (howners rfl hk).elim
      | true => exact LeaseState.not_ownsProject_of_awaitsProject hl.2
  · simp only [Bool.and_eq_true] at hr
    exact ⟨⟨rfl, rfl, rfl, rfl, rfl, ReservationState.movesTo_of_dead hr.2 rfl⟩, rfl⟩
  · simp only [Bool.and_eq_true, beq_iff_eq] at hp
    have hr : r ∈ db.reservations := by cases settle <;> exact hr
    exact @failCohort_idle db key reason now settle l hl (hp.1 ▸ inCohort_of hr hexact)

theorem expireCohort (key : String) (now : Time) (hpaired : Paired db)
    (hholders : ¬ keeps .holders) (hreasons : ¬ keeps .reasons) :
    Moves keeps db (expireCohort key now db) := by
  unfold Pool.expireCohort
  refine ((trans (onLeases fun l _ hl ↦ ?_) (blockCohortReuse key now _)).trans
    (onLeases fun l _ hl ↦ ?_)).trans
    (onReservations (fun r _ hr ↦ ?_) fun r hr hp _ l hl hexact ↦ ?_)
  · simp only [Bool.and_eq_true] at hl
    exact .release rfl rfl rfl rfl rfl rfl (.inr hl.1.2) fun hk ↦ (hreasons hk).elim
  · simp only [Bool.and_eq_true] at hl
    exact .finish rfl (.inl rfl) rfl rfl (LeaseState.live_of_awaitsProject hl.1.2) rfl
      (fun _ ↦ LeaseState.not_ownsProject_of_awaitsProject hl.1.2) fun hk ↦ (hholders hk).elim
  · simp only [Bool.and_eq_true] at hr
    exact ⟨⟨rfl, rfl, rfl, rfl, rfl, ReservationState.movesTo_of_dead hr.1.2 rfl⟩, rfl⟩
  · -- the lease has no permit, so one of the two statements before has ended or released it
    simp only [Bool.and_eq_true, beq_iff_eq, Bool.not_eq_true'] at hp
    have hr : r ∈ db.reservations := hr
    obtain ⟨a, ha, hid, hsame⟩ := @expireCohort_origin db key now l hl
    have hlease : r.leaseId = some l.id := by
      rw [(hpaired.session_of_exact hr ha (hsame.trans hexact)).1, hid]
    have hnone := (permittedLease_of hl hlease).symm.trans hp.2
    exact @expireCohort_idle db key now l hl (hp.1.1 ▸ inCohort_of hr hexact) (by simpa using hnone)

theorem releaseTaskReservations (now : Time) (db : Db) :
    Moves keeps db (releaseTaskReservations now db) := by
  refine onReservations (fun r _ hr ↦ ?_) (by rintro r - - ⟨⟩ <;> contradiction)
  simp only [Bool.and_eq_true] at hr
  exact ⟨⟨rfl, rfl, rfl, rfl, rfl, ReservationState.movesTo_of_dead hr.1 rfl⟩, rfl⟩

theorem releaseLeaseReservations (now : Time) (db : Db) :
    Moves keeps db (releaseLeaseReservations now db) := by
  refine onReservations (fun r _ hr ↦ ?_) (by rintro r - - ⟨⟩ <;> contradiction)
  simp only [Bool.and_eq_true, Bool.or_eq_true, beq_iff_eq] at hr
  exact ⟨⟨rfl, rfl, rfl, rfl, rfl, ReservationState.movesTo_of_dead
    (by rcases hr.1 with h | h <;> rw [h] <;> rfl) rfl⟩, rfl⟩

theorem abortCanary {admissionId sid : ℕ} (now : Time) (hrun : db.Running sid)
    (hholders : ¬ keeps .holders) (hadmissions : ¬ keeps .admissions) :
    Moves keeps db (abortCanary admissionId sid now db) := by
  unfold Pool.abortCanary
  refine trans (onAdmissions (fun a _ ha ↦ ?_) (fun a _ ha _ hdone ↦ ?_)
      fun hk ↦ (hadmissions hk).elim) <|
    trans (onLeases fun l _ hl ↦ ?_) <| trans (onLeases fun l _ hl ↦ ?_) <|
    trans (blockReuse sid now _) (refreshSession now ?_)
  · simp only [Bool.and_eq_true] at ha
    exact ⟨rfl, rfl, rfl, by simp [AdmissionState.movesTo, ha.2]⟩
  · simp [AdmissionState.reserving] at hdone
  · simp only [Bool.and_eq_true, Bool.or_eq_true, beq_iff_eq] at hl
    exact .finish rfl (.inr rfl) rfl rfl (by rcases hl.2 with h | h <;> rw [h] <;> rfl) rfl
      (fun _ ↦ by rcases hl.2 with h | h <;> rw [h] <;> rfl) fun hk ↦ (hholders hk).elim
  · simp only [Bool.and_eq_true, Bool.or_eq_true, beq_iff_eq] at hl
    refine .release rfl rfl rfl rfl rfl rfl ?_ fun _ h ↦ ?_
    · rcases hl.2 with (h | h) | h
      · exact .inl h
      · exact .inr (h ▸ rfl)
      · exact .inr (h ▸ rfl)
    · simp [h] at hl
  · exact Moves.running (show Moves (fun _ ↦ True) _ _ from blockReuse sid now _) hrun

theorem finishCanaries (now : Time) (db : Db) : Moves keeps db (finishCanaries now db) := by
  have hdead : ∀ (db : Db) (a : Admission), db.admissionLive a.id = false →
      ∀ c ∈ db.canarySlots, c.admissionId = a.id → ∀ l ∈ db.leases, c.leaseId = some l.id →
        l.state.live = false := by
    intro db a hdead c hc hadm l hl hlease
    simp only [Db.admissionLive, List.any_eq_false, Bool.and_eq_true, beq_iff_eq, not_and,
      Bool.not_eq_true] at hdead
    simpa [hlease, find?_leaseId hl] using hdead c hc hadm
  unfold Pool.finishCanaries
  refine trans (onAdmissions (fun a _ ha ↦ ?_) (fun a _ ha _ _ ↦ ?_) (by rintro - a - - ⟨⟩))
    (onAdmissions (fun a _ ha ↦ ?_) (fun a _ ha _ _ ↦ ?_) (by rintro - a - - ⟨⟩))
  · simp only [Bool.and_eq_true, beq_iff_eq] at ha
    exact ⟨rfl, rfl, rfl, by rw [ha.1]; rfl⟩
  · simp only [Bool.and_eq_true, Bool.not_eq_true'] at ha
    exact hdead db a ha.2
  · simp only [Bool.and_eq_true, beq_iff_eq] at ha
    exact ⟨rfl, rfl, rfl, by rw [ha.1]; rfl⟩
  · simp only [Bool.and_eq_true, Bool.not_eq_true'] at ha
    exact hdead _ a ha.2

theorem row_of_id {l x : Lease} (hl : l ∈ db.leases) (hx : x ∈ db.leases)
    (hid : (x.id == l.id) = true) : x = l :=
  Table.eq_of_key_eq hx hl (by simpa using hid)

theorem archiveRequestKey (leaseId : ℕ) (archivedKey : String) (now : Time) (db : Db) :
    Moves keeps db (archiveRequestKey leaseId archivedKey now db) :=
  onLeases fun _ _ _ ↦ .touch rfl rfl rfl rfl rfl rfl fun _ _ ↦ rfl

theorem supersedeLease {l : Lease} {archivedKey : String} (now : Time) (hl : l ∈ db.leases)
    (hstate : l.state = .queued ∨ l.state = .offered)
    (hrun : ∀ sid ∈ l.sessionId.toList, db.Running sid) (hholders : ¬ keeps .holders) :
    Moves keeps db (supersedeLease l.id l.sessionId archivedKey now db) := by
  unfold Pool.supersedeLease
  refine trans (onLeases fun x hx hid ↦ ?_) (refreshSessions now hrun)
  rw [row_of_id hl hx hid]
  exact .finish rfl (.inr rfl) rfl rfl (by rcases hstate with h | h <;> rw [h] <;> rfl) rfl
    (fun _ ↦ by rcases hstate with h | h <;> rw [h] <;> rfl) fun hk ↦ (hholders hk).elim

theorem rejectOffer {l : Lease} (cohort : Option String) (now : Time)
    (hrun : ∀ sid ∈ l.sessionId.toList, db.Running sid) (howners : ¬ keeps .owners)
    (hholders : ¬ keeps .holders) : Moves keeps db (rejectOffer l cohort now db) := by
  have htail : ∀ (db : Db) (reason : String), (∀ sid ∈ l.sessionId.toList, db.Running sid) →
      Moves keeps db (Pool.refreshSessions l.sessionId.toList now
        (db.onLeases (fun x ↦ x.id == l.id && x.state == .offered) fun x ↦
          { x with
            state := .failed, failureMessage := reason, finishedAt := some now
            updatedAt := now })) := by
    intro db reason hrun
    refine trans (onLeases fun x _ hx ↦ ?_) (refreshSessions now hrun)
    simp only [Bool.and_eq_true, beq_iff_eq] at hx
    exact .finish rfl (.inl rfl) rfl rfl (by rw [hx.2]; rfl) rfl (fun hk ↦ (howners hk).elim)
      fun hk ↦ (hholders hk).elim
  cases cohort with
  | none => exact htail db _ hrun
  | some key =>
      have hcohort : ∀ reason, Moves keeps db (Pool.failCohort key now reason false db) :=
        fun reason ↦ failCohort key now reason false db (fun _ ↦ howners) hholders (by rintro ⟨⟩)
      exact (hcohort _).trans (htail _ _ fun sid hsid ↦ (hcohort _).running (hrun sid hsid))

theorem attachLease (leaseId : ℕ) (expires now : Time) (db : Db) :
    Moves keeps db (attachLease leaseId expires now db) := by
  refine onLeases fun l _ hl ↦ ?_
  simp only [Bool.and_eq_true, beq_iff_eq] at hl
  exact .advance rfl rfl rfl rfl rfl (by rw [hl.1.2]; rfl) rfl fun _ _ ↦ by rintro ⟨⟩

theorem heartbeatLease (leaseId : ℕ) (state : LeaseState) (tokenHash phase : String)
    (expires offerExpires now : Time) (db : Db) :
    Moves keeps db (heartbeatLease leaseId state tokenHash phase expires offerExpires now db) := by
  refine onLeases fun l _ _ ↦ ?_
  by_cases hleased : (l.protocolVersion < 2 && l.state == .leased) = true
  · have hstate : l.state = .leased := by
      simp only [Bool.and_eq_true, beq_iff_eq] at hleased
      exact hleased.2
    exact .advance rfl rfl rfl rfl rfl (by dsimp only; rw [if_pos hleased, hstate]; rfl)
      (by dsimp only; rw [if_pos hleased]; rfl) fun _ _ _ ↦ rfl
  · exact .touch rfl rfl rfl rfl rfl (if_neg hleased) fun _ _ ↦ rfl

theorem activateLease {leaseId : ℕ} {state : LeaseState} (expires now : Time)
    (hstate : state = .leased ∨ state = .attaching) :
    Moves keeps db (activateLease leaseId state expires now db) := by
  refine onLeases fun l _ hl ↦ ?_
  simp only [Bool.and_eq_true, beq_iff_eq] at hl
  exact .advance rfl rfl rfl rfl rfl
    (by rw [hl.2]; rcases hstate with h | h <;> rw [h] <;> rfl) rfl fun _ _ ↦ by rintro ⟨⟩

theorem renewWaiting (leaseId : ℕ) (tokenHash : String) (expires now : Time) (db : Db) :
    Moves keeps db (renewWaiting leaseId tokenHash expires now db) :=
  onLeases fun _ _ _ ↦ .touch rfl rfl rfl rfl rfl rfl fun _ _ ↦ rfl

theorem failPredecessor (sid : ℕ) (now : Time) (db : Db) :
    Moves keeps db (failPredecessor sid now db) := by
  unfold Pool.failPredecessor
  refine trans (touchSessions (fun s _ hs ↦ ?_) ?_ ?_) (onLeases fun l _ hl ↦ ?_)
  · simp only [Bool.and_eq_true] at hs
    have hserving := serving_of_assignable hs.2
    exact .retire rfl rfl rfl rfl rfl (serving_not_terminal hserving) rfl (by rintro ⟨⟩)
      (fun _ ↦ Session.accepting_of_assignable hs.2)
      (fun _ h ↦ by simp [h.not_serving] at hserving) (.inl rfl) fun _ _ ↦ rfl
  · exact fun _ _ ↦ unassigned rfl
  · exact fun _ ↦ rfl
  · simp only [Bool.and_eq_true, beq_iff_eq] at hl
    exact .release rfl rfl rfl rfl rfl rfl (.inr (hl.1.2 ▸ rfl)) fun _ h ↦ by simp [hl.1.2] at h

theorem completePipeline (leaseId sid generation : ℕ) (tokenHash : String) (expires now : Time)
    (db : Db) : Moves keeps db (completePipeline leaseId sid generation tokenHash expires now db) :=
  onLeases fun _ _ _ ↦ .touch rfl rfl rfl rfl rfl rfl fun _ _ ↦ rfl

theorem bindProjectName (leaseId : ℕ) (state : LeaseState) (tokenHash name : String) (now : Time)
    (db : Db) : Moves keeps db (bindProjectName leaseId state tokenHash name now db) :=
  onLeases fun _ _ _ ↦ .touch rfl rfl rfl rfl rfl rfl fun _ _ ↦ rfl

theorem beginRelease {l : Lease} (sid : Option ℕ) (reason : String) (now : Time)
    (hl : l ∈ db.leases) (howner : l.state = .leased ∨ l.state.ownsProject = true)
    (hreasons : ¬ keeps .reasons) : Moves keeps db (beginRelease l.id sid reason now db) := by
  have hlease : Moves keeps db (db.onLeases (·.id == l.id) fun l ↦
      { l with
        state := .releasing, failureMessage := reason, releaseRequestedAt := some now
        updatedAt := now }) := by
    refine onLeases fun x hx hid ↦ ?_
    rw [row_of_id hl hx hid]
    exact .release rfl rfl rfl rfl rfl rfl howner fun hk ↦ (hreasons hk).elim
  cases sid with
  | none => exact hlease
  | some sid => exact hlease.trans (blockReuse sid now _)

theorem cancelLease {l : Lease} (reason : String) (now : Time) (hl : l ∈ db.leases)
    (hlive : l.state.live = true) (howner : l.state.ownsProject = false)
    (hrun : ∀ sid ∈ l.sessionId.toList, db.Running sid) (hholders : ¬ keeps .holders) :
    Moves keeps db (cancelLease l.id l.sessionId reason now db) := by
  unfold Pool.cancelLease
  refine trans (onLeases fun x hx hid ↦ ?_) (refreshSessions now hrun)
  rw [row_of_id hl hx hid]
  exact .finish rfl (.inr rfl) rfl rfl hlive rfl (fun _ ↦ howner) fun hk ↦ (hholders hk).elim

theorem expireQueued {l : Lease} (now : Time) (hl : l ∈ db.leases) (hqueued : l.state = .queued) :
    Moves keeps db (expireQueued l.id now db) := by
  refine onLeases fun x hx hid ↦ ?_
  rw [row_of_id hl hx hid]
  exact .finish rfl (.inl rfl) rfl rfl (by rw [hqueued]; rfl) rfl (fun _ ↦ by rw [hqueued]; rfl)
    fun _ ↦ by rw [hqueued]; rfl

theorem expireOffer {l : Lease} (now : Time) (hl : l ∈ db.leases) (hoffered : l.state = .offered)
    (hrun : ∀ sid ∈ l.sessionId.toList, db.Running sid) (hholders : ¬ keeps .holders) :
    Moves keeps db (expireOffer l.id l.sessionId now db) := by
  unfold Pool.expireOffer
  refine trans (onLeases fun x hx hid ↦ ?_) (refreshSessions now hrun)
  rw [row_of_id hl hx hid]
  exact .finish rfl (.inr rfl) rfl rfl (by rw [hoffered]; rfl) rfl (fun _ ↦ by rw [hoffered]; rfl)
    fun hk ↦ (hholders hk).elim

theorem recordLeaseFault (leaseId : ℕ) (kind phase evidence message : String) (now : Time)
    (db : Db) (hreasons : ¬ keeps .reasons) :
    Moves keeps db (recordLeaseFault leaseId kind phase evidence message now db) :=
  onLeases fun _ _ _ ↦ .touch rfl rfl rfl rfl rfl rfl fun hk ↦ (hreasons hk).elim

theorem completeRelease {sid leaseId : ℕ} (success : Bool) (message : String) (now : Time)
    (hdb : Registered db) (hstarted : db.Started sid) (howners : ¬ keeps .owners)
    (hholders : ¬ keeps .holders) :
    Moves keeps db (completeRelease sid leaseId success message now db) := by
  unfold Pool.completeRelease
  have hlease : Moves keeps db (db.onLeases (fun l ↦ l.id == leaseId && l.sessionId == some sid &&
      l.state == .releasing) fun l ↦
    { l with
      state := if success then .released else .failed, failureMessage := message
      finishedAt := some now, updatedAt := now }) := by
    refine onLeases fun l _ hl ↦ ?_
    simp only [Bool.and_eq_true, beq_iff_eq] at hl
    exact .finish rfl (.inl rfl) rfl rfl (by rw [hl.2]; rfl) (by cases success <;> rfl)
      (fun hk ↦ (howners hk).elim) fun hk ↦ (hholders hk).elim
  have hbarrier : ∀ db : Db, Moves keeps db (db.onSessions (fun s ↦ s.id == sid &&
      !s.state.terminal) fun s ↦ { s with reuseBlockedAt := some now, updatedAt := now }) :=
    fun _ ↦ touchSessions (fun _ _ _ ↦ .touch rfl rfl rfl rfl (.inl rfl) rfl (.inl rfl) rfl rfl)
      (fun _ _ _ ↦ rfl) fun _ ↦ rfl
  have hfault : ∀ db : Db, db.Started sid → Moves keeps db (db.onSessions (fun s ↦ s.id == sid &&
      !s.state.terminal) fun s ↦
    { s with
      state := .unhealthy, drainRequestedAt := some now, quarantineUntil := some now
      quarantineReason := "project release cleanup failed"
      failureMessage := orDefault message "session host could not confirm project cleanup"
      updatedAt := now }) := by
    refine fun _ hstarted ↦ touchSessions (fun s hmem hs ↦ ?_) (fun _ _ ↦ unassigned rfl) fun _ ↦ rfl
    simp only [Bool.and_eq_true, beq_iff_eq, Bool.not_eq_true'] at hs
    refine .retire rfl rfl rfl rfl rfl hs.2 rfl (by rintro ⟨⟩) (fun h ↦ ?_) (fun hnone _ ↦ ?_)
      (.inr (by simp)) fun _ _ ↦ rfl
    · simp [Session.accepting, SessionState.assignable] at h
    · have hsome := hstarted.row hmem hs.1
      simp [show s.startedAt = none from hnone] at hsome
  have hrun := hdb.running hstarted
  have hcore := hlease.trans (hbarrier _)
  cases success with
  | true => exact hcore.trans (refreshSession now (hcore.running hrun))
  | false =>
      have hcore := hcore.trans (hfault _ (hcore.started hstarted))
      exact hcore.trans (refreshSession now (hcore.running hrun))

/-- The requeued lease frees the slot that its own reservation takes back. -/
theorem requeueOf {l : Lease} {p : Lease → Bool} {f : Lease → Lease}
    {hf : ∀ x, Keyed.key (f x) = Keyed.key x} {q : Reservation → Bool}
    {g : Reservation → Reservation} {hg : ∀ r, Keyed.key (g r) = Keyed.key r}
    (hdb : Sound db) (hl : l ∈ db.leases) (hoffered : l.state = .offered)
    (hp : ∀ x ∈ db.leases, p x = true ↔ x = l) (hmove : LeaseMove keeps l (f l))
    (hqueued : (f l).state = .queued)
    (hq : ∀ r ∈ db.reservations, q r = true → r.leaseId = some l.id ∧ r.state = .consumed ∧
      ReservationMove r (g r) ∧ (g r).state = .claimed) (hoffers : ¬ keeps .offers) :
    Moves keeps db ((db.onLeases p f hf).onReservations q g hg) := by
  have hleases : Moves keeps db (db.onLeases p f hf) :=
    onLeases fun x hx hpx ↦ (hp x hx).mp hpx ▸ hmove
  have hown : ∀ r ∈ db.reservations, q r = true → l.exactSessionReservationId = r.id ∧
      l.sessionId = some r.sessionId := by
    intro r hr hqr
    obtain ⟨hexact, hrequested⟩ := hdb.paired.session_of_claimed hr hl (hq r hr hqr).1
    refine ⟨hexact, ?_⟩
    rw [hdb.paired.exact l hl (hexact ▸ hdb.paired.positive r hr) (by rw [hoffered]; rfl),
      hrequested]
  refine
    { hleases with
      reservations := .update hg (fun r hr hqr ↦ (hq r hr hqr).2.2.1) fun r _ _ ↦ .refl r
      load_le := fun sid ↦ ?_
      restored := fun r hr r' hr' hid hconsumed hclaimed ↦ ?_
      consumed := fun hk ↦ (hoffers hk).elim
      ended := fun r hr r' hr' hid _ hlive hdead ↦ ?_ }
  · have hused := hleases.used_le sid
    by_cases hrow : ∃ r ∈ db.reservations, q r = true ∧ r.sessionId = sid
    · obtain ⟨r, hr, hqr, rfl⟩ := hrow
      have hlt : (db.leases.update p f hf).count (·.holds r.sessionId) < db.used r.sessionId := by
        refine Table.count_update_lt hl ?_ ?_ fun x hx hholds ↦ ?_
        · simp [Lease.holds, (hown r hr hqr).2, hoffered, LeaseState.holdsSlot]
        · simp [(hp l hl).mpr rfl, Lease.holds, hqueued, LeaseState.holdsSlot]
        · split at hholds
          · rename_i hpx
            rw [(hp x hx).mp hpx] at hholds ⊢
            exact (hmove.holds hholds).1
          · exact hholds
      have hheld : (db.reservations.update q g hg).count (·.holds r.sessionId) ≤
          db.held r.sessionId + 1 := by
        refine Table.count_update_le_succ fun a ha b hb hqa hqb ↦ Table.eq_of_key_eq ha hb ?_
        exact (hown a ha hqa).1.symm.trans (hown b hb hqb).1
      change (db.leases.update p f hf).count (·.holds r.sessionId) +
        (db.reservations.update q g hg).count (·.holds r.sessionId) ≤ _
      omega
    · have hheld : (db.reservations.update q g hg).count (·.holds sid) ≤ db.held sid := by
        rw [Table.count_update]
        refine List.countP_mono_left fun r hr hholds ↦ ?_
        split at hholds
        · rename_i hqr
          simp only [Reservation.holds, Bool.and_eq_true, beq_iff_eq,
            (hq r hr hqr).2.2.1.session] at hholds
          exact (hrow ⟨r, hr, hqr, hholds.1⟩).elim
        · exact hholds
      exact Nat.add_le_add hused hheld
  · rw [Db.onReservations_row hr hr' hid] at hclaimed
    split at hclaimed
    · rename_i hqr
      exact ⟨l, hl, (hq r hr hqr).1, hoffered⟩
    · simp [hconsumed] at hclaimed
  · rw [Db.onReservations_row hr hr' hid] at hdead
    split at hdead
    · rename_i hqr
      simp [(hq r hr hqr).2.2.2] at hdead
    · rcases hdead with h | h <;> simp [h, ReservationState.live] at hlive

theorem revokeOffer {l : Lease} (expires now : Time) (hdb : Sound db) (hl : l ∈ db.leases)
    (hoffered : l.state = .offered) (hholders : ¬ keeps .holders) (hqueue : ¬ keeps .queue)
    (hoffers : ¬ keeps .offers) :
    Moves keeps db (revokeOffer l expires now db) := by
  have hrun : ∀ sid ∈ l.sessionId.toList, db.Running sid := fun sid hsid ↦
    hdb.registered.running (hdb.registered.lease l hl sid (by simpa using hsid))
  have hp : ∀ x ∈ db.leases, (x.id == l.id && x.state == .offered) = true ↔ x = l := by
    refine fun x hx ↦ ⟨fun h ↦ ?_, fun h ↦ by simp [h, hoffered]⟩
    simp only [Bool.and_eq_true] at h
    exact row_of_id hl hx h.1
  unfold Pool.revokeOffer
  dsimp only
  by_cases hexact : l.exactSessionReservationId = 0
  · rw [if_pos (by simpa using hexact)]
    refine trans (onLeases fun x hx hpx ↦ ?_) (refreshSessions now hrun)
    rw [(hp x hx).mp hpx]
    exact .requeue rfl rfl rfl (by rw [hoffered]; rfl) rfl (.inl hexact)
      (fun _ ↦ by rw [hoffered]; rfl) hholders hqueue fun _ ↦ hexact
  · rw [if_neg (by simpa using hexact)]
    refine trans (requeueOf hdb hl hoffered hp ?_ rfl (fun r _ hr ↦ ?_) hoffers)
      (refreshSessions now hrun)
    · exact .requeue rfl rfl rfl (by rw [hoffered]; rfl) rfl (.inr hoffered)
        (fun _ ↦ by rw [hoffered]; rfl) hholders hqueue fun hk ↦ (hoffers hk).elim
    · simp only [Bool.and_eq_true, beq_iff_eq] at hr
      exact ⟨hr.1.2, hr.2, ⟨rfl, rfl, rfl, rfl, rfl, by rw [hr.2]; rfl⟩, rfl⟩

theorem requeueOffer {l : Lease} (now : Time) (hdb : Sound db) (hl : l ∈ db.leases)
    (hoffered : l.state = .offered) (hholders : ¬ keeps .holders) (hqueue : ¬ keeps .queue)
    (hoffers : ¬ keeps .offers) : Moves keeps db (requeueOffer l now db) := by
  have hrun : ∀ sid ∈ l.sessionId.toList, db.Running sid := fun sid hsid ↦
    hdb.registered.running (hdb.registered.lease l hl sid (by simpa using hsid))
  unfold Pool.requeueOffer unconsumeReservation
  refine trans (requeueOf hdb hl hoffered (fun x hx ↦ ⟨fun h ↦ ?_, fun h ↦ ?_⟩) ?_ rfl
    (fun r _ hr ↦ ?_) hoffers) (refreshSessions now hrun)
  · simp only [Bool.and_eq_true] at h
    exact row_of_id hl hx h.1
  · simp [h, hoffered]
  · exact .requeue rfl rfl rfl (by rw [hoffered]; rfl) rfl (.inr hoffered)
      (fun _ ↦ by rw [hoffered]; rfl) hholders hqueue fun hk ↦ (hoffers hk).elim
  · simp only [Bool.and_eq_true, beq_iff_eq] at hr
    exact ⟨hr.1, hr.2, ⟨rfl, rfl, rfl, rfl, rfl, by rw [hr.2]; rfl⟩, rfl⟩

theorem claimStart (sid : ℕ) (hostId actualNode slurmJob hostProcess : String) (now : Time)
    (db : Db) : Moves keeps db (claimStart sid hostId actualNode slurmJob hostProcess now db) :=
  touchSessions (fun _ _ _ ↦ .touch rfl rfl rfl rfl (.inl rfl) rfl (.inl rfl) rfl rfl)
    (fun _ _ _ ↦ rfl) fun _ ↦ rfl

theorem bindHostTask (sid taskId : ℕ) (stdoutPath stderrPath : String) (now : Time) (db : Db) :
    Moves keeps db (bindHostTask sid taskId stdoutPath stderrPath now db) :=
  touchSessions (fun _ _ _ ↦ .touch rfl rfl rfl rfl (.inl rfl) rfl (.inl rfl) rfl rfl)
    (fun _ _ _ ↦ rfl) fun _ ↦ rfl

theorem clearReuseBarrier (sid : ℕ) (now : Time) (db : Db) :
    Moves keeps db (clearReuseBarrier sid now db) :=
  touchSessions (fun _ _ _ ↦ .touch rfl rfl rfl rfl (.inl rfl) rfl (.inl rfl) rfl rfl)
    (fun _ _ _ ↦ rfl) fun _ ↦ rfl

theorem touchSession (sid : ℕ) (now : Time) (db : Db) : Moves keeps db (touchSession sid now db) :=
  touchSessions (fun _ _ _ ↦ .touch rfl rfl rfl rfl (.inl rfl) rfl (.inl rfl) rfl rfl)
    (fun _ _ _ ↦ rfl) fun _ ↦ rfl

theorem unregistered_used (hdb : Registered db) {s : Session} (hs : s ∈ db.sessions)
    (hstarted : s.startedAt = none) : db.used s.id = 0 := by
  refine Table.count_eq_zero.mpr fun l hl ↦ ?_
  by_contra hholds
  simp only [Lease.holds, Bool.not_eq_false, Bool.and_eq_true, beq_iff_eq] at hholds
  obtain ⟨x, hx, hid, hsome⟩ := hdb.lease l hl s.id hholds.1
  have hxs : x = s := Table.eq_of_key_eq hx hs hid
  simp [hxs, hstarted] at hsome

theorem registerSession {sid : ℕ} {state : SessionState} (reg : Registration) (now : Time)
    (hdb : Registered db) (hstate : state = .ready ∨ state = .draining) {s : Session}
    (hs : s ∈ db.sessions) (hid : s.id = sid)
    (hstart : s.state = .starting ∨ (s.state = .unhealthy ∧ s.startedAt = none)) :
    Moves keeps db (registerSession sid state reg now db) := by
  have hrow : ∀ x ∈ db.sessions, (x.id == sid) = true → x = s := fun x hx hxid ↦
    Table.eq_of_key_eq hx hs ((by simpa using hxid : x.id = sid).trans hid.symm)
  have hnone : s.startedAt = none := hstart.elim (hdb.starting s hs) (·.2)
  have hlive : s.state.terminal = false := by
    rcases hstart with h | h <;> simp [h, SessionState.terminal]
  have hreason : s.quarantineReason = "" := by
    rcases hdb.unregistered s hs hnone with h | h
    · simp [hlive] at h
    · exact h.1
  have hunsealed : s.solveBatchSealedAt = none := by
    by_contra hne
    have hsome := hdb.sealed_ s hs (Option.isSome_iff_ne_none.mpr hne)
    simp [hnone] at hsome
  refine onSessions (fun x hx hxid ↦ ?_) (fun x _ _ hsome hseal ↦ ?_) (fun x hx hxid _ ↦ .inr ?_)
    fun x _ _ hbusy ↦ ?_
  · rw [hrow x hx hxid]
    exact
      { terms := rfl
        sealed_ := fun _ ↦ rfl
        started := fun _ ↦ rfl
        starting := fun h ↦ by rcases hstate with rfl | rfl <;> cases h
        unregistered := by rintro ⟨⟩
        token := fun _ ↦ .inr rfl
        tokenKept := fun h ↦ by simp [hnone] at h
        profile := fun _ h ↦ by simp [hnone] at h
        terminal := fun h ↦ by simp [hlive] at h
        settled := fun _ h ↦ by simp [hlive] at h
        healthy := fun _ _ ↦ hreason
        quarantined := fun _ h ↦ h
        accepting := fun _ h ↦ by simp [hnone] at h
        undrained := fun _ _ _ ↦ rfl
        emptied := fun _ _ ↦ .inr hunsealed
        sticky := fun _ h ↦ by simp [hnone] at h
        retired := fun _ h ↦ by simp [hnone] at h }
  · simp [show x.solveBatchSealedAt = none from hseal] at hsome
  · rw [hrow x hx hxid]
    exact unregistered_used hdb hs hnone
  · rcases hstate with rfl | rfl <;> cases hbusy

theorem failSessionStart (sid : ℕ) (hostId : String) (failure : StartFailure) (now : Time)
    (db : Db) : Moves keeps db (failSessionStart sid hostId failure now db) := by
  refine touchSessions (fun s _ hs ↦ ?_) (fun _ _ ↦ unassigned rfl) fun _ ↦ rfl
  simp only [Bool.and_eq_true, beq_iff_eq] at hs
  exact .retire rfl rfl rfl rfl rfl (by rw [hs.1.2]; rfl) rfl (by rintro ⟨⟩) (by rintro ⟨⟩)
    (fun _ _ ↦ .inl rfl) (.inl rfl) fun _ h ↦ h

theorem failUnclaimedStart (sid : ℕ) (reason : String) (now : Time) (db : Db) :
    Moves keeps db (failUnclaimedStart sid reason now db) := by
  refine touchSessions (fun s _ hs ↦ ?_) (fun _ _ ↦ unassigned rfl) fun _ ↦ rfl
  simp only [Bool.and_eq_true, beq_iff_eq] at hs
  exact .retire rfl rfl rfl rfl rfl (by rw [hs.1.2]; rfl) rfl (by rintro ⟨⟩) (by rintro ⟨⟩)
    (fun _ _ ↦ .inl rfl) (.inl rfl) fun _ h ↦ h

theorem suspectTransport (sid : ℕ) (message : String) (now : Time) (db : Db)
    (hdrains : ¬ keeps .drains) : Moves keeps db (suspectTransport sid message now db) := by
  refine touchSessions (fun s _ hs ↦ ?_) (fun _ _ ↦ unassigned rfl) fun _ ↦ rfl
  simp only [Bool.and_eq_true] at hs
  have hserving := serving_of_assignable hs.2
  exact .retire rfl rfl rfl rfl rfl (serving_not_terminal hserving) rfl (by rintro ⟨⟩)
    (fun _ ↦ Session.accepting_of_assignable hs.2) (fun _ h ↦ by simp [h.not_serving] at hserving)
    (.inl rfl) fun hk ↦ (hdrains hk).elim

theorem reportAedtDeath (sid aid : ℕ) (message : String) (now : Time) (db : Db) :
    Moves keeps db (reportAedtDeath sid aid message now db) := by
  refine trans (touchSessions (fun s _ hs ↦ ?_) ?_ ?_) (drainAllocation aid _ now _)
  · simp only [Bool.and_eq_true] at hs
    exact .retire rfl rfl rfl rfl rfl (serving_not_terminal hs.2) rfl (by rintro ⟨⟩)
      (fun h ↦ by simp [Session.accepting, SessionState.assignable] at h)
      (fun _ h ↦ by simp [h.not_serving] at hs) (.inr (by simp)) fun _ _ ↦ rfl
  · exact fun _ _ ↦ unassigned rfl
  · exact fun _ ↦ rfl

theorem solverTimeout (leaseId sid aid : ℕ) (message : String) (until_ now : Time) (db : Db) :
    Moves keeps db (solverTimeout leaseId sid aid message until_ now db) := by
  unfold Pool.solverTimeout
  refine (trans (onLeases fun l _ hl ↦ ?_) (touchSessions (fun s _ hs ↦ ?_) ?_ ?_)).trans
    (drainAllocation aid _ now _)
  · simp only [Bool.and_eq_true, Bool.or_eq_true, beq_iff_eq] at hl
    refine .release rfl rfl rfl rfl rfl rfl ?_ fun _ h ↦ ?_
    · rcases hl.2 with (h | h) | h
      · exact .inl h
      · exact .inr (h ▸ rfl)
      · exact .inr (h ▸ rfl)
    · simp [h] at hl
  · simp only [Bool.and_eq_true] at hs
    exact .retire rfl rfl rfl rfl rfl (serving_not_terminal hs.2) rfl (by rintro ⟨⟩) (by rintro ⟨⟩)
      (fun _ h ↦ by simp [h.not_serving] at hs) (.inr (by simp)) fun _ _ ↦ rfl
  · exact fun _ _ ↦ unassigned rfl
  · exact fun _ ↦ rfl

theorem suspectNative {sid : ℕ} (message : String) (evidence : Evidence) (owner : Bool)
    (now : Time) (hstarted : db.Started sid) (hquarantine : ¬ keeps .quarantine)
    (hdrains : owner = true → ¬ keeps .drains) :
    Moves keeps db (suspectNative sid message evidence owner now db) := by
  refine touchSessions (fun s hs hp ↦ ?_) (fun _ _ ↦ unassigned rfl) fun _ ↦ rfl
  simp only [Bool.and_eq_true, Bool.or_eq_true, beq_iff_eq] at hp
  have hlive : s.state.terminal = false := by
    cases hstate : s.state <;> simp_all [SessionState.assignable, SessionState.terminal]
  exact
    { terms := rfl
      sealed_ := fun _ ↦ rfl
      started := fun h ↦ h
      starting := by rintro ⟨⟩
      unregistered := fun hnone _ ↦ by
        have hsome := hstarted.row hs hp.1
        simp [show s.startedAt = none from hnone] at hsome
      token := .inl
      tokenKept := fun _ ↦ rfl
      profile := fun _ _ ↦ rfl
      terminal := fun h ↦ by simp [hlive] at h
      settled := fun _ h ↦ by simp [hlive] at h
      healthy := fun _ ↦ by rintro ⟨⟩
      quarantined := fun hk ↦ (hquarantine hk).elim
      accepting := fun hk ↦ (hquarantine hk).elim
      undrained := fun _ _ ↦ by rintro ⟨⟩
      emptied := fun _ ↦ by rintro ⟨⟩
      sticky := fun hk _ _ ↦ by
        cases owner with
        | false => rfl
        | true => exact (hdrains rfl hk).elim
      retired := fun _ _ ↦ by rintro ⟨⟩ }

theorem confirmDeath {sid : ℕ} (aid : ℕ) (message : String) (evidence : Evidence) (now : Time)
    (hstarted : db.Started sid) : Moves keeps db (confirmDeath sid aid message evidence now db) := by
  refine trans (touchSessions (fun s hs hp ↦ ?_) ?_ ?_) (drainAllocation aid _ now _)
  · simp only [Bool.and_eq_true, Bool.or_eq_true, beq_iff_eq] at hp
    have hlive : s.state.terminal = false := by
      cases hstate : s.state <;> simp_all [SessionState.serving, SessionState.terminal]
    refine .retire rfl rfl rfl rfl rfl hlive rfl (by rintro ⟨⟩) (fun h ↦ ?_) (fun hnone _ ↦ ?_)
      (.inr (by simp)) fun _ _ ↦ rfl
    · simp [Session.accepting, Session.faulted, SessionState.assignable] at h
    · have hsome := hstarted.row hs hp.1
      simp [show s.startedAt = none from hnone] at hsome
  · exact fun _ _ ↦ unassigned rfl
  · exact fun _ ↦ rfl

theorem recoverSession {sid : ℕ} (now : Time) (hdb : Registered db)
    (htoken : ∃ s ∈ db.sessions, s.id = sid ∧ s.hostTokenHash ≠ "")
    (hseals : ¬ keeps .seals) (hdrains : ¬ keeps .drains) (hretirement : ¬ keeps .retirement) :
    Moves keeps db (recoverSession sid now db) := by
  obtain ⟨x, hx, hid, hhash⟩ := htoken
  refine onSessions (fun s hs hp ↦ ?_) (fun s _ _ hsome hnone ↦ ?_) (fun s hs hp hr ↦ .inr ?_)
    fun s hs hp hb ↦ .inr ?_
  · simp only [Bool.and_eq_true, beq_iff_eq] at hp
    have hxs : x = s := Table.eq_of_key_eq hx hs (hid.trans hp.1.1.1.symm)
    subst hxs
    exact
      { terms := rfl
        sealed_ := fun _ ↦ rfl
        started := fun h ↦ h
        starting := fun h ↦ by
          dsimp only at h
          split at h <;> cases h
        unregistered := fun hnone _ ↦ by
          have hsome := hdb.token x hx hhash
          simp [show x.startedAt = none from hnone] at hsome
        token := .inl
        tokenKept := fun _ ↦ rfl
        profile := fun _ _ ↦ rfl
        terminal := fun h ↦ by simp [hp.1.1.2, SessionState.terminal] at h
        settled := fun _ h ↦ by simp [hp.1.1.2, SessionState.terminal] at h
        healthy := fun _ _ ↦ hp.2
        quarantined := fun _ h ↦ h
        accepting := fun _ _ _ ↦ by simp [Session.accepting, hp.1.1.2, hp.1.2, hp.2]
        undrained := fun _ _ _ ↦ rfl
        emptied := fun hk ↦ (hseals hk).elim
        sticky := fun hk ↦ (hdrains hk).elim
        retired := fun hk ↦ (hretirement hk).elim }
  · simp [show s.solveBatchSealedAt = none from hnone] at hsome
  · simp only [Bool.and_eq_true, beq_iff_eq] at hp
    dsimp only at hr
    split at hr
    · simp_all
    · cases hr
  · simp only [Bool.and_eq_true, beq_iff_eq] at hp
    dsimp only at hb
    split at hb
    · cases hb
    · exact Nat.pos_of_ne_zero (by simp_all)

theorem reapDeadSession {sid : ℕ} {state : SessionState} (updatedAt now : Time)
    (hstate : state = .unhealthy ∨ state = .draining) :
    Moves keeps db (reapDeadSession sid state updatedAt now db) := by
  refine touchSessions (fun s _ hs ↦ ?_) (fun _ _ ↦ unassigned rfl) fun _ ↦ rfl
  simp only [Bool.and_eq_true, beq_iff_eq] at hs
  exact .retire rfl rfl rfl rfl rfl
    (by rw [hs.1.2]; rcases hstate with h | h <;> rw [h] <;> rfl) rfl (by rintro ⟨⟩) (by rintro ⟨⟩)
    (fun _ _ ↦ .inl rfl) (.inl rfl) fun _ h ↦ h

theorem failTargetCohorts (sid : ℕ) (now : Time) (reason : String) (db : Db)
    (howners : ¬ keeps .owners) (hholders : ¬ keeps .holders) :
    Moves keeps db (failTargetCohorts sid now reason db) := by
  unfold Pool.failTargetCohorts
  generalize db.targetCohorts sid = keys
  induction keys generalizing db with
  | nil => exact .refl db
  | cons key keys ih =>
      exact (failCohort key now reason false db (fun _ ↦ howners) hholders (by rintro ⟨⟩)).trans (ih _)

theorem failOccupants (sid : ℕ) (reason : String) (now : Time) (db : Db)
    (howners : ¬ keeps .owners) (hholders : ¬ keeps .holders) :
    Moves keeps db (failOccupants sid reason now db) := by
  refine onLeases fun l _ hl ↦ ?_
  simp only [Lease.holds, Bool.and_eq_true] at hl
  exact .finish rfl (.inl rfl) rfl rfl (LeaseState.live_of_holdsSlot hl.2) rfl
    (fun hk ↦ (howners hk).elim) fun hk ↦ (hholders hk).elim

theorem requeueOccupants (sid : ℕ) (reason : String) (expires now : Time) (db : Db)
    (howners : ¬ keeps .owners) (hholders : ¬ keeps .holders) (hqueue : ¬ keeps .queue) :
    Moves keeps db (requeueOccupants sid reason expires now db) := by
  refine onLeases fun l _ hl ↦ ?_
  simp only [Lease.holds, Bool.and_eq_true, beq_iff_eq] at hl
  exact .requeue rfl rfl rfl hl.1.2 rfl (.inl hl.2) (fun hk ↦ (howners hk).elim) hholders
    hqueue fun _ ↦ hl.2

theorem closeSession_eq (sid aid : ℕ) (c : Closure) (live : ℕ) (expires now : Time) (db : Db) :
    Pool.closeSession sid aid c live expires now db =
      (if !c.success && aid != 0 then
        Pool.drainAllocation aid faultedDesktopAllocationRecycleReason now
      else id) (finishSession sid c now (closeOccupants sid c live expires now
        (Pool.failTargetCohorts sid now (closeReason sid c) db))) := by
  unfold Pool.closeSession
  dsimp only
  split <;> rfl

theorem closeOccupants_moves (sid : ℕ) (c : Closure) (live : ℕ) (expires now : Time) (db : Db)
    (howners : ¬ keeps .owners) (hholders : ¬ keeps .holders) (hqueue : ¬ keeps .queue) :
    Moves keeps db (closeOccupants sid c live expires now db) := by
  unfold closeOccupants
  split
  · exact .refl db
  · split
    · exact requeueOccupants sid _ expires now db howners hholders hqueue
    · exact failOccupants sid _ now db howners hholders

theorem closeSession (sid aid : ℕ) (c : Closure) (live : ℕ) (expires now : Time) (db : Db)
    (hclosure : ¬ keeps .closure) (howners : ¬ keeps .owners) (hholders : ¬ keeps .holders)
    (hqueue : ¬ keeps .queue) : Moves keeps db (closeSession sid aid c live expires now db) := by
  have hfinish : ∀ db : Db, Moves keeps db (finishSession sid c now db) := by
    refine fun db ↦ touchSessions (fun s _ _ ↦ ?_) (fun _ _ h ↦ ?_) fun _ ↦ rfl
    · have hterm : c.outcome.terminal = true := by unfold Closure.outcome; split <;> rfl
      have hidle : ¬ c.outcome.assignable = true := fun h ↦ by
        simp [SessionState.not_terminal_of_assignable h] at hterm
      exact
        { terms := rfl
          sealed_ := fun _ ↦ rfl
          started := fun h ↦ h
          starting := fun h ↦ by simp [show c.outcome = _ from h, SessionState.terminal] at hterm
          unregistered := fun _ _ ↦ .inl hterm
          token := .inl
          tokenKept := fun _ ↦ rfl
          profile := fun _ _ ↦ rfl
          terminal := fun _ ↦ hterm
          settled := fun hk ↦ (hclosure hk).elim
          healthy := fun _ h ↦ (hidle h).elim
          quarantined := fun _ h ↦ h
          accepting := fun _ _ h ↦ by
            rcases Bool.or_eq_true_iff.mp h with hassign | hunhealthy
            · exact (hidle hassign).elim
            · simp only [Bool.and_eq_true, beq_iff_eq] at hunhealthy
              simp [hunhealthy.1.1, SessionState.terminal] at hterm
          undrained := fun _ _ h ↦ (hidle h).elim
          emptied := fun _ h ↦ (hidle (by rw [show c.outcome = _ from h]; rfl)).elim
          sticky := fun _ _ h ↦ h
          retired := fun _ _ h ↦ (hidle h).elim }
    · unfold Closure.outcome at h
      dsimp only at h
      split at h <;> rcases h with h | h <;> cases h
  rw [closeSession_eq]
  have hcore := ((failTargetCohorts sid now (closeReason sid c) db howners hholders).trans
    (closeOccupants_moves sid c live expires now _ howners hholders hqueue)).trans (hfinish _)
  split
  · exact hcore.trans (drainAllocation _ _ _ _)
  · exact hcore

theorem retireBlockedStart (x : Session) (reason : String) (now : Time) (db : Db) :
    Moves keeps db (retireBlockedStart x reason now db) := by
  unfold Pool.retireBlockedStart
  refine trans onTasks (touchSessions (fun s _ hs ↦ ?_) ?_ ?_)
  · simp only [Bool.and_eq_true, beq_iff_eq] at hs
    exact .retire rfl rfl rfl rfl rfl (by rw [hs.1.1.2]; rfl) rfl (by rintro ⟨⟩) (by rintro ⟨⟩)
      (fun _ _ ↦ .inl rfl) (.inl rfl) fun _ h ↦ h
  · exact fun _ _ ↦ unassigned rfl
  · exact fun _ ↦ rfl

theorem storageDrain (sid : ℕ) (now : Time) (db : Db) (hrefusal : ¬ keeps .refusal) :
    Moves keeps db (storageDrain sid now db) := by
  refine touchSessions (fun s _ hs ↦ ?_) (fun s _ hr ↦ ?_) fun _ ↦ rfl
  · simp only [Bool.and_eq_true] at hs
    have hserving := serving_of_assignable hs.1.2
    exact
      { terms := rfl
        sealed_ := fun _ ↦ rfl
        started := fun h ↦ h
        starting := fun h ↦ by
          dsimp only at h
          split at h
          · cases h
          · simp [h, SessionState.assignable] at hs
        unregistered := fun _ h ↦ by simp [h.not_serving] at hserving
        token := .inl
        tokenKept := fun _ ↦ rfl
        profile := fun _ _ ↦ rfl
        terminal := fun h ↦ by simp [serving_not_terminal hserving] at h
        settled := fun _ h ↦ by simp [serving_not_terminal hserving] at h
        healthy := fun h _ ↦ h hs.1.2
        quarantined := fun _ h ↦ h
        accepting := fun _ _ _ ↦ Session.accepting_of_assignable hs.1.2
        undrained := fun hk ↦ (hrefusal hk).elim
        emptied := fun _ h ↦ by
          dsimp only at h
          split at h
          · cases h
          · exact .inl h
        sticky := fun _ _ _ ↦ rfl
        retired := fun _ _ _ ↦ hs.1.2 }
  · dsimp only at hr ⊢
    split at hr
    · rcases hr with hr | hr <;> cases hr
    · rename_i hne
      exact if_neg hne

/-- The sessions that a drain for recycling or rotation concerns. -/
theorem timedOut_or_assignable {s : Session} (hs : (s.state.assignable || (s.state == .unhealthy &&
    s.failureMessage == sessionHeartbeatTimeoutMessage && s.quarantineReason == "")) = true) :
    s.state.terminal = false ∧ ¬ s.Unregistered := by
  simp only [Bool.or_eq_true, Bool.and_eq_true, beq_iff_eq] at hs
  rcases hs with hassign | hunhealthy
  · have hserving := serving_of_assignable hassign
    exact ⟨serving_not_terminal hserving, fun h ↦ by simp [h.not_serving] at hserving⟩
  · exact ⟨by rw [hunhealthy.1.1]; rfl, fun h ↦ h.not_timedOut hunhealthy.1.1 hunhealthy.1.2⟩

theorem requestSessionsDrain (reason : String) (allocationIds : Option (List ℕ)) (now : Time)
    (db : Db) : Moves keeps db (requestSessionsDrain reason allocationIds now db) := by
  refine touchSessions (fun s _ hs ↦ ?_) (fun _ _ ↦ unassigned rfl) fun _ ↦ rfl
  obtain ⟨hlive, hregistered⟩ := timedOut_or_assignable (Bool.and_eq_true_iff.mp hs).1
  exact .retire rfl rfl rfl rfl rfl hlive rfl (by rintro ⟨⟩) (by rintro ⟨⟩) (fun _ h ↦ (hregistered h).elim)
    (.inl rfl) fun _ _ ↦ rfl

theorem quarantineExpired (sid : ℕ) (until_ now : Time) (db : Db) :
    Moves keeps db (quarantineExpired sid until_ now db) := by
  refine touchSessions (fun s _ hs ↦ ?_) (fun _ _ ↦ unassigned rfl) fun _ ↦ rfl
  obtain ⟨hlive, hregistered⟩ := timedOut_or_assignable (Bool.and_eq_true_iff.mp hs).2
  exact .retire rfl rfl rfl rfl rfl hlive rfl (by rintro ⟨⟩) (by rintro ⟨⟩) (fun _ h ↦ (hregistered h).elim)
    (.inr (by simp)) fun _ _ ↦ rfl

theorem expireSessionHeartbeats (cutoff now : Time) (db : Db) :
    Moves keeps db (expireSessionHeartbeats cutoff now db) := by
  refine touchSessions (fun s _ hs ↦ ?_) (fun _ _ ↦ unassigned rfl) fun _ ↦ rfl
  simp only [Bool.and_eq_true] at hs
  refine .retire rfl rfl rfl rfl rfl (serving_not_terminal hs.1) rfl (by rintro ⟨⟩) (fun h ↦ ?_)
    (fun _ h ↦ by simp [h.not_serving] at hs) (.inl rfl) fun _ _ ↦ rfl
  cases hstate : s.state <;> simp only [hstate, SessionState.serving] at hs <;> try cases hs.1
  · exact Session.accepting_of_assignable (hstate ▸ rfl)
  · exact Session.accepting_of_assignable (hstate ▸ rfl)
  · simp [Session.accepting, SessionState.assignable, hstate, show recoverableMessageSql
      "session heartbeat expired while already draining" = false by decide] at h

theorem failOrphanedReleases (cutoff now : Time) (hdb : Registered db) (howners : ¬ keeps .owners)
    (hholders : ¬ keeps .holders) : Moves keeps db (failOrphanedReleases cutoff now db) := by
  unfold Pool.failOrphanedReleases quarantineLostReleases
  refine trans (touchSessions (fun s hmem hs ↦ ?_) ?_ ?_) (onLeases fun l _ hl ↦ ?_)
  · simp only [Bool.and_eq_true, beq_iff_eq, List.any_eq_true] at hs
    refine .retire rfl rfl rfl rfl rfl (by rw [hs.1.1]; rfl) rfl (by rintro ⟨⟩) (fun h ↦ ?_)
      (fun hnone _ ↦ ?_) (.inr (by simp)) fun _ _ ↦ rfl
    · simp [Session.accepting, SessionState.assignable] at h
    · obtain ⟨l, hl, ⟨hsession, -⟩, -⟩ := hs.2
      have hsome := (hdb.lease l hl s.id hsession).row hmem rfl
      simp [show s.startedAt = none from hnone] at hsome
  · exact fun _ _ ↦ unassigned rfl
  · exact fun _ ↦ rfl
  · simp only [Db.orphanedRelease, Bool.and_eq_true, beq_iff_eq] at hl
    exact .finish rfl (.inl rfl) rfl rfl (by rw [hl.1.1]; rfl) rfl (fun hk ↦ (howners hk).elim)
      fun hk ↦ (hholders hk).elim

theorem expireStarts (cutoff now : Time) (db : Db) :
    Moves keeps db (expireStarts cutoff now db) := by
  refine touchSessions (fun s _ hs ↦ ?_) (fun _ _ ↦ unassigned rfl) fun _ ↦ rfl
  simp only [Bool.and_eq_true, beq_iff_eq] at hs
  refine .retire rfl rfl rfl rfl rfl (by rw [hs.1]; rfl) rfl (by rintro ⟨⟩) (fun h ↦ ?_)
    (fun _ h ↦ ?_) (.inl rfl) fun _ _ ↦ rfl
  · simp [Session.accepting, SessionState.assignable, show recoverableMessageSql
      sessionStartAckTimeoutMessage = false by decide] at h
  · rcases h with h | ⟨hreason, -⟩
    · simp [hs.1, SessionState.terminal] at h
    · exact .inr ⟨hreason, .inr ⟨rfl, rfl⟩⟩

theorem reapStale (sid : ℕ) (now : Time) (db : Db) (howners : ¬ keeps .owners)
    (hholders : ¬ keeps .holders) : Moves keeps db (reapStale sid now db) := by
  unfold Pool.reapStale
  refine (failOccupants sid _ now db howners hholders).trans (touchSessions (fun s _ hs ↦ ?_) ?_ ?_)
  · simp only [Bool.and_eq_true, beq_iff_eq] at hs
    exact .retire rfl rfl rfl rfl rfl (by rw [hs.2]; rfl) rfl (by rintro ⟨⟩) (by rintro ⟨⟩)
      (fun _ _ ↦ .inl rfl) (.inl rfl) fun _ h ↦ h
  · exact fun _ _ ↦ unassigned rfl
  · exact fun _ ↦ rfl

theorem reviveAllocation (aid : ℕ) (now : Time) (db : Db) (hdrains : ¬ keeps .drains) :
    Moves keeps db (reviveAllocation aid now db) := by
  unfold Pool.reviveAllocation
  refine trans onAllocations (touchSessions (fun s _ hs ↦ ?_) ?_ ?_)
  · exact .touch rfl rfl rfl rfl (.inl rfl) rfl (.inr ⟨rfl, hdrains⟩) rfl rfl
  · exact fun _ _ _ ↦ rfl
  · exact fun _ ↦ rfl

theorem drainIdle (now : Time) (db : Db) : Moves keeps db (drainIdle now db) := by
  refine touchSessions (fun s _ hs ↦ ?_) (fun _ _ ↦ unassigned rfl) fun _ ↦ rfl
  simp only [Bool.and_eq_true, beq_iff_eq] at hs
  exact .retire rfl rfl rfl rfl rfl (by rw [hs.1]; rfl) rfl (by rintro ⟨⟩) (by rintro ⟨⟩)
    (fun _ h ↦ by simpa [hs.1, SessionState.serving] using h.not_serving) (.inl rfl) fun _ _ ↦ rfl

theorem drainForRebalance (sid : ℕ) (now : Time) (db : Db) :
    Moves keeps db (drainForRebalance sid now db) := by
  refine touchSessions (fun s _ hs ↦ ?_) (fun _ _ ↦ unassigned rfl) fun _ ↦ rfl
  simp only [Bool.and_eq_true, beq_iff_eq] at hs
  exact .retire rfl rfl rfl rfl rfl (by rw [hs.2]; rfl) rfl (by rintro ⟨⟩) (by rintro ⟨⟩)
    (fun _ h ↦ by simpa [hs.2, SessionState.serving] using h.not_serving) (.inl rfl) fun _ _ ↦ rfl

theorem drainForScaleIn {sid : ℕ} (now : Time) {x : Session} (hx : x ∈ db.sessions)
    (hid : x.id = sid) (hassign : x.state.assignable = true) :
    Moves keeps db (drainForScaleIn sid now db) := by
  refine touchSessions (fun s hs hp ↦ ?_) (fun _ _ ↦ unassigned rfl) fun _ ↦ rfl
  have hxs : x = s := Table.eq_of_key_eq hx hs (hid.trans (by simpa using hp : s.id = sid).symm)
  subst hxs
  have hserving := serving_of_assignable hassign
  exact .retire rfl rfl rfl rfl rfl (serving_not_terminal hserving) rfl (by rintro ⟨⟩) (by rintro ⟨⟩)
    (fun _ h ↦ by simp [h.not_serving] at hserving) (.inl rfl) fun _ _ ↦ rfl

end Moves

def Write.plain : Write → Bool
  | .reserve .. | .openCanary .. | .admitLease .. | .place .. | .grantWave .. | .startSession .. =>
      false
  | _ => true

def Write.keeps : Write → Aspect → Bool
  | .closeSession .., .closure | .suspectNative .., .quarantine | .storageDrain .., .refusal
  | .recoverSession .., .seals | .recoverSession .., .retirement => false
  | .recoverSession .., .drains | .suspectTransport .., .drains | .reviveAllocation .., .drains =>
      false
  | .suspectNative _ _ _ owner _, .drains => !owner
  | .failCohort _ _ _ settle _, .owners => settle
  | .rejectOffer .., .owners | .completeRelease .., .owners | .closeSession .., .owners
  | .failOrphanedReleases .., .owners | .reapStale .., .owners => false
  | .failCohort .., .holders | .expireCohort .., .holders | .abortCanary .., .holders
  | .supersedeLease .., .holders | .revokeOffer .., .holders | .requeueOffer .., .holders
  | .rejectOffer .., .holders | .cancelLease .., .holders | .expireOffer .., .holders
  | .completeRelease .., .holders | .closeSession .., .holders
  | .failOrphanedReleases .., .holders | .reapStale .., .holders => false
  | .failCohort _ _ _ settle _, .reasons => !settle
  | .expireCohort .., .reasons | .beginRelease .., .reasons | .recordLeaseFault .., .reasons =>
      false
  | .revokeOffer .., .queue | .requeueOffer .., .queue | .closeSession .., .queue => false
  | .revokeOffer .., .offers | .requeueOffer .., .offers => false
  | .abortCanary .., .admissions => false
  | _, _ => true

theorem moves_of_plain {db : Db} {w : Write} (hdb : Sound db) (hguard : Guard db w)
    (hplain : w.plain = true) : Moves (fun a ↦ w.keeps a = true) db (w.exec db) := by
  have hleaseRun : ∀ l ∈ db.leases, ∀ sid ∈ l.sessionId.toList, db.Running sid :=
    fun l hl sid hsid ↦ hdb.registered.running
      (hdb.registered.lease l hl sid (by simpa using hsid))
  have htokenStarted : ∀ sid, (∃ s ∈ db.sessions, s.id = sid ∧ s.hostTokenHash ≠ "") →
      db.Started sid := by
    rintro sid ⟨s, hs, hid, htoken⟩
    exact ⟨s, hs, hid, hdb.registered.token s hs htoken⟩
  cases w <;> try cases hplain
  case failCohort key now reason settle refresh =>
    have hcohort : Moves (fun a ↦ (Write.failCohort key now reason settle refresh).keeps a = true)
        db (failCohort key now reason settle db) :=
      .failCohort key now reason settle db (by rintro rfl ⟨⟩) (by rintro ⟨⟩) (by rintro rfl ⟨⟩)
    refine hcohort.trans (.refreshSessions now fun sid hsid ↦ hcohort.running ?_)
    rcases hguard with h | h
    · simp [h] at hsid
    · simp only [h, Db.cohortSessions, List.mem_dedup, List.mem_map, Table.mem_select] at hsid
      obtain ⟨r, hr, rfl⟩ := hsid
      exact hdb.registered.running (hdb.registered.reservation r hr.1)
  case expireCohort key now => exact .expireCohort key now hdb.paired (by rintro ⟨⟩) (by rintro ⟨⟩)
  case releaseTaskReservations now => exact .releaseTaskReservations now db
  case releaseLeaseReservations now => exact .releaseLeaseReservations now db
  case pinTask => exact .of_same rfl rfl rfl rfl rfl
  case unpinTask => exact .of_same rfl rfl rfl rfl rfl
  case abortCanary admissionId sid now =>
    obtain ⟨a, ha, -, rfl⟩ := hguard
    exact .abortCanary now (hdb.registered.running (hdb.registered.admission a ha)) (by rintro ⟨⟩)
      (by rintro ⟨⟩)
  case finishCanaries now => exact .finishCanaries now db
  case archiveRequestKey leaseId archivedKey now => exact .archiveRequestKey leaseId archivedKey now db
  case supersedeLease leaseId sid archivedKey now =>
    obtain ⟨l, hl, rfl, rfl, hstate⟩ := hguard
    exact .supersedeLease now hl hstate (hleaseRun l hl) (by rintro ⟨⟩)
  case revokeOffer l expires now =>
    exact .revokeOffer expires now hdb hguard.1 hguard.2 (by rintro ⟨⟩) (by rintro ⟨⟩) (by rintro ⟨⟩)
  case requeueOffer l now =>
    exact .requeueOffer now hdb hguard.1 hguard.2 (by rintro ⟨⟩) (by rintro ⟨⟩) (by rintro ⟨⟩)
  case rejectOffer l cohort now => exact .rejectOffer cohort now (hleaseRun l hguard.1) (by rintro ⟨⟩) (by rintro ⟨⟩)
  case attachLease leaseId expires now => exact .attachLease leaseId expires now db
  case heartbeatLease => exact .heartbeatLease _ _ _ _ _ _ _ db
  case activateLease leaseId state expires now => exact .activateLease expires now hguard
  case renewWaiting => exact .renewWaiting _ _ _ _ db
  case failPredecessor sid now => exact .failPredecessor sid now db
  case completePipeline => exact .completePipeline _ _ _ _ _ _ db
  case bindProjectName => exact .bindProjectName _ _ _ _ _ db
  case beginRelease leaseId sid reason now =>
    obtain ⟨l, hl, rfl, -, hstate⟩ := hguard
    exact .beginRelease sid reason now hl hstate (by rintro ⟨⟩)
  case cancelLease leaseId sid reason now =>
    obtain ⟨l, hl, rfl, rfl, hlive, howner⟩ := hguard
    refine .cancelLease reason now hl hlive ?_ (hleaseRun l hl) (by rintro ⟨⟩)
    -- an owner has a session, but the lease to cancel has none
    by_contra hne
    have howns : l.state.ownsProject = true := by simpa using hne
    obtain ⟨s, -, hsession, -⟩ :=
      hdb.seated.seat l hl (LeaseState.holdsSlot_of_ownsProject howns)
    simp [howner howns] at hsession
  case expireQueued leaseId now =>
    obtain ⟨l, hl, rfl, hqueued⟩ := hguard
    exact .expireQueued now hl hqueued
  case expireOffer leaseId sid now =>
    obtain ⟨l, hl, rfl, rfl, hoffered⟩ := hguard
    exact .expireOffer now hl hoffered (hleaseRun l hl) (by rintro ⟨⟩)
  case recordLeaseFault => exact .recordLeaseFault _ _ _ _ _ _ db (by rintro ⟨⟩)
  case completeRelease sid leaseId success message now =>
    obtain ⟨l, hl, -, hsession, -⟩ := hguard
    exact .completeRelease success message now hdb.registered
      (hdb.registered.lease l hl sid hsession) (by rintro ⟨⟩) (by rintro ⟨⟩)
  case claimStart => exact .claimStart _ _ _ _ _ _ db
  case registerSession sid state reg now =>
    obtain ⟨hstate, s, hs, hid, hstart⟩ := hguard
    exact .registerSession reg now hdb.registered hstate hs hid hstart
  case restoreAllocation => exact .of_same rfl rfl rfl rfl rfl
  case failSessionStart => exact .failSessionStart _ _ _ _ db
  case failUnclaimedStart => exact .failUnclaimedStart _ _ _ db
  case bindHostTask => exact .bindHostTask _ _ _ _ _ db
  case suspectTransport => exact .suspectTransport _ _ _ db (by rintro ⟨⟩)
  case reportAedtDeath => exact .reportAedtDeath _ _ _ _ db
  case solverTimeout => exact .solverTimeout _ _ _ _ _ _ db
  case suspectNative sid message evidence owner now =>
    exact .suspectNative message evidence owner now (htokenStarted sid hguard) (by rintro ⟨⟩)
      (by rintro rfl ⟨⟩)
  case confirmDeath sid aid message evidence now =>
    exact .confirmDeath aid message evidence now (htokenStarted sid hguard)
  case clearReuseBarrier => exact .clearReuseBarrier _ _ db
  case recoverSession sid now =>
    exact .recoverSession now hdb.registered hguard (by rintro ⟨⟩) (by rintro ⟨⟩) (by rintro ⟨⟩)
  case touchSession => exact .touchSession _ _ db
  case reapDeadSession sid state updatedAt now => exact .reapDeadSession updatedAt now hguard
  case closeSession =>
    exact .closeSession _ _ _ _ _ _ db (by rintro ⟨⟩) (by rintro ⟨⟩) (by rintro ⟨⟩) (by rintro ⟨⟩)
  case refreshSession sid now =>
    obtain ⟨s, hs, rfl, hbusy⟩ := hguard
    refine .refreshSession now (hdb.registered.running ⟨s, hs, rfl, ?_⟩)
    exact hdb.registered.assignable s hs (by rw [hbusy]; rfl)
  case retireBlockedStart => exact .retireBlockedStart _ _ _ db
  case storageDrain => exact .storageDrain _ _ db (by rintro ⟨⟩)
  case rotateAllocations => exact .of_same rfl rfl rfl rfl rfl
  case requestSessionsDrain => exact .requestSessionsDrain _ _ _ db
  case quarantineExpired => exact .quarantineExpired _ _ _ db
  case expireSessionHeartbeats => exact .expireSessionHeartbeats _ _ db
  case failOrphanedReleases => exact .failOrphanedReleases _ _ hdb.registered (by rintro ⟨⟩) (by rintro ⟨⟩)
  case expireStarts => exact .expireStarts _ _ db
  case drainUnhealthyAllocations => exact .of_same rfl rfl rfl rfl rfl
  case reapStale => exact .reapStale _ _ db (by rintro ⟨⟩) (by rintro ⟨⟩)
  case reviveAllocation => exact .reviveAllocation _ _ db (by rintro ⟨⟩)
  case drainIdle => exact .drainIdle _ db
  case drainForRebalance => exact .drainForRebalance _ _ db
  case drainForScaleIn sid now =>
    obtain ⟨s, hs, hid, hassign⟩ := hguard
    exact .drainForScaleIn now hs hid hassign
  case advanceCursor => exact .of_same rfl rfl rfl rfl rfl
  case putSettings => exact .of_same rfl rfl rfl rfl rfl
  case recordValidation => exact .of_same rfl rfl rfl rfl rfl

end SlurmScheduler.Pool
