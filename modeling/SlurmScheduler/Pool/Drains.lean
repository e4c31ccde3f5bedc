import SlurmScheduler.Pool.Scripts

namespace SlurmScheduler.Pool

open Relational

/-- The write takes a queued lease to a slot of the session. -/
def Places (e : PoolExecution) (sid : ℕ) : Prop :=
  ∃ l ∈ e.before.leases, ∃ l' ∈ e.after.leases, l'.id = l.id ∧ l.state = .queued ∧
    (l'.state = .offered ∨ l'.state = .leased) ∧ l'.sessionId = some sid

instance (e : PoolExecution) (sid : ℕ) : Decidable (Places e sid) :=
  inferInstanceAs (Decidable (∃ l ∈ e.before.leases.rows, ∃ l' ∈ e.after.leases.rows, _ ∧ _))

theorem LeaseMove.not_placed {keeps : Aspect → Prop} {l l' : Lease} (h : LeaseMove keeps l l')
    (hq : l.state = .queued) (hl' : l'.state = .offered ∨ l'.state = .leased) : False := by
  have hslot : l'.state.holdsSlot = true := by rcases hl' with h | h <;> rw [h] <;> rfl
  have hold := h.holdsSlot hslot
  simp [hq, LeaseState.holdsSlot] at hold

/-- Only a session that passed the placement test receives a lease. -/
theorem Places.placeable {e : PoolExecution} {s : Session} (hdb : Sound e.before)
    (hguard : Guard e.before e.write) (hs : s ∈ e.before.sessions) (h : Places e s.id) :
    ∃ l ∈ e.before.leases, Placeable e.before l s := by
  obtain ⟨db, w⟩ := e
  obtain ⟨l, hl, l', hl', hid, hq, hslot, hsid⟩ := h
  have hsame : l' ∉ db.leases := fun hmem ↦ by
    rw [Table.eq_of_key_eq hmem hl hid, hq] at hslot
    rcases hslot with h | h <;> cases h
  have hmoved : ∀ {keeps : Aspect → Prop} {t : Table Lease},
      Table.Moved (LeaseMove keeps) db.leases t → l' ∉ t := by
    intro keeps t hmoves hmem
    obtain ⟨x, hx, hm⟩ := hmoves.exists_left hmem
    have hxl : x = l := Table.eq_of_key_eq hx hl (hm.id.symm.trans hid)
    exact hm.not_placed (hxl ▸ hq) hslot
  change l' ∈ (w.exec db).leases at hl'
  obtain hplain | hplain := Bool.eq_false_or_eq_true w.plain
  · exact (hmoved (moves_of_plain hdb hguard hplain).leases hl').elim
  cases w <;> try (cases hplain; done)
  case reserve terms tasks now =>
    obtain ⟨_, hframe⟩ := reserve_frame terms tasks now db
    have hmem : l' ∈ (reserve terms tasks now db).leases := hl'
    rw [hframe] at hmem
    exact (hsame hmem).elim
  case openCanary sid group profile slots expires now =>
    obtain ⟨_, hframe⟩ := openCanary_frame sid group profile slots expires now db
    have hmem : l' ∈ (openCanary sid group profile slots expires now db).leases := hl'
    rw [hframe] at hmem
    exact (hsame hmem).elim
  case admitLease q reservation canary now =>
    rcases (mem_admitLease _ _ _ _ _).mp hl' with hmem | rfl
    · exact (hsame hmem).elim
    · rcases hslot with h | h <;> cases h
  case place x sid slot offerExpires now =>
    obtain ⟨hx, hxq, y, hy, rfl, hplace, -⟩ := hguard
    have hrun := hdb.registered.running
      ⟨y, hy, rfl, hdb.registered.assignable y hy hplace.assignable⟩
    have hmoves : Moves (· ≠ .profiles) (seatLease x y.id slot offerExpires now db)
        (place x y.id slot offerExpires now db) := moves_place hrun fun h ↦ h rfl
    obtain ⟨m, hm, hml⟩ := hmoves.leases.exists_left hl'
    obtain ⟨a, ha, ham⟩ := (seatLease_leases y.id slot offerExpires now hx hxq).exists_left hm
    by_cases haid : a.id = x.id
    · obtain ⟨rfl, rfl⟩ := ham.seated haid
      have hsession := (hml.place (by rcases hslot with h | h <;> rw [h] <;> rfl)).1
      have hys : y = s := Table.eq_of_key_eq hy hs (Option.some.inj (hsession.symm.trans hsid))
      exact ⟨a, hx, hys ▸ hplace⟩
    · have hma := ham.kept haid
      have hal : a = l := Table.eq_of_key_eq ha hl ((hma ▸ hml.id.symm).trans hid)
      exact (hml.not_placed (by rw [hma, hal, hq]) hslot).elim
  case grantWave sid leaseIds now =>
    obtain ⟨y, hy, rfl, -⟩ := hguard
    obtain ⟨a, ha, ham⟩ := (grantWave_leases hy leaseIds now).exists_left hl'
    have hal : a = l := Table.eq_of_key_eq ha hl (ham.id.symm.trans hid)
    rw [ham.state, hal, hq] at hslot
    rcases hslot with h | h <;> cases h
  case startSession => exact (hsame hl').elim

/-- The write is no storage drain of a busy session. -/
def Write.drainsIdle (db : Db) : Write → Bool
  | .storageDrain sid _ => db.sessions.rows.all fun s ↦ s.id != sid || s.state != .busy
  | _ => true

theorem undrained_rules : SessionRules (fun db w ↦ w.drainsIdle db = true) Sound
    fun s ↦ s.state.assignable = true → s.drainRequestedAt = none where
  plain {db w s s'} _ _ hC hs hs' hm hq := by
    by_cases hkeeps : w.keeps .refusal = true
    · exact hm.undrained hkeeps hq
    · cases w <;> try exact (hkeeps rfl).elim
      rename_i sid now
      rw [Db.onSessions_row hs hs' hm.id]
      split
      · rename_i hp
        simp only [Bool.and_eq_true, beq_iff_eq] at hp
        simp only [Write.drainsIdle, List.all_eq_true, Bool.or_eq_true, bne_iff_ne, ne_eq] at hC
        have hready : s.state = .ready := by
          rcases hC s hs with hne | hbusy
          · exact (hne hp.1.1).elim
          · cases hstate : s.state <;> simp_all [SessionState.assignable]
        intro hassign
        simp [hready, SessionState.assignable] at hassign
      · exact hq
  placed _ _ hm hq := hm.undrained (by rintro ⟨⟩) hq
  granted _ _ _ _ hq := hq

theorem undrained_invariant : Invariant (fun db w ↦ w.drainsIdle db = true) fun db ↦
    Sound db ∧ ∀ s ∈ db.sessions, s.state.assignable = true → s.drainRequestedAt = none :=
  undrained_rules.invariant fun _ _ _ _ _ _ _ _ ↦ rfl

/-- If only idle Desktops are drained for storage pressure, no lease is placed on a session whose
drain is requested. -/
theorem drained_sessions_refuse (svc : Service) (es : List PoolExecution) (db : Db)
    (h : History svc (fun db w ↦ w.drainsIdle db = true) {} es db) (e : PoolExecution) (he : e ∈ es)
    (s : Session) (hs : s ∈ e.before.sessions) (hdrained : s.drainRequestedAt.isSome = true) :
    ¬ Places e s.id := by
  intro hplaces
  obtain ⟨⟨hsound, hundrained⟩, hguard, -⟩ := h.checked undrained_invariant undrained_invariant.start e he
  obtain ⟨l, -, hplace⟩ := hplaces.placeable hsound hguard hs
  simp [hundrained s hs hplace.assignable] at hdrained

def storagePressure (now : Time) : Event :=
  .call {} now (.reconcile { execute := true, storagePressureAccounts := ["lab"] })

def idleDrainScript : List Event :=
  openDesktop .empty ++ [storagePressure 100005, .call {} 100010 (.requestLease (sampleRequest 1 0))]

def idleDrain : List PoolExecution := scriptExecutions sampleService idleDrainScript {}

def lastRequest : PoolExecution := idleDrain.getLast?.getD ⟨{}, .advanceCursor 0⟩

theorem getLast?_getD_mem {α : Type} {l : List α} {d : α} (h : l.getLast?.isSome = true) :
    l.getLast?.getD d ∈ l := by
  obtain ⟨a, ha⟩ := Option.isSome_iff_exists.mp h
  rw [ha]
  exact List.mem_of_getLast? ha

theorem drained_sessions_refuse_request : ¬ Places lastRequest lastRequest.before.desktop.id :=
  drained_sessions_refuse sampleService idleDrain _
    (history_script sound_empty (by decide)) lastRequest
    (getLast?_getD_mem (by decide)) lastRequest.before.desktop
    (Db.desktop_mem (by decide +kernel)) (by decide +kernel)

def busyDrain : List Event :=
  openDesktop .empty ++ [.call {} 100010 (.requestLease (sampleRequest 1 0))] ++ attach 1 100011 ++
    [storagePressure 100012, .call {} 100013 (.requestLease (sampleRequest 2 0))]

/-- The second lease gets a slot of the draining Desktop. -/
theorem busy_drain_accepts :
    ¬ ∀ (svc : Service) (es : List PoolExecution) (db : Db), History svc AnyWrite {} es db →
      ∀ e ∈ es, ∀ s ∈ e.before.sessions, s.drainRequestedAt.isSome = true → ¬ Places e s.id := by
  intro h
  have hplaced : ∃ e ∈ scriptExecutions sampleService busyDrain {}, ∃ s ∈ e.before.sessions.rows,
      s.drainRequestedAt.isSome = true ∧ Places e s.id := by decide +kernel
  obtain ⟨e, he, s, hs, hdrained, hplaces⟩ := hplaced
  exact h sampleService _ _ (history_script sound_empty (by decide +kernel)) e he s hs hdrained
    hplaces

/-- The write withdraws no drain request of the session. -/
def Write.sparesDrain (sid : ℕ) (db : Db) : Write → Bool
  | .suspectTransport x _ _ => db.passesOver sid fun s ↦ s.id == x && s.state.assignable
  | .suspectNative x _ _ owner _ => !owner || db.passesOver sid fun s ↦ s.id == x &&
      (s.state.assignable || s.state == .unhealthy)
  | .recoverSession x _ => db.passesOver sid fun s ↦ s.id == x && s.state == .unhealthy &&
      recoverableMessageSql s.failureMessage && s.quarantineReason == ""
  | .reviveAllocation aid _ => db.passesOver sid fun s ↦ s.allocationId == aid &&
      s.state.assignable
  | _ => true

structure Session.Drained (sid : ℕ) (s : Session) : Prop where
  id : s.id = sid
  started : s.startedAt.isSome = true
  requested : s.drainRequestedAt.isSome = true

theorem Session.Drained.step {sid : ℕ} {db : Db} {w : Write} {s s' : Session}
    (hC : w.sparesDrain sid db = true) (hs : s ∈ db.sessions) (hs' : s' ∈ (w.exec db).sessions)
    (hm : SessionMove (fun a ↦ w.keeps a = true) s s') (hq : s.Drained sid) : s'.Drained sid := by
  by_cases hkeeps : w.keeps .drains = true
  · exact ⟨hm.id.trans hq.id, hm.started hq.started, hm.sticky hkeeps hq.started hq.requested⟩
  · have hsame : s' = s := by
      cases w <;> try exact (hkeeps rfl).elim
      case suspectTransport => exact Db.passesOver_row hC hs hs' hm.id hq.id
      case suspectNative x message evidence owner now =>
        cases owner with
        | false => exact (hkeeps rfl).elim
        | true => exact Db.passesOver_row hC hs hs' hm.id hq.id
      case recoverSession => exact Db.passesOver_row hC hs hs' hm.id hq.id
      case reviveAllocation aid now =>
        have hrevived : s' ∈ (db.onSessions (fun s ↦ s.allocationId == aid && s.state.assignable)
            (fun s ↦ { s with drainRequestedAt := none, updatedAt := now }) fun _ ↦ rfl).sessions :=
          hs'
        exact Db.passesOver_row hC hs hrevived hm.id hq.id
    exact hsame ▸ hq

theorem drained_rules (sid : ℕ) :
    SessionRules (fun db w ↦ w.sparesDrain sid db = true) Sound (Session.Drained sid) where
  plain _ _ hC hs hs' hm hq := hq.step hC hs hs' hm
  placed _ _ hm hq :=
    ⟨hm.id.trans hq.id, hm.started hq.started, hm.sticky (by rintro ⟨⟩) hq.started hq.requested⟩
  granted _ _ _ _ hq := ⟨hq.id, hq.started, hq.requested⟩

structure Session.Retired (sid : ℕ) (s : Session) : Prop extends s.Drained sid where
  idle : s.state.assignable = false

theorem Session.Drained.idle {sid : ℕ} {s s' : Session} (hq : s.Retired sid) (hq' : s'.Drained sid)
    (h : (s.state.assignable = true → s.drainRequestedAt = none) →
      s'.state.assignable = true → s'.drainRequestedAt = none) : s'.Retired sid := by
  refine ⟨hq', ?_⟩
  by_contra hne
  have hnone := h (fun hassign ↦ by simp [hq.idle] at hassign) (by simpa using hne)
  have hsome := hq'.requested
  simp [hnone] at hsome

theorem retired_rules (sid : ℕ) :
    SessionRules (fun db w ↦ w.sparesDrain sid db = true) Sound (Session.Retired sid) where
  plain {db w s s'} _ _ hC hs hs' hm hq := by
    by_cases hkeeps : w.keeps .refusal = true
    · exact (hq.toDrained.step hC hs hs' hm).idle hq (hm.undrained hkeeps)
    · cases w <;> try exact (hkeeps rfl).elim
      rename_i x now
      rw [Db.onSessions_row hs hs' hm.id, if_neg ?_]
      · exact hq
      · simp [hq.idle]
  placed hdb hs hm hq :=
    ((drained_rules sid).placed hdb hs hm hq.toDrained).idle hq (hm.undrained (by rintro ⟨⟩))
  granted now hdb hs hgrant hq :=
    ⟨(drained_rules sid).granted now hdb hs hgrant hq.toDrained, hq.idle⟩

/-- A storage drain takes an idle session out of service at once. -/
theorem storageDrain_drained {db : Db} {s : Session} (now : Time) (hdb : Sound db)
    (hs : s ∈ db.sessions) (hassign : s.state.assignable = true) (hnone : s.drainRequestedAt = none) :
    ∃ s' ∈ (storageDrain s.id now db).sessions, s'.Drained s.id ∧
      (s.state = .ready → s'.state.assignable = false) := by
  refine ⟨_, Db.mem_onSessions.mpr ⟨s, hs, if_pos ?_⟩, ⟨rfl, ?_, rfl⟩, fun hready ↦ ?_⟩
  · simp [hassign, hnone]
  · exact hdb.registered.assignable s hs hassign
  · simp [hready, SessionState.assignable]

/-- After a storage drain of a session, and as long as no later write withdraws a drain request of
this session, its drain stays requested; if it was idle, it never receives a lease again. -/
theorem storage_drain_sticky (svc : Service) (es es' : List PoolExecution) (e : PoolExecution)
    (db : Db) (s : Session) (now : Time) (h : History svc AnyWrite {} (es ++ e :: es') db)
    (hwrite : e.write = .storageDrain s.id now) (hs : s ∈ e.before.sessions)
    (hspares : ∀ x ∈ es', x.write.sparesDrain s.id x.before = true) :
    (∀ s' ∈ db.sessions, s'.id = s.id → s'.drainRequestedAt.isSome = true) ∧
    (∀ x ∈ es', ∀ s' ∈ x.before.sessions, s'.id = s.id → s'.drainRequestedAt.isSome = true) ∧
    (s.state = .ready → ∀ x ∈ es', ¬ Places x s.id) := by
  obtain ⟨d, w⟩ := e
  change w = _ at hwrite
  subst hwrite
  have hafter : Sound d → Guard d (.storageDrain s.id now) → ∃ s' ∈ (storageDrain s.id now d).sessions,
      s'.Drained s.id ∧ (s.state = .ready → s'.state.assignable = false) := by
    rintro hdb ⟨x, hx, hid, hassign, hnone⟩
    have hxs : x = s := Table.eq_of_key_eq hx hs hid
    subst hxs
    exact storageDrain_drained now hdb hx hassign hnone
  have hdrains := h.since sound_invariant
    (((drained_rules s.id).some_session fun _ hdb ↦ hdb).stable fun _ hdb ↦ hdb) sound_empty
    hspares fun hdb hguard _ ↦ by
      obtain ⟨s', hs', hdrained, -⟩ := hafter hdb hguard
      exact ⟨s', hs', hdrained⟩
  have hrequested : ∀ {d : Db}, (∃ x ∈ d.sessions, x.Drained s.id) →
      ∀ s' ∈ d.sessions, s'.id = s.id → s'.drainRequestedAt.isSome = true := by
    rintro d ⟨x, hx, hdrained⟩ s' hs' hid
    have hxs : x = s' := Table.eq_of_key_eq hx hs' (hdrained.id.trans hid.symm)
    exact hxs ▸ hdrained.requested
  refine ⟨hrequested hdrains.1, fun x hx ↦ hrequested (hdrains.2 x hx), fun hready x hx hplaces ↦ ?_⟩
  have hretires := h.since sound_invariant
    (((retired_rules s.id).some_session fun _ hdb ↦ hdb).stable fun _ hdb ↦ hdb) sound_empty
    hspares fun hdb hguard _ ↦ by
      obtain ⟨s', hs', hdrained, hidle⟩ := hafter hdb hguard
      exact ⟨s', hs', hdrained, hidle hready⟩
  obtain ⟨s', hs', hretired⟩ := hretires.2 x hx
  obtain ⟨hsound, hguard, -⟩ := h.checked sound_invariant sound_empty x
    (List.mem_append_right _ (List.mem_cons_of_mem _ hx))
  obtain ⟨l, -, hplace⟩ := (hretired.id ▸ hplaces).placeable hsound hguard hs'
  have hidle := hretired.idle
  simp [hplace.assignable] at hidle

theorem exists_storageDrain {es : List PoolExecution}
    (h : ∃ e ∈ es, (match e.write with | .storageDrain sid _ => sid == 1 | _ => false) = true) :
    ∃ pre post e now, es = pre ++ e :: post ∧ e.write = .storageDrain 1 now := by
  obtain ⟨⟨d, w⟩, he, hwrite⟩ := h
  obtain ⟨pre, post, hsplit⟩ := List.mem_iff_append.mp he
  cases w <;> try cases hwrite
  rename_i sid now
  have hsid : sid = 1 := by simpa using hwrite
  exact ⟨pre, post, _, now, hsplit, by rw [hsid]⟩

theorem storage_drain_sticky_idle : ∃ pre post e, idleDrain = pre ++ e :: post ∧
    (∀ x ∈ post, ∀ s' ∈ x.before.sessions, s'.id = 1 → s'.drainRequestedAt.isSome = true) ∧
    ∀ x ∈ post, ¬ Places x 1 := by
  obtain ⟨pre, post, e, now, hsplit, hwrite⟩ := @exists_storageDrain idleDrain (by decide)
  have hhistory : History sampleService AnyWrite {} idleDrain (script sampleService idleDrainScript {}) :=
    history_script sound_empty (by decide)
  rw [hsplit] at hhistory
  have hall : ∀ x ∈ idleDrain, x.write.sparesDrain 1 x.before = true := by decide
  have hidle : ∀ x ∈ idleDrain, (match x.write with | .storageDrain .. => true | _ => false) = true →
      x.before.desktop.id = 1 ∧ x.before.desktop.state = .ready ∧
        (x.before.sessions.find? 1).isSome = true := by decide
  obtain ⟨hid, hready, hsome⟩ := hidle e (hsplit ▸ List.mem_append_right _ List.mem_cons_self)
    (by rw [hwrite])
  have hsticky := storage_drain_sticky sampleService pre post e _ e.before.desktop now hhistory
    (hid.symm ▸ hwrite)
    (Db.desktop_mem hsome)
    (fun x hx ↦ hid.symm ▸ hall x (hsplit ▸ List.mem_append_right _ (List.mem_cons_of_mem _ hx)))
  rw [hid] at hsticky
  exact ⟨pre, post, e, hsplit, hsticky.2.1, hsticky.2.2 hready⟩

def withdrawnDrain : List Event :=
  openDesktop .empty ++ [.call {} 100010 (.requestLease (sampleRequest 1 0))] ++ attach 1 100011 ++
    [storagePressure 100012,
     .call {} 100013 (.reportProjectFault 1 (clientToken 1) { faultKind := "aedt_transport_death" })]

theorem fault_withdraws_drain :
    ¬ ∀ (svc : Service) (es es' : List PoolExecution) (e : PoolExecution) (db : Db) (s : Session)
      (now : Time), History svc AnyWrite {} (es ++ e :: es') db → e.write = .storageDrain s.id now →
      s ∈ e.before.sessions → ∀ s' ∈ db.sessions, s'.id = s.id → s'.state.terminal = false →
        s'.drainRequestedAt.isSome = true := by
  intro h
  obtain ⟨pre, post, e, now, hsplit, hwrite⟩ := 
    @exists_storageDrain (scriptExecutions sampleService withdrawnDrain {}) (by decide +kernel)
  have hhistory : History sampleService AnyWrite {} (scriptExecutions sampleService withdrawnDrain {})
      (script sampleService withdrawnDrain {}) := history_script sound_empty (by decide +kernel)
  rw [hsplit] at hhistory
  have hbefore : ∀ x ∈ scriptExecutions sampleService withdrawnDrain {},
      (match x.write with | .storageDrain .. => true | _ => false) = true →
        x.before.desktop.id = 1 ∧ (x.before.sessions.find? 1).isSome = true := by decide +kernel
  obtain ⟨hid, hsome⟩ := hbefore e (hsplit ▸ List.mem_append_right _ List.mem_cons_self)
    (by rw [hwrite])
  have hkept := h sampleService pre post e _ e.before.desktop now hhistory (hid.symm ▸ hwrite)
    (Db.desktop_mem hsome) (script sampleService withdrawnDrain {}).desktop
    (Db.desktop_mem (by decide +kernel))
  rw [hid] at hkept
  exact absurd (hkept (by decide +kernel) (by decide +kernel)) (by decide +kernel)

end SlurmScheduler.Pool
