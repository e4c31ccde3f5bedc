import SlurmScheduler.Pool.Closing
import SlurmScheduler.Pool.Quarantine

namespace SlurmScheduler.Pool

open Relational PoolTx

/-- The passes before the one that expires leases. -/
def Service.beforeExpiry (svc : Service) (env : Env) (args : ReconcileArgs) : PoolTx Unit := do
  refreshZeroOwnerDrainingSessions env.now
  refreshExactSessionReservations env.now
  refreshZeroOwnerDrainingSessions env.now
  when (args.execute && env.cfg.operational) do
    retireBlockedStarts svc env.now args
    drainPressuredAccounts svc env.now args
  when args.execute (rotateAgedAllocations env.cfg env.now)
  endTerminalTasks env.now
  requeueStaleOffers env.now

def afterExpiry (env : Env) (args : ReconcileArgs) : PoolTx Unit := do
  recycleUnhealthySessions env.cfg env.now
  when args.execute (reviveAllocations env.now)
  when (args.execute && env.cfg.operational) do
    placeQueuedLeases env.cfg env.now env.clock none false
    scale env.cfg env.now args.plan

theorem reconcile_eq (svc : Service) (env : Env) (args : ReconcileArgs) :
    svc.reconcile env args = (do
      svc.beforeExpiry env args
      expireLeases env.cfg env.now
      afterExpiry env args) := by
  unfold Service.reconcile Service.beforeExpiry afterExpiry
  simp only [Tx.andThen_assoc]

/-- The expiry of an active lease quarantines the session, or it is quarantined already. -/
def Session.withinReach (s : Session) : Bool :=
  s.state.assignable || s.quarantineReason != "" ||
    (s.state == .unhealthy && s.failureMessage == sessionHeartbeatTimeoutMessage)

def Db.sessionHas (db : Db) (sid : ℕ) (Q : Session → Prop) : Prop :=
  ∃ s ∈ db.sessions, s.id = sid ∧ Q s

theorem sessionHas_onSessions {p : Session → Bool} {f : Session → Session}
    {hf : ∀ s, Keyed.key (f s) = Keyed.key s} {db : Db} {sid : ℕ} {Q Q' : Session → Prop}
    (h : db.sessionHas sid Q)
    (hQ : ∀ s, s.id = sid → Q s → (p s = true → Q' (f s)) ∧ (p s = false → Q' s)) :
    (db.onSessions p f hf).sessionHas sid Q' := by
  obtain ⟨s, hs, hid, hq⟩ := h
  refine ⟨_, Db.mem_onSessions.mpr ⟨s, hs, rfl⟩, ?_, ?_⟩
  · split
    · exact (hf s).trans hid
    · exact hid
  · cases hp : p s with
    | true => simpa using (hQ s hid hq).1 hp
    | false => simpa using (hQ s hid hq).2 hp

/-- Until its expiry is treated the lease keeps its session in reach, and from then on the session
is quarantined. -/
structure ExpiryLoop (l : Lease) (sid : ℕ) (rest : List Lease) (db : Db) : Prop where
  pending : Pending rest db
  session : db.sessionHas sid (·.quarantineReason ≠ "") ∨
    (l ∈ rest ∧ db.sessionHas sid (·.withinReach = true))

section Loop

variable {l a : Lease} {sid : ℕ} {rest : List Lease} {db : Db} {now : Time}

theorem blockReuse_has (x : ℕ) {Q : Session → Prop} (h : db.sessionHas sid Q)
    (hQ : ∀ s : Session, Q s → Q { s with
      reuseBlockedAt := some (s.reuseBlockedAt.getD now), updatedAt := now }) :
    (blockReuse x now db).sessionHas sid Q :=
  sessionHas_onSessions h fun s _ hs ↦ ⟨fun _ ↦ hQ s hs, fun _ ↦ hs⟩

theorem beginRelease_has (x : Option ℕ) (reason : String) {Q : Session → Prop}
    (h : db.sessionHas sid Q) (hQ : ∀ s : Session, Q s → Q { s with
      reuseBlockedAt := some (s.reuseBlockedAt.getD now), updatedAt := now }) :
    (beginRelease a.id x reason now db).sessionHas sid Q := by
  cases x with
  | none => exact h
  | some x => exact blockReuse_has x h hQ

theorem quarantineExpired_has {x : ℕ} {until_ : Time}
    (h : db.sessionHas sid (·.withinReach = true)) :
    (quarantineExpired x until_ now db).sessionHas sid (·.withinReach = true) := by
  refine sessionHas_onSessions h fun s _ hs ↦ ⟨fun _ ↦ ?_, fun _ ↦ hs⟩
  simp [Session.withinReach]

theorem quarantineExpired_self {until_ : Time} (h : db.sessionHas sid (·.withinReach = true)) :
    (quarantineExpired sid until_ now db).sessionHas sid (·.quarantineReason ≠ "") := by
  refine sessionHas_onSessions h fun s hid hs ↦ ⟨fun _ ↦ by simp, fun hp ↦ ?_⟩
  intro hreason
  simp only [Session.withinReach, hreason, bne_self_eq_false, Bool.or_false, Bool.or_eq_true,
    Bool.and_eq_true] at hs
  simp only [hid, hreason, beq_self_eq_true, Bool.true_and, Bool.and_true, Bool.or_eq_false_iff,
    Bool.and_eq_false_iff] at hp
  rcases hs with hs | hs
  · simp [hs] at hp
  · simp [hs] at hp

theorem quarantineExpired_keeps {x : ℕ} {until_ : Time}
    (h : db.sessionHas sid (·.quarantineReason ≠ "")) :
    (quarantineExpired x until_ now db).sessionHas sid (·.quarantineReason ≠ "") :=
  sessionHas_onSessions h fun _ _ hs ↦ ⟨fun _ ↦ by simp, fun _ ↦ hs⟩

theorem expireOffer_keeps (x : Option ℕ) (h : db.sessionHas sid (·.quarantineReason ≠ "")) :
    (expireOffer a.id x now db).sessionHas sid (·.quarantineReason ≠ "") := by
  cases x with
  | none => exact h
  | some x => exact sessionHas_onSessions h fun _ _ hs ↦ ⟨fun _ ↦ hs, fun _ ↦ hs⟩

/-- While the session has an owner its refresh leaves it in reach. -/
theorem expireOffer_has (x : Option ℕ) (hl : l ∈ db.leases) (hne : l.id ≠ a.id)
    (hholds : l.holds sid = true) (h : db.sessionHas sid (·.withinReach = true)) :
    (expireOffer a.id x now db).sessionHas sid (·.withinReach = true) := by
  cases x with
  | none => exact h
  | some x =>
    refine sessionHas_onSessions h fun s hid hs ↦ ⟨fun hp ↦ ?_, fun _ ↦ hs⟩
    simp only [Bool.and_eq_true, beq_iff_eq] at hp
    have hkept := @expireOffer_keep a.id none now db l hl hne
    have hused : 0 < (expireOffer a.id none now db).used sid :=
      Table.count_pos.mpr ⟨l, hkept, hholds⟩
    have hlive : ((expireOffer a.id none now db).used x == 0) = false := by
      rw [← hp.1, hid]
      simpa using hused.ne'
    simp only [expireOffer, Option.toList, refreshSessions, List.foldl_nil] at hlive
    simp [Session.withinReach, Session.refreshed, hlive, SessionState.assignable]

/-- The pass quarantines the session of every active lease that it expires. -/
theorem expireLeases_quarantines {cfg : AedtPoolConfig} (hl : l ∈ db.leases)
    (hlapsed : l.lapsed cfg now = true) (hactive : l.state = .active)
    (hsid : l.sessionId = some sid) (hreach : db.sessionHas sid (·.withinReach = true)) :
    Tx.wp (fun _ _ ↦ True) (expireLeases cfg now)
      (fun _ db' ↦ db'.sessionHas sid (·.quarantineReason ≠ "")) db := by
  simp only [expireLeases, Tx.wp_bind, wp_read]
  have hrows := select_leases db (·.lapsed cfg now)
  have hstart : ExpiryLoop l sid (db.leases.select (·.lapsed cfg now)) db :=
    ⟨⟨hrows.2, hrows.1⟩, .inr ⟨Table.mem_select.mpr ⟨hl, hlapsed⟩, hreach⟩⟩
  have hholds : l.holds sid = true := by simp [Lease.holds, hsid, hactive, LeaseState.holdsSlot]
  refine Tx.wp_mono (Tx.wp_forEach_suffix (I := ExpiryLoop l sid) (fun a rest db h ↦ ?_) hstart) ?_
  · have hother : l ∈ a :: rest → l ≠ a → l ∈ rest ∧ l.id ≠ a.id := by
      intro hmem hne
      have hrest := (List.mem_cons.mp hmem).resolve_left hne
      exact ⟨hrest, fun hid ↦ (List.pairwise_cons.mp h.pending.1).1 l hrest hid.symm⟩
    split
    · rename_i hqueued
      refine wp_write.mpr ⟨trivial, h.pending.tail fun x hx hid ↦
        onLeases_keep hx (by simp [hid]) (by intro; rfl), h.session.imp id ?_⟩
      rintro ⟨hmem, hw⟩
      exact ⟨(hother hmem (by rintro rfl; simp [hactive] at hqueued)).1, hw⟩
    · rename_i hoffered
      refine wp_write.mpr ⟨trivial, h.pending.tail fun x hx hid ↦ expireOffer_keep hx hid,
        h.session.imp (expireOffer_keeps _) ?_⟩
      rintro ⟨hmem, hw⟩
      have hl' := hother hmem (by rintro rfl; simp [hactive] at hoffered)
      exact ⟨hl'.1, expireOffer_has _ (h.pending.2 l hmem) hl'.2 hholds hw⟩
    · have hkeep := h.pending.tail fun x hx hid ↦
        @beginRelease_keep a.id a.sessionId "lease heartbeat expired" now db x hx hid
      have hbegun := h.session.imp
        (fun hq ↦ @beginRelease_has a sid db now a.sessionId "lease heartbeat expired" _ hq
          fun _ hs ↦ hs)
        (And.imp_right fun hw ↦ @beginRelease_has a sid db now a.sessionId
          "lease heartbeat expired" _ hw fun _ hs ↦ hs)
      rw [Tx.wp_bind]
      refine wp_write.mpr ⟨trivial, ?_⟩
      split
      · rename_i x hx hxsid
        refine wp_write.mpr ⟨trivial, hkeep, ?_⟩
        rcases hbegun with hq | ⟨hmem, hw⟩
        · exact .inl (quarantineExpired_keeps hq)
        · by_cases hla : l = a
          · subst hla
            cases hxsid.symm.trans hsid
            exact .inl (quarantineExpired_self hw)
          · exact .inr ⟨(hother hmem hla).1, quarantineExpired_has hw⟩
      · rename_i hquiet
        refine Tx.wp_pure.mpr ⟨hkeep, hbegun.imp_right fun hmem ↦ ⟨(hother hmem.1 ?_).1, hmem.2⟩⟩
        rintro rfl
        exact hquiet sid hactive hsid
  · rintro - db' ⟨-, h | ⟨hmem, -⟩⟩
    · exact h
    · cases hmem

end Loop

def Write.suspects : Write → Bool
  | .suspectNative .. => true
  | _ => false

theorem spares_of_not_suspects {w : Write} (h : w.suspects = false) (sid : ℕ) (db : Db) :
    w.sparesQuarantine sid db = true := by
  cases w <;> first | rfl | cases h

theorem afterExpiry_quiet (env : Env) (args : ReconcileArgs) :
    Tx.Guarded (fun _ w ↦ w.suspects = false) (afterExpiry env args) := by
  have hwrite : ∀ w : Write, w.suspects = false →
      Tx.Guarded (fun _ w ↦ w.suspects = false) (write w) := fun w hw ↦ .write fun _ ↦ hw
  have hwhen : ∀ (c : Bool) (m : PoolTx Unit), Tx.Guarded (fun _ w ↦ w.suspects = false) m →
      Tx.Guarded (fun _ w ↦ w.suspects = false) (when c m) := fun c m hm ↦ .ite hm .ret
  have hrecycle : Tx.Guarded (fun _ w ↦ w.suspects = false)
      (recycleUnhealthySessions env.cfg env.now) :=
    (hwrite _ rfl).bind fun _ ↦ (hwrite _ rfl).bind fun _ ↦ (hwrite _ rfl).bind fun _ ↦
      (hwrite _ rfl).bind fun _ ↦ Tx.Guarded.read.bind fun stale ↦
      .forEach fun s _ ↦ hwrite _ rfl
  have hrevive : Tx.Guarded (fun _ w ↦ w.suspects = false) (reviveAllocations env.now) :=
    Tx.Guarded.read.bind fun rows ↦ (Tx.Guarded.forEach fun a _ ↦ hwrite _ rfl).bind fun _ ↦
      hwrite _ rfl
  have hplace : Tx.Guarded (fun _ w ↦ w.suspects = false)
      (placeQueuedLeases env.cfg env.now env.clock none false) := by
    refine (placeQueuedLeases_desks env.cfg env.now env.clock none false).mono fun _ w hw ↦ ?_
    cases w <;> first | rfl | cases hw
  have hscale : Tx.Guarded (fun _ w ↦ w.suspects = false) (scale env.cfg env.now args.plan) :=
    (Tx.Guarded.forEach fun drain _ ↦ Tx.Guarded.read.bind fun candidates ↦
      .forEach fun s _ ↦ hwrite _ rfl).bind fun _ ↦ Tx.Guarded.read.bind fun candidates ↦
      (Tx.Guarded.forEach fun s _ ↦ hwrite _ rfl).bind fun _ ↦ .forEach fun p _ ↦ hwrite _ rfl
  exact hrecycle.bind fun _ ↦ (hwhen _ _ hrevive).bind fun _ ↦ hwhen _ _ (hplace.bind fun _ ↦ hscale)

/-- A reconciliation that commits quarantines the session of every active lease that it expires,
if the session is ready or busy, or unhealthy because its own heartbeat expired, or quarantined
already; and the session does not come back into service. -/
theorem expired_owner_quarantined (svc : Service) (db : Db) (env : Env) (args : ReconcileArgs)
    (l : Lease) (s : Session) (h : Reachable svc AnyWrite db)
    (hok : (svc.reconcile env args db).1.isOk = true)
    (hl : l ∈ ((svc.beforeExpiry env args).commit db).leases)
    (hlapsed : l.lapsed env.cfg env.now = true) (hactive : l.state = .active)
    (hsid : l.sessionId = some s.id) (hs : s ∈ ((svc.beforeExpiry env args).commit db).sessions)
    (hreach : s.withinReach = true) :
    let db' := (svc.reconcile env args).commit db
    (∃ s' ∈ db'.sessions, s'.id = s.id ∧ s'.quarantineReason ≠ "") ∧
      ∀ db'', Run svc (fun db w ↦ w.sparesQuarantine s.id db = true) db' db'' →
        ∀ s'' ∈ db''.sessions, s''.id = s.id →
          s''.quarantineReason ≠ "" ∧ s''.state.assignable = false := by
  intro db'
  have hI : Invariant AnyWrite fun db ↦ Sound db ∧ Healthy db := healthy_invariant
  have hstep : ∀ (db : Db) (w : Write), Sound db ∧ Healthy db → Guard db w →
      Sound (w.exec db) ∧ Healthy (w.exec db) :=
    fun _ _ hdb hguard ↦ hI.stable.write hdb hguard trivial hdb
  have hspared := ((quarantined_rules s.id).some_session fun _ hdb ↦ hdb).stable fun _ hdb ↦ hdb
  have hguard := reconcile_guarded svc env args db
  rw [reconcile_eq] at hok hguard
  obtain ⟨u, hu, hok', hcommit⟩ := Tx.commit_bind_of_ok hok
  obtain ⟨v, hv, hok'', hcommit'⟩ := Tx.commit_bind_of_ok hok'
  have hbefore := Tx.wp_invariant (Tx.wp_bind.mp hguard) hstep (h.holds hI)
  obtain ⟨hguard', hd⟩ := Tx.wp_commit hbefore hu
  have hexpiry := Tx.wp_and (Tx.wp_invariant (Tx.wp_bind.mp hguard') hstep hd)
    (expireLeases_quarantines hl hlapsed hactive hsid ⟨s, hs, rfl, hreach⟩)
  obtain ⟨⟨hguard'', he⟩, x, hx, hid, hreason⟩ := Tx.wp_commit hexpiry hv
  have hidle : x.state.assignable = false := by
    by_contra hne
    exact hreason (he.2 x hx (by simpa using hne))
  have hafter := Tx.wp_invariant
    (I := fun d ↦ Sound d ∧ ∃ x ∈ d.sessions, Session.Quarantined s.id x)
    (Tx.wp_and hguard'' (afterExpiry_quiet env args _))
    (fun d w hd hw ↦ ⟨(sound_invariant (C := AnyWrite)).stable.write hd.1 hw.1 trivial hd.1,
      hspared.write hd.1 hw.1 (spares_of_not_suspects hw.2 _ _) hd.2⟩)
    ⟨he.1, x, hx, hid, hreason, hidle⟩
  have hend : Sound db' ∧ ∃ x ∈ db'.sessions, Session.Quarantined s.id x := by
    have heq : db' = (afterExpiry env args).commit
        ((expireLeases env.cfg env.now).commit ((svc.beforeExpiry env args).commit db)) := by
      rw [← hcommit', ← hcommit, ← reconcile_eq]
    rw [heq]
    cases hlast : (afterExpiry env args _).1 with
    | error e =>
      rw [hlast] at hok''
      cases hok''
    | ok a => exact (Tx.wp_commit hafter hlast).2
  obtain ⟨hsound, hquarantined⟩ := hend
  refine ⟨?_, fun db'' hrun s'' hs'' hid'' ↦ ?_⟩
  · obtain ⟨y, hy, hq⟩ := hquarantined
    exact ⟨y, hy, hq.id, hq.reason⟩
  · obtain ⟨y, hy, hq⟩ := hrun.stable sound_invariant hspared hsound hquarantined
    have hys : y = s'' := Table.eq_of_key_eq hy hs'' (hq.id.trans hid''.symm)
    exact hys ▸ ⟨hq.reason, hq.idle⟩

def silentClient (suspect : Bool) : Db :=
  script sampleService (openDesktop .empty ++
    [.call {} 100010 (.requestLease (sampleRequest 1 0))] ++ attach 1 100011 ++
    if suspect then [.call {} 100600 (.reportSessionFault 1 "host-token"
      { kind := "native_probe_suspect" })] else []) {}

theorem silentClient_reachable (suspect : Bool) :
    Reachable sampleService AnyWrite (silentClient suspect) := by
  cases suspect
  · exact reachable_script (by decide)
  · exact reachable_script (by decide)

def expiryEnv (suspect : Bool) : Env :=
  { cfg := {}, now := 101900, clock := 101900, seen := silentClient suspect }

def expiryPass : ReconcileArgs := { execute := false }

def expiring (suspect : Bool) : Db :=
  (sampleService.beforeExpiry (expiryEnv suspect) expiryPass).commit (silentClient suspect)

def silentLease (suspect : Bool) : Lease :=
  ((expiring suspect).leases.find? 1).getD { id := 0, requestKey := "" }

theorem expired_owner_quarantined_silent :
    ∃ s' ∈ ((sampleService.reconcile (expiryEnv false) expiryPass).commit
      (silentClient false)).sessions, s'.id = (expiring false).desktop.id ∧
        s'.quarantineReason ≠ "" := by
  -- the facts share the run that they are read off
  have hquarantined (hfacts : _ ∧ _ ∧ _ ∧ _ ∧ _ ∧ _ ∧ _) := (expired_owner_quarantined sampleService
    (silentClient false) (expiryEnv false) expiryPass (silentLease false) (expiring false).desktop
    (silentClient_reachable false) hfacts.1 (find?_getD_mem hfacts.2.1) hfacts.2.2.1
    hfacts.2.2.2.1 hfacts.2.2.2.2.1 (Db.desktop_mem hfacts.2.2.2.2.2.1) hfacts.2.2.2.2.2.2).1
  exact hquarantined (by decide +kernel)

/-- After a suspicion the Desktop of the dead client is not quarantined. -/
theorem suspicion_hides_dead_owner :
    ¬ ∀ (svc : Service) (db : Db), Reachable svc AnyWrite db → ∀ (env : Env)
      (args : ReconcileArgs), (svc.reconcile env args db).1.isOk = true →
      ∀ l ∈ ((svc.beforeExpiry env args).commit db).leases, l.lapsed env.cfg env.now = true →
      l.state = .active → ∀ s ∈ ((svc.beforeExpiry env args).commit db).sessions,
      l.sessionId = some s.id → (s.state.assignable = true ∨ s.state = .unhealthy) →
      ∃ s' ∈ ((svc.reconcile env args).commit db).sessions, s'.id = s.id ∧
        (s'.quarantineReason ≠ "" ∨ s'.state.terminal = true) := by
  intro h
  have hkeeps (hfacts : _ ∧ _ ∧ _ ∧ _ ∧ _ ∧ _ ∧ _) := h sampleService (silentClient true)
    (silentClient_reachable true) (expiryEnv true) expiryPass hfacts.1 (silentLease true)
    (find?_getD_mem hfacts.2.1) hfacts.2.2.1 hfacts.2.2.2.1 (expiring true).desktop
    (Db.desktop_mem hfacts.2.2.2.2.1) hfacts.2.2.2.2.2.1 hfacts.2.2.2.2.2.2
  obtain ⟨s', hs', hid, hkept⟩ := hkeeps (by decide +kernel)
  have hopen : ((sampleService.reconcile (expiryEnv true) expiryPass).commit
      (silentClient true)).sessions.rows.all fun x ↦
        x.quarantineReason == "" && !x.state.terminal := by decide +kernel
  have hrow := List.all_eq_true.mp hopen s' hs'
  simp only [Bool.and_eq_true, beq_iff_eq, Bool.not_eq_true'] at hrow
  rcases hkept with hreason | hterm
  · exact hreason hrow.1
  · simp [hrow.2] at hterm

end SlurmScheduler.Pool
