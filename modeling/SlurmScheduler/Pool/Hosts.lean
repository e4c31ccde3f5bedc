import SlurmScheduler.Pool.Routine

namespace SlurmScheduler.Pool

open Relational PoolTx

structure HostRecord where
  id : ℕ
  hostId : String
  startedAt : Option Time

def Session.hostRecord (s : Session) : HostRecord := ⟨s.id, s.hostId, s.startedAt⟩

def Db.hosts (db : Db) : List HostRecord := db.sessions.rows.map Session.hostRecord

theorem Db.mem_hosts {db : Db} {r : HostRecord} :
    r ∈ db.hosts ↔ ∃ s ∈ db.sessions, s.hostRecord = r := List.mem_map

def Write.sparesHosts : Write → Prop
  | .claimStart .. => False
  | .registerSession .. => False
  | _ => True

def Write.keepsHosts : Write → Prop
  | .claimStart .. => False
  | .registerSession .. => False
  | .startSession .. => False
  | _ => True

theorem hosts_onSessions {p : Session → Bool} {f : Session → Session} {db : Db}
    (h : ∀ s, (f s).hostRecord = s.hostRecord) :
    (db.onSessions p f fun s ↦ congrArg HostRecord.id (h s)).hosts = db.hosts := by
  refine List.map_map.trans (List.map_congr_left fun s _ ↦ ?_)
  simp only [Function.comp_apply]
  split
  · exact h s
  · rfl

theorem hosts_refreshSession (sid : ℕ) (now : Time) (db : Db) :
    (refreshSession sid now db).hosts = db.hosts := hosts_onSessions (by intro s; rfl)

theorem hosts_refreshSessions (sids : List ℕ) (now : Time) (db : Db) :
    (refreshSessions sids now db).hosts = db.hosts := by
  induction sids generalizing db with
  | nil => rfl
  | cons sid sids ih => exact (ih _).trans (hosts_refreshSession sid now db)

theorem hosts_failCohort (key : String) (now : Time) (reason : String) (settle : Bool) (db : Db) :
    (failCohort key now reason settle db).hosts = db.hosts := by
  cases settle
  · rfl
  · exact hosts_onSessions (by intro s; rfl)

theorem hosts_failTargetCohorts (sid : ℕ) (now : Time) (reason : String) (db : Db) :
    (failTargetCohorts sid now reason db).hosts = db.hosts := by
  unfold failTargetCohorts
  generalize db.targetCohorts sid = keys
  induction keys generalizing db with
  | nil => rfl
  | cons key keys ih => exact (ih _).trans (hosts_failCohort key now reason false db)

theorem hosts_place (l : Lease) (sid slot : ℕ) (offerExpires now : Time) (db : Db) :
    (place l sid slot offerExpires now db).hosts = db.hosts := by
  have hseat : (seatLease l sid slot offerExpires now db).hosts = db.hosts := by
    unfold seatLease
    dsimp only
    split <;> rfl
  unfold place
  refine (hosts_refreshSession sid now _).trans ?_
  split
  · exact hseat
  · exact Eq.trans (hosts_onSessions (by intro s; rfl)) hseat

theorem hosts_revokeOffer (l : Lease) (expires now : Time) (db : Db) :
    (revokeOffer l expires now db).hosts = db.hosts := by
  unfold revokeOffer
  refine (hosts_refreshSessions _ now _).trans ?_
  split <;> rfl

theorem hosts_rejectOffer (l : Lease) (cohort : Option String) (now : Time) (db : Db) :
    (rejectOffer l cohort now db).hosts = db.hosts := by
  unfold rejectOffer
  refine (hosts_refreshSessions _ now _).trans ?_
  cases cohort with
  | none => rfl
  | some key => exact hosts_failCohort key now _ false db

theorem hosts_completeRelease (sid leaseId : ℕ) (success : Bool) (message : String) (now : Time)
    (db : Db) : (completeRelease sid leaseId success message now db).hosts = db.hosts := by
  unfold completeRelease
  refine (hosts_refreshSession sid now _).trans ?_
  cases success
  · exact Eq.trans (hosts_onSessions (by intro s; rfl)) (hosts_onSessions (by intro s; rfl))
  · exact hosts_onSessions (by intro s; rfl)

theorem hosts_closeSession (sid aid : ℕ) (c : Closure) (live : ℕ) (expires now : Time) (db : Db) :
    (closeSession sid aid c live expires now db).hosts = db.hosts := by
  have hoccupants : ∀ db : Db, (closeOccupants sid c live expires now db).hosts = db.hosts := by
    intro db
    unfold closeOccupants
    split
    · rfl
    · split <;> rfl
  have hfinish : (finishSession sid c now (closeOccupants sid c live expires now
      (failTargetCohorts sid now (closeReason sid c) db))).hosts = db.hosts :=
    Eq.trans (hosts_onSessions (by intro s; rfl))
      ((hoccupants _).trans (hosts_failTargetCohorts _ _ _ db))
  unfold closeSession
  dsimp only
  split <;> exact hfinish

theorem hosts_startSession (key : String) (allocationId : ℕ) (accountName nodeName : String)
    (slots : ℕ) (now : Time) (db : Db) :
    (startSession key allocationId accountName nodeName slots now db).hosts =
      db.hosts ++ [⟨db.sessions.nextKey, "", none⟩] := List.map_append

theorem hosts_exec_eq {db : Db} {w : Write} (hw : w.keepsHosts) : (w.exec db).hosts = db.hosts := by
  cases w
  case claimStart => exact hw.elim
  case registerSession => exact hw.elim
  case startSession => exact hw.elim
  case failCohort => exact (hosts_refreshSessions ..).trans (hosts_failCohort ..)
  case reserve terms tasks now =>
    obtain ⟨_, hframe⟩ := reserve_frame terms tasks now db
    exact (congrArg Db.hosts hframe).trans rfl
  case openCanary sid group profile slots expires now =>
    obtain ⟨_, hframe⟩ := openCanary_frame sid group profile slots expires now db
    exact (congrArg Db.hosts hframe).trans rfl
  case admitLease => exact congrArg (·.rows.map Session.hostRecord) (admitLease_sessions ..)
  case place => exact hosts_place ..
  case revokeOffer => exact hosts_revokeOffer ..
  case rejectOffer => exact hosts_rejectOffer ..
  case completeRelease => exact hosts_completeRelease ..
  case closeSession => exact hosts_closeSession ..
  case abortCanary =>
    exact (hosts_refreshSession ..).trans (hosts_onSessions (by intro s; rfl))
  case supersedeLease => exact hosts_refreshSessions ..
  case requeueOffer => exact hosts_refreshSessions ..
  case cancelLease => exact hosts_refreshSessions ..
  case expireOffer => exact hosts_refreshSessions ..
  case beginRelease leaseId sid reason now =>
    cases sid with
    | none => rfl
    | some sid => exact hosts_onSessions (by intro s; rfl)
  -- the sessions are not touched, or updated once
  all_goals first
    | rfl
    | exact hosts_onSessions (by intro s; rfl)

theorem hosts_exec {db : Db} {w : Write} (hw : w.sparesHosts) :
    ∃ new, (w.exec db).hosts = db.hosts ++ new ∧ ∀ r ∈ new, r.hostId = "" ∧ r.startedAt = none := by
  have hsame (h : w.keepsHosts) : ∃ new, (w.exec db).hosts = db.hosts ++ new ∧
      ∀ r ∈ new, r.hostId = "" ∧ r.startedAt = none :=
    ⟨[], by rw [hosts_exec_eq h, List.append_nil], List.forall_mem_nil _⟩
  cases w
  case startSession key allocationId accountName nodeName slots now =>
    exact ⟨_, hosts_startSession .., List.forall_mem_singleton.mpr ⟨rfl, rfl⟩⟩
  case claimStart => exact hw.elim
  case registerSession => exact hw.elim
  all_goals exact hsame trivial

abbrev Spares {α : Type} (m : PoolTx α) : Prop := OnlyWrites Write.sparesHosts m

theorem sparesHosts_of_routine {w : Write} (h : w.routine) : w.sparesHosts := by
  cases w
  case claimStart => exact h
  case registerSession => exact h
  all_goals trivial

theorem reconcile_spares (svc : Service) (env : Env) (args : ReconcileArgs) :
    Spares (svc.reconcile env args) :=
  reconcile_only (P := env.renewal) (fun _ h ↦ sparesHosts_of_routine h.1)
    (fun _ _ _ _ _ _ ↦ trivial) svc env args

theorem transactions_spare {svc : Service} {env : Env} {call : Call} {m : PoolTx Unit}
    (hm : m ∈ call.transactions svc env) : Spares m ∨
      (∃ q, call = .claimStart q ∧ m = (svc.claimStart env q).void) ∨
      ∃ q pass, call = .registerSession q pass ∧ m = svc.registerSession env q := by
  rcases transactions_routine hm with hroutine | hspecial
  · exact .inl (hroutine.mono fun _ h ↦ sparesHosts_of_routine h.1)
  cases hspecial with
  | reconcile call pass => exact .inl (reconcile_spares svc env pass)
  | claimStart q => exact .inr (.inl ⟨q, rfl, rfl⟩)
  | registerSession q pass => exact .inr (.inr ⟨q, pass, rfl, rfl⟩)
  | requestLease args => exact .inl (requestLease_only (fun _ h ↦ sparesHosts_of_routine h.1) (fun _ _ _ _ ↦ trivial) svc
        args).void
  | bindLeaseProjectName leaseId token name =>
      exact .inl (bindLeaseProjectName_only (fun _ _ _ _ ↦ trivial) svc leaseId token name).void

def Db.Hosted (db : Db) (s : Session) : Prop :=
  ∃ x ∈ db.sessions, x.id = s.id ∧ (s.hostId ≠ "" → x.hostId = s.hostId) ∧
    x.startedAt = s.startedAt

theorem Db.Hosted.row {db : Db} {s x : Session} (h : db.Hosted s) (hx : x ∈ db.sessions)
    (hid : x.id = s.id) : (s.hostId ≠ "" → x.hostId = s.hostId) ∧ x.startedAt = s.startedAt := by
  obtain ⟨y, hy, hyid, hhost⟩ := h
  rw [Table.eq_of_key_eq hx hy (hid.trans hyid.symm)]
  exact hhost

/-- A host record survives every write that is not a claim or a registration of its session. -/
theorem Db.Hosted.exec {db : Db} {w : Write} {s : Session} (h : db.Hosted s)
    (hw : w.sparesHosts ∨ (∃ sid hostId actualNode slurmJob hostProcess now,
        w = .claimStart sid hostId actualNode slurmJob hostProcess now) ∨
      ∃ sid state reg now, w = .registerSession sid state reg now ∧ sid ≠ s.id) :
    (w.exec db).Hosted s := by
  obtain ⟨x, hx, hid, hhost, hstarted⟩ := h
  rcases hw with hw | ⟨sid, hostId, node, job, process, now, rfl⟩ | ⟨sid, state, reg, now, rfl, hne⟩
  · obtain ⟨new, hrows, -⟩ := @hosts_exec db w hw
    have hmem : x.hostRecord ∈ (w.exec db).hosts := by
      rw [hrows]
      exact List.mem_append_left _ (Db.mem_hosts.mpr ⟨x, hx, rfl⟩)
    obtain ⟨y, hy, hrec⟩ := Db.mem_hosts.mp hmem
    exact ⟨y, hy, (congrArg HostRecord.id hrec).trans hid,
      fun hne ↦ (congrArg HostRecord.hostId hrec).trans (hhost hne),
      (congrArg HostRecord.startedAt hrec).trans hstarted⟩
  · refine ⟨_, Db.mem_onSessions.mpr ⟨x, hx, rfl⟩, ?_⟩
    split
    · rename_i hp
      simp only [Bool.and_eq_true, Bool.or_eq_true, beq_iff_eq] at hp
      refine ⟨hid, fun hne ↦ ?_, hstarted⟩
      rw [hhost hne] at hp
      exact (hp.2.resolve_left hne).symm
    · exact ⟨hid, hhost, hstarted⟩
  · refine ⟨x, Db.mem_onSessions.mpr ⟨x, hx, ?_⟩, hid, hhost, hstarted⟩
    rw [if_neg]
    simpa [hid] using hne.symm

/-- The call registers the session for the host that owns its claim. -/
def Call.RegistersOwned (svc : Service) (s : Session) (call : Call) : Prop :=
  ∃ q pass, call = .registerSession q pass ∧ q.sessionId = s.id ∧
    svc.strip q.hostId = s.hostId ∧ s.hostId ≠ "" ∧
    svc.bootstrapToken ≠ "" ∧ q.bootstrapToken = svc.bootstrapToken

theorem claimStart_hosted (svc : Service) (env : Env) (q : StartClaim) :
    Tx.Guarded (fun _ w ↦ w.sparesHosts ∨ ∃ sid hostId actualNode slurmJob hostProcess now,
        w = .claimStart sid hostId actualNode slurmJob hostProcess now)
      (svc.claimStart env q).void := by
  intro db
  rw [wp_void]
  simp only [Service.claimStart, Service.authorizeBootstrap, Tx.wp_bind, Tx.wp_require, wp_check,
    wp_read]
  intro _ _
  split
  · simp
  · simp only [Tx.wp_bind, wp_check, wp_read, wp_require, wp_write, and_true]
    exact fun _ _ _ _ _ _ ↦ .inr ⟨_, _, _, _, _, _, rfl⟩

/-- The registration reaches its write as the owner of the claim only. -/
theorem registerSession_owned (svc : Service) (env : Env) (q : RegistrationRequest) (db : Db) :
    Tx.wp (fun _ w ↦ w.sparesHosts ∨ ∃ state reg now,
        w = .registerSession q.sessionId state reg now ∧ ∃ s ∈ db.sessions, s.id = q.sessionId ∧
          svc.strip q.hostId = s.hostId ∧ s.hostId ≠ "" ∧ svc.bootstrapToken ≠ "" ∧
          q.bootstrapToken = svc.bootstrapToken)
      (svc.registerSession env q) (fun _ _ ↦ True) db := by
  simp only [Service.registerSession, Service.authorizeBootstrap, getSession, Tx.wp_bind,
    Tx.wp_require, wp_check, wp_read, wp_lift, wp_require, wp_write, Tx.wp_ite, Tx.wp_pure,
    implies_true, and_true, true_and]
  intro hboot hhost profile _ s hs _ _ _ hclaim _
  obtain ⟨hmem, hid⟩ := find?_session hs
  simp only [Bool.and_eq_true, bne_iff_ne, ne_eq, beq_iff_eq] at hboot hhost hclaim
  have howned : ∃ x ∈ db.sessions, x.id = q.sessionId ∧ svc.strip q.hostId = x.hostId ∧
      x.hostId ≠ "" ∧ svc.bootstrapToken ≠ "" ∧ q.bootstrapToken = svc.bootstrapToken :=
    ⟨s, hmem, hid, hclaim.symm, hclaim ▸ hhost, hboot.1, hboot.2.symm⟩
  exact ⟨.inr ⟨_, _, _, by rw [hid], howned⟩, fun _ _ ↦ .inl trivial⟩

/-- A transaction that registers the session is the registration of its owner. -/
theorem registersOwned_of_started {svc : Service} {env : Env} {call : Call} {m : PoolTx Unit}
    {db : Db} {s s' : Session} (hm : m ∈ call.transactions svc env) (hs : s ∈ db.sessions)
    (hs' : s' ∈ (m.commit db).sessions) (hid : s'.id = s.id)
    (hstarted : s'.startedAt ≠ s.startedAt) : call.RegistersOwned svc s := by
  have hstart : db.Hosted s := ⟨s, hs, rfl, fun _ ↦ rfl, rfl⟩
  have hmoved : ¬ (m.commit db).Hosted s := fun h ↦ hstarted (h.row hs' hid).2
  have hok : (m db).1.isOk = true := by
    by_contra hne
    rw [Tx.commit_of_error (by simpa using hne)] at hmoved
    exact hmoved hstart
  rw [Tx.commit_of_ok hok] at hmoved
  rcases transactions_spare hm with hspare | ⟨q, rfl, rfl⟩ | ⟨q, pass, rfl, rfl⟩
  · have hj := (hspare.guarded db).1
    exact (hmoved (hj.preserves (I := fun d ↦ d.Hosted s)
      (fun _ _ h hw ↦ h.exec (.inl hw)) hstart)).elim
  · have hj := (claimStart_hosted svc env q db).1
    exact (hmoved (hj.preserves (I := fun d ↦ d.Hosted s)
      (fun _ _ h hw ↦ h.exec (hw.imp_right .inl)) hstart)).elim
  · have hj := (registerSession_owned svc env q db).1
    by_contra hnot
    refine hmoved (hj.preserves (I := fun d ↦ d.Hosted s) (fun _ w h hw ↦ h.exec ?_) hstart)
    refine hw.imp_right fun ⟨state, reg, now, hreg, x, hx, hxid, hown⟩ ↦
      .inr ⟨_, state, reg, now, hreg, fun hsid ↦ hnot ?_⟩
    have hxs : x = s := Table.eq_of_key_eq hx hs (hxid.trans hsid)
    exact ⟨q, pass, rfl, hsid, hxs ▸ hown⟩

theorem hostId_stable (s : Session) (hne : s.hostId ≠ "") :
    Stable AnyWrite Sound fun db ↦ ∃ x ∈ db.sessions, x.id = s.id ∧ x.hostId = s.hostId where
  write {db w} _ _ _ := by
    rintro ⟨x, hx, hid, hhost⟩
    by_cases hreg : ∃ sid state reg now, w = .registerSession sid state reg now
    · obtain ⟨sid, state, reg, now, rfl⟩ := hreg
      refine ⟨_, Db.mem_onSessions.mpr ⟨x, hx, rfl⟩, ?_⟩
      split
      · exact ⟨hid, hhost⟩
      · exact ⟨hid, hhost⟩
    · have hrow : db.Hosted x := ⟨x, hx, rfl, fun _ ↦ rfl, rfl⟩
      obtain ⟨y, hy, hyid, hyhost, -⟩ := hrow.exec (w := w) (by
        cases w
        case claimStart => exact .inr (.inl ⟨_, _, _, _, _, _, rfl⟩)
        case registerSession => exact (hreg ⟨_, _, _, _, rfl⟩).elim
        all_goals exact .inl trivial)
      exact ⟨y, hy, hyid.trans hid, (hyhost (hhost ▸ hne)).trans hhost⟩
  scheduler _ _ _ _ h := h

theorem token_rules (sid : ℕ) (hash : String) : SessionRules AnyWrite Sound fun s ↦
    s.id = sid ∧ s.startedAt.isSome = true ∧ s.hostTokenHash = hash where
  plain _ _ _ _ _ hm h := ⟨hm.id.trans h.1, hm.started h.2.1, (hm.tokenKept h.2.1).trans h.2.2⟩
  placed _ _ hm h := ⟨hm.id.trans h.1, hm.started h.2.1, (hm.tokenKept h.2.1).trans h.2.2⟩
  granted _ _ _ _ h := h

theorem authorizeSession_ok {svc : Service} {db : Db} {sid : ℕ} {token : String} {s : Session}
    (h : svc.authorizeSession db sid token = .ok s) :
    (s ∈ db.sessions ∧ s.id = sid) ∧ s.hostTokenHash ≠ "" ∧
      s.hostTokenHash = svc.tokenHash token := by
  unfold Service.authorizeSession at h
  split at h
  · cases h
  · rename_i x hx
    split at h
    · rename_i hauth
      cases h
      simp only [Bool.and_eq_true, bne_iff_ne, ne_eq, beq_iff_eq] at hauth
      exact ⟨find?_session hx, hauth⟩
    · cases h

/-- A session has one host for ever: it keeps its id and its token, and only it registers. -/
theorem exclusive_host_ownership (svc : Service) (db db' : Db) (hdb : Reachable svc AnyWrite db)
    (hrun : Run svc AnyWrite db db') (s s' : Session) (hs : s ∈ db.sessions)
    (hs' : s' ∈ db'.sessions) (hid : s'.id = s.id) :
    (s.hostId ≠ "" → s'.hostId = s.hostId) ∧
    (s.hostTokenHash ≠ "" → s'.hostTokenHash = s.hostTokenHash) ∧
    (∀ token token', (svc.authorizeSession db s.id token).isOk = true →
      (svc.authorizeSession db' s.id token').isOk = true →
        svc.tokenHash token' = svc.tokenHash token) ∧
    ∀ (call : Call) (env : Env) (m : PoolTx Unit), m ∈ call.transactions svc env →
      call.Fresh db → env.Earlier db → ∀ x ∈ (m.commit db).sessions, x.id = s.id →
        s.state = .starting ∨ s.startedAt = none → x.state = .ready ∨ x.state = .draining →
          call.RegistersOwned svc s := by
  have hsound := hdb.holds sound_invariant
  have hhash : s.hostTokenHash ≠ "" → s'.hostTokenHash = s.hostTokenHash := by
    intro hne
    have hstarted := hsound.registered.token s hs hne
    have hstable := ((token_rules s.id s.hostTokenHash).some_session fun _ h ↦ h).stable
      fun _ h ↦ h
    obtain ⟨x, hx, hxid, -, hkept⟩ := hrun.stable sound_invariant hstable hsound
      ⟨s, hs, rfl, hstarted, rfl⟩
    rw [← hkept, Table.eq_of_key_eq hs' hx (hid.trans hxid.symm)]
  refine ⟨fun hne ↦ ?_, hhash, fun token token' hok hok' ↦ ?_, fun call env m hm hfresh hseen x
    hx hxid hstart hready ↦ ?_⟩
  · obtain ⟨x, hx, hxid, hkept⟩ := hrun.stable sound_invariant (hostId_stable s hne) hsound
      ⟨s, hs, rfl, rfl⟩
    rw [Table.eq_of_key_eq hs' hx (hid.trans hxid.symm), hkept]
  · cases h : svc.authorizeSession db s.id token with
    | error e => simp [h, Except.isOk, Except.toBool] at hok
    | ok a =>
        cases h' : svc.authorizeSession db' s.id token' with
        | error e => simp [h', Except.isOk, Except.toBool] at hok'
        | ok b =>
            obtain ⟨⟨ha, haid⟩, hne, hash⟩ := authorizeSession_ok h
            obtain ⟨⟨hb, hbid⟩, -, hash'⟩ := authorizeSession_ok h'
            have has : a = s := Table.eq_of_key_eq ha hs haid
            have hbs : b = s' := Table.eq_of_key_eq hb hs' (hbid.trans hid.symm)
            rw [← hash, ← hash', has, hbs]
            exact hhash (has ▸ hne)
  · have hnone : s.startedAt = none := hstart.elim (hsound.registered.starting s hs) fun h ↦ h
    have hnext : Step svc AnyWrite db (m.commit db) :=
      .transaction call env m hm hfresh hseen fun _ ↦ .of_forall fun _ _ ↦ trivial
    have hreach : Reachable svc AnyWrite (m.commit db) := hdb.tail hnext
    have hsound' := hreach.holds sound_invariant
    refine registersOwned_of_started hm hs hx hxid fun hsame ↦ ?_
    have hunreg := hsound'.registered.unregistered x hx (hsame.trans hnone)
    rcases hready with h | h <;> simp [Session.Unregistered, h, SessionState.terminal] at hunreg

def contendedStart : List Event :=
  [.call {} 100002 (.claimStart
    { allocationId := 1, nodeName := "n1", hostId := "other", bootstrapToken := "bootstrap" }),
   .call {} 100003 (.registerSession
    { sessionId := 1, hostId := "other", endpoint := "n1:50052", processId := "9"
      sessionProfile := "profile", bootstrapToken := "bootstrap", hostToken := "other-token" }
    { execute := false })]

def claimedDesktop : Db := script sampleService ((openDesktop .empty).take 5) {}

def contendedDesktop : Db :=
  script sampleService (contendedStart ++ (openDesktop .empty).drop 5) claimedDesktop

theorem claimedDesktop_reachable : Reachable sampleService AnyWrite claimedDesktop :=
  reachable_script (by decide)

theorem exclusive_host_ownership_contended :
    contendedDesktop.desktop.hostId = "host" ∧ contendedDesktop.desktop.state = .ready :=
  ⟨(exclusive_host_ownership sampleService claimedDesktop contendedDesktop
      claimedDesktop_reachable
      (run_script_from (claimedDesktop_reachable.holds sound_invariant) (by decide))
      claimedDesktop.desktop contendedDesktop.desktop (Db.desktop_mem (by decide))
      (Db.desktop_mem (by decide)) (by decide)).1 (by decide) |>.trans
      (by decide), by decide⟩

end SlurmScheduler.Pool
