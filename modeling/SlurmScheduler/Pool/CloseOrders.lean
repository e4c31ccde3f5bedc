import SlurmScheduler.Pool.Commands
import SlurmScheduler.Relational.Acceptance

namespace SlurmScheduler.Pool

open Relational

def LeaseState.sibling (s : LeaseState) : Bool :=
  s == offered || s == leased || s == attaching || s == active

theorem LeaseState.movesTo_sibling : ∀ {a b : LeaseState}, a.movesTo b = true →
    b.sibling = true → a.sibling = true := by decide

theorem LeaseState.holdsSlot_of_sibling : ∀ {a : LeaseState}, a.sibling = true →
    a.holdsSlot = true := by decide

theorem LeaseState.releasing_of_holdsSlot : ∀ {a : LeaseState}, a.holdsSlot = true →
    a.sibling = false → a = releasing := by decide

/-- No lease on the session is offered, leased, attaching or active. -/
def Db.Deserted (db : Db) (sid : ℕ) : Prop :=
  ∀ l ∈ db.leases, l.sessionId = some sid → l.state.sibling = false

instance (db : Db) (sid : ℕ) : Decidable (db.Deserted sid) :=
  inferInstanceAs (Decidable (∀ l ∈ db.leases.rows, _))

/-- The write is no recovery of the session by a heartbeat of its host. -/
def SparesRetirement (sid : ℕ) (_ : Db) : Write → Prop
  | .recoverSession x _ => x ≠ sid
  | _ => True

instance (sid : ℕ) (db : Db) (w : Write) : Decidable (SparesRetirement sid db w) := by
  unfold SparesRetirement
  split <;> infer_instance

structure Session.OutOfService (sid : ℕ) (hash : String) (s : Session) : Prop where
  id : s.id = sid
  started : s.startedAt.isSome = true
  idle : s.state.assignable = false
  token : s.hostTokenHash = hash

variable {sid : ℕ} {hash : String}

theorem Session.OutOfService.move {keeps : Aspect → Prop} {s s' : Session}
    (hq : s.OutOfService sid hash) (hm : SessionMove keeps s s') (hk : keeps .retirement) :
    s'.OutOfService sid hash where
  id := hm.id.trans hq.id
  started := hm.started hq.started
  idle := by
    by_contra hne
    have hassign := hm.retired hk hq.started (by simpa using hne)
    simp [hq.idle] at hassign
  token := (hm.tokenKept hq.started).trans hq.token

theorem outOfService_rules :
    SessionRules (SparesRetirement sid) Sound (Session.OutOfService sid hash) where
  plain {db w s s'} _ hguard hC hs hs' hm hq := by
    by_cases hkeeps : w.keeps .retirement = true
    · exact hq.move hm hkeeps
    · cases w <;> try exact (hkeeps rfl).elim
      case recoverSession x now =>
        have hother : s.id ≠ x := fun h ↦ hC (h.symm.trans hq.id)
        rw [Db.onSessions_row hs hs' hm.id, if_neg (by simp [hother])]
        exact hq
  placed _ _ hm hq := hq.move hm (by rintro ⟨⟩)
  granted _ _ _ _ hq := ⟨hq.id, hq.started, hq.idle, hq.token⟩

def Db.Retired (db : Db) (sid : ℕ) (hash : String) : Prop :=
  ∃ s ∈ db.sessions, s.OutOfService sid hash

theorem deserted_rules :
    LeaseRules (SparesRetirement sid) (fun db ↦ Sound db ∧ db.Retired sid hash)
      fun l ↦ l.sessionId = some sid → l.state.sibling = false where
  plain {db w l l'} _ _ _ _ _ hm hq hsid := by
    by_contra hne
    have hsibling : l'.state.sibling = true := by simpa using hne
    have hplace := hm.place (LeaseState.holdsSlot_of_sibling hsibling)
    have hbefore := hq (hplace.1.symm.trans hsid)
    simp [LeaseState.movesTo_sibling hm.state hsibling] at hbefore
  seated := by
    rintro db l s slot offerExpires now ⟨-, x, hx, hout⟩ - - - hs hplace - hsid
    have hid : x.id = s.id := hout.id.trans (Option.some.inj hsid).symm
    have hassign := hplace.assignable
    rw [← Table.eq_of_key_eq hx hs hid, hout.idle] at hassign
    cases hassign
  granted _ _ _ _ _ hm hq hsid := by
    rw [hm.state]
    exact hq (hm.session.symm.trans hsid)

/-- A session out of service stays out of service, and a deserted one stays deserted. -/
theorem retired_deserted_stable : Stable (SparesRetirement sid) Sound fun db ↦
    db.Retired sid hash ∧ db.Deserted sid :=
  Stable.with ((outOfService_rules.some_session fun _ hdb ↦ hdb).stable fun _ hdb ↦ hdb)
    ((deserted_rules.all_leases fun _ _ _ _ _ _ ↦ rfl).stable fun _ hdb ↦ hdb.1)

variable {svc : Service}

theorem authorizeSession_eq_ok {db : Db} {token : String} {s : Session} :
    svc.authorizeSession db sid token = .ok s ↔ db.sessions.find? sid = some s ∧
      s.hostTokenHash ≠ "" ∧ s.hostTokenHash = svc.tokenHash token := by
  unfold Service.authorizeSession
  cases db.sessions.find? sid with
  | none => simp
  | some x =>
      simp only [Bool.and_eq_true, bne_iff_ne, ne_eq, beq_iff_eq, Option.some.injEq]
      split
      · rename_i htoken
        constructor
        · intro h
          cases h
          exact ⟨rfl, htoken⟩
        · rintro ⟨rfl, -⟩
          rfl
      · rename_i htoken
        constructor
        · intro h
          cases h
        · rintro ⟨rfl, h⟩
          exact absurd h htoken

/-- An answer that drains a Desktop without live siblings. -/
theorem retired_of_commands {env : Env} {db : Db} {token : String} {c : SessionCommands}
    (hsound : Sound env.seen) (hc : svc.sessionCommands env db sid token = .ok c)
    (hdrain : c.drain = true) (hzero : c.siblingLiveCount = 0) :
    env.seen.Retired sid (svc.tokenHash token) ∧ svc.tokenHash token ≠ "" ∧ db.Deserted sid := by
  unfold Service.sessionCommands at hc
  cases hauth : svc.authorizeSession env.seen sid token with
  | error e =>
      rw [hauth] at hc
      cases hc
  | ok s =>
      obtain ⟨hfind, hne, htoken⟩ := authorizeSession_eq_ok.mp hauth
      obtain ⟨hs, hid⟩ := find?_session hfind
      rw [hauth] at hc
      cases hc
      refine ⟨⟨s, hs, hid, hsound.registered.token s hs hne, ?_, htoken⟩, htoken ▸ hne, ?_⟩
      · simp only [Bool.or_eq_true, beq_iff_eq] at hdrain
        rcases hdrain with h | h <;> rw [h] <;> rfl
      · intro l hl hsid
        have hrow := Table.count_eq_zero.mp hzero l hl
        simpa [hsid, LeaseState.sibling] using hrow

/-- The close of a session is accepted as a success if no lease holds a slot. -/
theorem closeSession_isOk {env : Env} {db : Db} {token : String} {closure : Closure}
    (hseen : env.seen.Retired sid (svc.tokenHash token)) (hne : svc.tokenHash token ≠ "")
    (hdb : db.Retired sid (svc.tokenHash token)) (hsuccess : closure.success = true) :
    (svc.closeSession env sid token closure db).1.isOk = true ↔ db.used sid = 0 := by
  obtain ⟨s, hs, hout⟩ := hseen
  obtain ⟨x, hx, hout'⟩ := hdb
  have hauth : svc.authorizeSession env.seen sid token = .ok s :=
    authorizeSession_eq_ok.mpr ⟨Table.find?_eq_some.mpr ⟨hs, hout.id⟩, hout.token ▸ hne, hout.token⟩
  have hfind : db.sessions.find? sid = some x := Table.find?_eq_some.mpr ⟨hx, hout'.id⟩
  rw [Tx.isOk_iff, Service.closeSession]
  simp only [getSession, PoolTx.lift, PoolTx.read, PoolTx.require, PoolTx.check, PoolTx.write, hauth,
    hfind, hsuccess, Tx.returns_bind, Tx.returns_pure, Tx.returns_read, Tx.returns_require,
    Tx.returns_write]
  simp

/-- A Desktop has been told to drain and that it has no live sibling.  As long as no delayed
heartbeat of its host takes it back into service, no lease on it is offered, leased, attaching or
active, and the host may close it at any time: a successful close is accepted if and only if
every release on it is over. -/
theorem close_order_not_overtaken (svc : Service) (env : Env) (db : Db) (sid : ℕ) (token : String)
    (c : SessionCommands) (hreach : Reachable svc AnyWrite env.seen)
    (hanswer : Run svc (SparesRetirement sid) env.seen db)
    (hc : svc.sessionCommands env db sid token = .ok c) (hdrain : c.drain = true)
    (hzero : c.siblingLiveCount = 0) (later : Db) (hlater : Run svc (SparesRetirement sid) db later) :
    later.Deserted sid ∧ ∀ (closing : Db) (env' : Env) (closure : Closure), env'.seen = later →
      Run svc (SparesRetirement sid) later closing → closure.success = true →
        ((svc.closeSession env' sid token closure closing).1.isOk = true ↔
          ∀ l ∈ closing.leases, l.sessionId = some sid → l.state ≠ .releasing) := by
  have hsound := Run.sound hreach sound_empty
  obtain ⟨hretired, hne, hdeserted⟩ := retired_of_commands hsound hc hdrain hzero
  have hstays : ∀ {d d' : Db}, Sound d → Run svc (SparesRetirement sid) d d' →
      d.Retired sid (svc.tokenHash token) → d'.Retired sid (svc.tokenHash token) := by
    intro d d' hd hrun hout
    exact Run.stable sound_invariant
      ((outOfService_rules.some_session fun _ hdb ↦ hdb).stable fun _ hdb ↦ hdb) hrun hd hout
  have hkept : ∀ {d d' : Db}, Sound d → Run svc (SparesRetirement sid) d d' →
      d.Retired sid (svc.tokenHash token) ∧ d.Deserted sid →
      d'.Retired sid (svc.tokenHash token) ∧ d'.Deserted sid :=
    fun hd hrun hout ↦ Run.stable sound_invariant retired_deserted_stable hrun hd hout
  have hdb := Run.sound hanswer hsound
  have hnow := hkept hdb hlater ⟨hstays hsound hanswer hretired, hdeserted⟩
  refine ⟨hnow.2, fun closing env' closure henv hrun hsuccess ↦ ?_⟩
  obtain ⟨hout, hquiet⟩ := hkept (Run.sound hlater hdb) hrun hnow
  rw [closeSession_isOk (henv ▸ hnow.1) hne hout hsuccess, Db.used, Table.count_eq_zero]
  constructor
  · intro hnone l hl hsid hrel
    simpa [Lease.holds, hsid, hrel, LeaseState.holdsSlot] using hnone l hl
  · intro hnone l hl
    by_contra hne'
    simp only [Bool.not_eq_false, Lease.holds, Bool.and_eq_true, beq_iff_eq] at hne'
    exact hnone l hl hne'.1 (LeaseState.releasing_of_holdsSlot hne'.2 (hquiet l hl hne'.1))

def drainedIdle : Db := script sampleService
  (openDesktop .empty ++ [.call {} 100010 (.requestAllSessionsDrain "maintenance")]) {}

def requestAfterDrain : List Event := [.call {} 100030 (.requestLease (sampleRequest 1 0))]

theorem close_order_not_overtaken_request :
    let closing := script sampleService requestAfterDrain drainedIdle
    closing.Deserted 1 ∧ (sampleService.closeSession (commandEnv closing) 1 "host-token"
      { success := true } closing).1.isOk = true := by
  have hreach : Reachable sampleService AnyWrite drainedIdle := reachable_script (by decide +kernel)
  obtain ⟨c, hc, hsays⟩ := exists_commands
    (r := sampleService.sessionCommands (commandEnv drainedIdle) drainedIdle 1 "host-token")
    (q := fun c ↦ c.drain && c.siblingLiveCount == 0) (by decide +kernel)
  rw [Bool.and_eq_true, beq_iff_eq] at hsays
  have hrun : Run sampleService (SparesRetirement 1) drainedIdle
      (script sampleService requestAfterDrain drainedIdle) :=
    run_script_from (Run.sound hreach sound_empty) (by decide +kernel)
  obtain ⟨hdeserted, hclose⟩ := close_order_not_overtaken sampleService (commandEnv drainedIdle)
    drainedIdle 1 "host-token" c hreach .refl hc hsays.1 hsays.2 _ hrun
  have hidle : ∀ l ∈ (script sampleService requestAfterDrain drainedIdle).leases,
      l.sessionId = some 1 → l.state ≠ .releasing := by decide +kernel
  exact ⟨hdeserted, (hclose _ (commandEnv _) { success := true } rfl .refl rfl).mpr hidle⟩

def gracePassed : Db := script sampleService
  (openDesktop .empty ++ [.call {} 100010 (.requestLease (sampleRequest 1 0))] ++ attach 1 100011 ++
    [.call {} 100012 (.requestLease (sampleRequest 2 0))] ++ attach 2 100013 ++
    [.call {} 100020 (.reportProjectFault 1 (clientToken 1) { faultKind := "solver_timeout" })]) {}

def graceEnv (db : Db) : Env := { cfg := {}, now := 100920, clock := 100920, seen := db }

/-- A global stop is allowed over the heads of the siblings. -/
theorem global_stop_over_sibling :
    ¬ ∀ (svc : Service) (env : Env) (db : Db) (sid : ℕ) (token : String) (c : SessionCommands),
      Reachable svc AnyWrite env.seen → Run svc AnyWrite env.seen db →
      svc.sessionCommands env db sid token = .ok c →
      (c.drain = true ∧ c.siblingLiveCount = 0) ∨ c.globalStopAllowed = true → db.Deserted sid := by
  intro h
  have hreach : Reachable sampleService AnyWrite gracePassed := reachable_script (by decide +kernel)
  obtain ⟨c, hc, hstop⟩ := exists_commands
    (r := sampleService.sessionCommands (graceEnv gracePassed) gracePassed 1 "host-token")
    (q := fun c ↦ c.globalStopAllowed) (by decide +kernel)
  have hdeserted : ∀ db, db = gracePassed → db.Deserted 1 := by
    intro db hdb
    rw [← hdb] at hreach hc
    exact h sampleService (graceEnv db) db 1 "host-token" c hreach .refl hc (.inr hstop)
  have hactive : ¬ gracePassed.Deserted 1 := by decide +kernel
  exact hactive (hdeserted _ rfl)

end SlurmScheduler.Pool
