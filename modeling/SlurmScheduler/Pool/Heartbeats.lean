import SlurmScheduler.Pool.Expiry
import SlurmScheduler.Pool.LeaseColumns
import SlurmScheduler.Pool.Refusals

namespace SlurmScheduler.Pool

open Relational PoolTx

theorem heartbeatPersistInterval_pos (ttl identity : ℕ) :
    1 ≤ heartbeatPersistInterval ttl identity := by
  unfold heartbeatPersistInterval
  dsimp only
  have hceiling : 1 ≤ max 1 (min 30 (max 1 (ttl / 3))) := le_max_left _ _
  generalize max 1 (min 30 (max 1 (ttl / 3))) = ceiling at hceiling ⊢
  have hspread : identity % (min 6 (ceiling - 1) + 1) < min 6 (ceiling - 1) + 1 :=
    Nat.mod_lt _ (Nat.succ_pos _)
  split
  · omega
  · omega

/-- The interval is at most a third of the time in which a lease expires. -/
theorem heartbeatPersistInterval_le {ttl : ℕ} (h : 3 ≤ ttl) (identity : ℕ) :
    3 * heartbeatPersistInterval ttl identity ≤ ttl := by
  unfold heartbeatPersistInterval
  dsimp only
  omega

/-- The code compares the exact time of the call, and the model its whole seconds. -/
theorem heartbeatIsFresh_floor {c : ℚ} (hc : 0 ≤ c) (stored : Time) (interval : ℕ) :
    heartbeatIsFresh (some stored) ⌊c⌋₊ interval = true ↔
      0 ≤ c - stored ∧ c - stored < (max 1 interval : ℕ) := by
  have hearly : stored ≤ ⌊c⌋₊ ↔ 0 ≤ c - stored := by
    rw [Nat.le_floor_iff hc, sub_nonneg]
  have hlate : ⌊c⌋₊ < stored + max 1 interval ↔ c - stored < (max 1 interval : ℕ) := by
    rw [Nat.floor_lt hc, sub_lt_iff_lt_add', Nat.cast_add]
  rw [← hearly, ← hlate]
  simp only [heartbeatIsFresh, Option.any_some, Bool.and_eq_true, decide_eq_true_eq]
  exact and_congr_right fun hstored ↦ Nat.sub_lt_iff_lt_add' hstored

/-- A renewal from `since` or later that lasts at least `ttl`. -/
def lasting (ttl : ℕ) (since expires now : Time) : Prop := since ≤ now ∧ now + ttl ≤ expires

/-- A step of a service whose leases expire after `ttl`, with a clock that has reached `since`. -/
inductive ClockedStep (svc : Service) (ttl : ℕ) (since : Time) (db : Db) : Db → Prop
  | transaction (call : Call) (env : Env) (m : PoolTx Unit) (hm : m ∈ call.transactions svc env)
      (hcfg : env.cfg.leaseTtlSeconds = ttl) (hsince : since ≤ env.now)
      (hclock : env.now ≤ env.clock) : ClockedStep svc ttl since db (m.commit db)
  | scheduler (tasks : Table Task) (allocations : Table Allocation)
      (settings : List (String × String)) (cursor : ℕ) : ClockedStep svc ttl since db
      { db with tasks, allocations, settings, placementCursor := cursor }

/-- What holds of the expiry of a lease after every renewal and in the beginning always holds. -/
theorem OnlyWrites.keeps_leases {α : Type} {P : Time → Time → Prop} {Q : ℕ → Time → Time → Prop}
    {m : PoolTx α} {db : Db} (hm : OnlyWrites (Write.renews P) m)
    (hQ : ∀ k expires now, P expires now → Q k expires now)
    (h : ∀ l ∈ db.leases, Q l.id l.expiresAt l.lastHeartbeatAt) :
    ∀ l ∈ (m.commit db).leases, Q l.id l.expiresAt l.lastHeartbeatAt := by
  obtain ⟨ws, hws, hcommit⟩ := hm.guarded.commit db
  rw [hcommit]
  refine hws.preserves (I := fun db ↦ ∀ l ∈ db.leases, Q l.id l.expiresAt l.lastHeartbeatAt)
    (fun db w hdb hw l' hl' ↦ ?_) h
  rcases lasts_exec hw hl' with ⟨l, hl, hid, ⟨hexpires, hbeat⟩ | hP⟩ | hP
  · rw [← hid, hexpires, hbeat]
    exact hdb l hl
  · exact hQ _ _ _ hP
  · exact hQ _ _ _ hP

variable {svc : Service} {ttl : ℕ} {since : Time} {db db' : Db}

theorem ClockedStep.keeps {Q : ℕ → Time → Time → Prop} (h : ClockedStep svc ttl since db db')
    (hQ : ∀ k expires now, lasting ttl since expires now → Q k expires now)
    (hdb : ∀ l ∈ db.leases, Q l.id l.expiresAt l.lastHeartbeatAt) :
    ∀ l ∈ db'.leases, Q l.id l.expiresAt l.lastHeartbeatAt := by
  cases h with
  | scheduler tasks allocations settings cursor => exact hdb
  | transaction call env m hm hcfg hsince hclock =>
      refine (transactions_renew hm).keeps_leases (fun k expires now hrenewal ↦ hQ _ _ _ ?_) hdb
      obtain ⟨rfl, hexpires⟩ := hrenewal
      refine ⟨hsince, ?_⟩
      rcases hexpires with rfl | rfl
      · rw [hcfg]
      · rw [hcfg]
        exact Nat.add_le_add_right hclock ttl

/-- A heartbeat that the owner of an attaching or active lease sends at `c`. -/
structure Heartbeat (svc : Service) (ttl leaseId : ℕ) (token phase : String) (c : ℚ) (env : Env)
    (db : Db) : Prop where
  now : env.now = ⌊c⌋₊
  cfg : env.cfg.leaseTtlSeconds = ttl
  seen : env.seen = db
  phase : heartbeatPhases.contains (svc.lower (svc.strip phase)) = true
  owner : ∃ l ∈ db.leases, l.id = leaseId ∧ l.clientTokenHash = svc.tokenHash token ∧
    (l.state = .attaching ∨ l.state = .active)

/-- Runs in which the owner of a lease has sent heartbeats, the last one at the given time and each
one within half the expiry time of the one before. -/
inductive OnTime (svc : Service) (ttl leaseId : ℕ) (token : String) : Db → ℚ → Prop
  | first {db : Db} (h : Relation.ReflTransGen (ClockedStep svc ttl 0) {} db) {phase : String}
      {c : ℚ} {env : Env} (hbeat : Heartbeat svc ttl leaseId token phase c env db) :
      OnTime svc ttl leaseId token ((svc.heartbeatLease env leaseId token phase).commit db) c
  | next {db : Db} {c : ℚ} (h : OnTime svc ttl leaseId token db c) {phase : String} {c' : ℚ}
      {env : Env} (hlater : c ≤ c') (hsoon : c' ≤ c + ttl / 2)
      (hbeat : Heartbeat svc ttl leaseId token phase c' env db) :
      OnTime svc ttl leaseId token ((svc.heartbeatLease env leaseId token phase).commit db) c'
  | other {db db' : Db} {c : ℚ} (h : OnTime svc ttl leaseId token db c)
      (hstep : ClockedStep svc ttl ⌊c⌋₊ db db') : OnTime svc ttl leaseId token db' c

/-- The lease lasts for `ttl` from its stored heartbeat, which is recent if the lease is this
one. -/
def beating (ttl leaseId : ℕ) (c : ℚ) (k : ℕ) (expires now : Time) : Prop :=
  now + ttl ≤ expires ∧ (k = leaseId → c < now + heartbeatPersistInterval ttl leaseId)

variable {leaseId : ℕ} {token phase : String} {c : ℚ} {env : Env}

theorem beating_of_lasting {k : ℕ} {expires now : Time} (h : lasting ttl ⌊c⌋₊ expires now) :
    beating ttl leaseId c k expires now := by
  refine ⟨h.2, fun _ ↦ ?_⟩
  have hpos := heartbeatPersistInterval_pos ttl leaseId
  calc c < ⌊c⌋₊ + 1 := Nat.lt_floor_add_one c
    _ ≤ now + heartbeatPersistInterval ttl leaseId := by exact_mod_cast Nat.add_le_add h.1 hpos

theorem find?_onLeases_ne {p : Lease → Bool} {f : Lease → Lease}
    {hf : ∀ l, Keyed.key (f l) = Keyed.key l} {l : Lease} (h : db.leases.find? leaseId = some l) :
    (db.onLeases p f hf).leases.find? leaseId ≠ none := by
  unfold Db.onLeases
  rw [Table.find?_update, h]
  exact Option.some_ne_none _

/-- A heartbeat is answered.  Either it is written or the stored one is recent. -/
theorem Heartbeat.returns (h : Heartbeat svc ttl leaseId token phase c env db) :
    ∃ l ∈ db.leases, l.id = leaseId ∧
      Tx.Returns (svc.heartbeatLease env leaseId token phase) (fun _ db' ↦
        (db' = db ∧ heartbeatIsFresh (some l.lastHeartbeatAt) env.now
          (heartbeatPersistInterval ttl leaseId) = true) ∨
        db' = Pool.heartbeatLease leaseId l.state l.clientTokenHash (svc.lower (svc.strip phase))
          (env.now + ttl) (env.now + env.cfg.offerAckSeconds) env.now db) db := by
  obtain ⟨l, hl, hid, htoken, hstate⟩ := h.owner
  have hlive : l.state.live = true ∧ (l.state == .queued) = false := by
    rcases hstate with hstate | hstate
    · rw [hstate]
      decide
    · rw [hstate]
      decide
  have hfind : db.leases.find? leaseId = some l := hid ▸ find?_leaseId hl
  have hauthorized : svc.authorizeLease db leaseId token = .ok l := by
    unfold Service.authorizeLease
    rw [hfind]
    simp [htoken]
  refine ⟨l, hl, hid, ?_⟩
  unfold Service.heartbeatLease getLease
  simp only [h.seen, h.cfg, hauthorized, PoolTx.check, PoolTx.read, PoolTx.write, Tx.returns_bind,
    Tx.returns_require, Tx.returns_read, Tx.returns_write, returns_lift, h.phase, true_and,
    Except.ok.injEq, exists_eq_left', hlive, Tx.returns_ite, hfind, PoolTx.require,
    Tx.returns_pure, Bool.and_eq_true]
  refine ⟨fun hfresh ↦ .inl hfresh.2, fun _ ↦ ⟨fun hqueued ↦ ?_, fun _ ↦ ?_⟩⟩
  · cases hqueued.1
  · split
    · exact Tx.returns_pure.mpr (.inr rfl)
    · rename_i hnone
      exact absurd hnone (find?_onLeases_ne hfind)

theorem Heartbeat.keeps (h : Heartbeat svc ttl leaseId token phase c env db)
    (hdb : ∀ l ∈ db.leases, l.lastHeartbeatAt + ttl ≤ l.expiresAt) :
    ∀ l ∈ ((svc.heartbeatLease env leaseId token phase).commit db).leases,
      beating ttl leaseId c l.id l.expiresAt l.lastHeartbeatAt := by
  obtain ⟨l, hl, hid, hreturns⟩ := h.returns
  obtain ⟨-, ⟨hsame, hfresh⟩ | hwritten⟩ := hreturns.commit
  · rw [hsame]
    refine fun x hx ↦ ⟨hdb x hx, fun hk ↦ ?_⟩
    have hxl : x = l := Table.eq_of_key_eq hx hl (hk.trans hid.symm)
    subst hxl
    change c < x.lastHeartbeatAt + heartbeatPersistInterval ttl leaseId
    rcases lt_or_ge c 0 with hneg | hc
    · exact hneg.trans_le (by positivity)
    · rw [h.now, heartbeatIsFresh_floor hc,
        max_eq_right (heartbeatPersistInterval_pos ttl leaseId)] at hfresh
      linarith [hfresh.2]
  · rw [hwritten]
    intro l' hl'
    obtain ⟨x, hx, rfl⟩ := Db.mem_onLeases.mp hl'
    split
    · exact beating_of_lasting ⟨h.now.ge, le_rfl⟩
    · rename_i hother
      refine ⟨hdb x hx, fun hk ↦ absurd ?_ hother⟩
      rw [Table.eq_of_key_eq hx hl (hk.trans hid.symm)]
      simp [hid]

theorem dated_of_run (h : Relation.ReflTransGen (ClockedStep svc ttl 0) {} db) :
    ∀ l ∈ db.leases, l.lastHeartbeatAt + ttl ≤ l.expiresAt := by
  induction h with
  | refl => exact fun l hl ↦ absurd hl List.not_mem_nil
  | tail _ hstep ih =>
      exact hstep.keeps (Q := fun _ expires now ↦ now + ttl ≤ expires) (fun _ _ _ h ↦ h.2) ih

theorem OnTime.beating (h : OnTime svc ttl leaseId token db c) :
    ∀ l ∈ db.leases, beating ttl leaseId c l.id l.expiresAt l.lastHeartbeatAt := by
  induction h with
  | first h hbeat => exact hbeat.keeps (dated_of_run h)
  | next _ _ _ hbeat ih => exact hbeat.keeps fun l hl ↦ (ih l hl).1
  | other _ hstep ih => exact hstep.keeps (fun _ _ _ ↦ beating_of_lasting) ih

theorem beforeExpiry_renews (P : Time → Time → Prop) (svc : Service) (env : Env)
    (args : ReconcileArgs) : Renews P (svc.beforeExpiry env args) := by
  unfold Service.beforeExpiry refreshZeroOwnerDrainingSessions retireBlockedStarts
    drainPressuredAccounts rotateAgedAllocations endTerminalTasks requeueStaleOffers
  repeat' first
    | exact .read
    | exact .ret
    | exact .write ⟨trivial, trivial⟩
    | exact refreshExactSessionReservations_renews env.now
    | apply OnlyWrites.bind
    | apply OnlyWrites.when
    | apply OnlyWrites.forEach
    | apply OnlyWrites.fold
    | intro _
    | split

/-- While the owner of a lease is on time, no reconciliation finds its lease expired. -/
theorem heartbeats_keep_lease (svc : Service) (ttl leaseId : ℕ) (token : String) (httl : 30 ≤ ttl)
    (db : Db) (c : ℚ) (h : OnTime svc ttl leaseId token db c) (r : ℚ)
    (hsoon : r ≤ c + ttl / 2) (env : Env) (args : ReconcileArgs) (hnow : env.now = ⌊r⌋₊) :
    ∀ l ∈ ((svc.beforeExpiry env args).commit db).leases, l.id = leaseId →
      ¬ l.expiresAt < env.now ∧
        (l.state = .attaching ∨ l.state = .active → l.lapsed env.cfg env.now = false) := by
  intro l hl hid
  have hbeat := ((beforeExpiry_renews (fun _ _ ↦ False) svc env args).mono fun _ hw ↦ hw.2)
    |>.keeps_leases (Q := beating ttl leaseId c) (fun _ _ _ h ↦ h.elim) h.beating l hl
  obtain ⟨hexpires, hrecent⟩ := hbeat
  have hinterval : 3 * (heartbeatPersistInterval ttl leaseId : ℚ) ≤ ttl := by
    exact_mod_cast heartbeatPersistInterval_le (by omega) leaseId
  have hlasts : env.now ≤ l.expiresAt := by
    rw [hnow]
    refine Nat.floor_le_of_le ?_
    calc r ≤ c + ttl / 2 := hsoon
      _ ≤ l.lastHeartbeatAt + ttl := by linarith [hrecent hid]
      _ ≤ l.expiresAt := by exact_mod_cast hexpires
  refine ⟨not_lt.mpr hlasts, fun hstate ↦ ?_⟩
  unfold Lease.lapsed
  rcases hstate with hstate | hstate
  · simp [hstate, hlasts]
  · simp [hstate, hlasts]

def Event.expiresAfter (ttl : ℕ) : Event → Bool
  | call cfg .. => cfg.leaseTtlSeconds == ttl
  | scheduler .. => true

theorem clocked_performAll (call : Call) {ms : List (PoolTx Unit)} {start : Db}
    (h : Relation.ReflTransGen (ClockedStep svc ttl 0) start db)
    (hms : ∀ m ∈ ms, m ∈ call.transactions svc env) (hcfg : env.cfg.leaseTtlSeconds = ttl)
    (hclock : env.now ≤ env.clock) :
    Relation.ReflTransGen (ClockedStep svc ttl 0) start (Call.performAll ms db) := by
  induction ms generalizing db with
  | nil => exact h
  | cons m ms ih =>
      unfold Call.performAll
      split
      · have hm := hms m List.mem_cons_self
        exact ih (h.tail (.transaction call env m hm hcfg (Nat.zero_le _) hclock))
          fun m' hm' ↦ hms m' (List.mem_cons_of_mem m hm')
      · exact h

theorem clocked_script {events : List Event} {start : Db}
    (h : Relation.ReflTransGen (ClockedStep svc ttl 0) start db)
    (hevents : events.all (·.expiresAfter ttl) = true) :
    Relation.ReflTransGen (ClockedStep svc ttl 0) start (script svc events db) := by
  induction events generalizing db with
  | nil => exact h
  | cons e events ih =>
      rw [List.all_cons, Bool.and_eq_true] at hevents
      refine ih ?_ hevents.2
      cases e with
      | scheduler tasks allocations =>
          exact h.tail (.scheduler tasks allocations db.settings db.placementCursor)
      | call cfg now c =>
          have hcfg : cfg.leaseTtlSeconds = ttl := by simpa [Event.expiresAfter] using hevents.1
          exact clocked_performAll c h (fun m hm ↦ hm) hcfg le_rfl

def reportEnv (now : Time) (db : Db) : Env := { cfg := {}, now, clock := now, seen := db }

def reported (now : Time) (db : Db) : Db :=
  (sampleService.heartbeatLease (reportEnv now db) 1 (clientToken 1) "solving").commit db

theorem heartbeat_sample (db : Db) (now : Time)
    (h : (db.leases.find? 1).any fun l ↦ l.clientTokenHash == sampleService.tokenHash (clientToken 1)
      && l.state == .active) :
    Heartbeat sampleService 1800 1 (clientToken 1) "solving" (now + 1 / 2) (reportEnv now db) db where
  now := by
    have hhalf : ⌊(now : ℚ) + 1 / 2⌋₊ = now :=
      (Nat.floor_eq_iff (by positivity)).mpr ⟨by linarith, by linarith⟩
    exact hhalf.symm
  cfg := rfl
  seen := rfl
  phase := by decide
  owner := by
    obtain ⟨l, hl, hp⟩ := (Option.any_eq_true _ _).mp h
    simp only [Bool.and_eq_true, beq_iff_eq] at hp
    exact ⟨l, (find?_lease hl).1, (find?_lease hl).2, hp.1, .inr hp.2⟩

theorem heartbeats_keep_lease_solving :
    let db := reported 100900 (reported 100012 (silentClient false))
    ∀ l ∈ ((sampleService.beforeExpiry (reportEnv 101800 db) expiryPass).commit db).leases,
      l.id = 1 → ¬ l.expiresAt < 101800 ∧ (l.state = .attaching ∨ l.state = .active →
        l.lapsed {} 101800 = false) := by
  intro db
  have hrun : Relation.ReflTransGen (ClockedStep sampleService 1800 0) {} (silentClient false) :=
    clocked_script .refl (by decide)
  have hstart := heartbeat_sample (silentClient false) 100012 (by decide +kernel)
  have hnext := heartbeat_sample (reported 100012 (silentClient false)) 100900 (by decide +kernel)
  exact heartbeats_keep_lease sampleService 1800 1 (clientToken 1) (by decide) db (100900 + 1 / 2)
    (.next (.first hrun hstart) (by norm_num) (by norm_num) hnext) 101800 (by norm_num)
    (reportEnv 101800 db) expiryPass (Nat.floor_natCast 101800).symm

end SlurmScheduler.Pool
