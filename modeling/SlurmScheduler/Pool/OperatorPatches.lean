import SlurmScheduler.Pool.OperatorReads

namespace SlurmScheduler.Pool

open Relational PoolTx
open Slurm.Text (strip)

def Write.KeepsSettings (w : Write) : Prop := ∀ db, (w.exec db).settings = db.settings

theorem refreshSessions_settings (sids : List ℕ) (now : Time) (db : Db) :
    (refreshSessions sids now db).settings = db.settings := by
  obtain ⟨sessions, h⟩ := refreshSessions_frame sids now db
  rw [h]

theorem failCohort_keepsSettings (key : String) (now : Time) (reason : String) (settle : Bool)
    (refresh : List ℕ) : (Write.failCohort key now reason settle refresh).KeepsSettings := by
  intro db
  refine (refreshSessions_settings refresh now _).trans ?_
  cases settle
  all_goals rfl

theorem place_keepsSettings (l : Lease) (sid slot : ℕ) (offerExpires now : Time) :
    (Write.place l sid slot offerExpires now).KeepsSettings := by
  intro db
  have hseat : (seatLease l sid slot offerExpires now db).settings = db.settings := by
    unfold seatLease
    dsimp only
    split
    all_goals rfl
  change (place l sid slot offerExpires now db).settings = db.settings
  unfold place
  dsimp only
  split
  · exact hseat
  · exact hseat

theorem beginRelease_keepsSettings (leaseId : ℕ) (sid : Option ℕ) (reason : String) (now : Time) :
    (Write.beginRelease leaseId sid reason now).KeepsSettings := by
  intro db
  cases sid
  all_goals rfl

theorem cancelLease_keepsSettings (leaseId : ℕ) (sid : Option ℕ) (reason : String) (now : Time) :
    (Write.cancelLease leaseId sid reason now).KeepsSettings :=
  fun _ ↦ refreshSessions_settings sid.toList now _

theorem requeueOffer_keepsSettings (l : Lease) (now : Time) : (Write.requeueOffer l now).KeepsSettings :=
  fun _ ↦ refreshSessions_settings l.sessionId.toList now _

theorem expireOffer_keepsSettings (leaseId : ℕ) (sid : Option ℕ) (now : Time) :
    (Write.expireOffer leaseId sid now).KeepsSettings :=
  fun _ ↦ refreshSessions_settings sid.toList now _

theorem refreshExactSessionReservations_keepsSettings (now : Time) :
    OnlyWrites Write.KeepsSettings (refreshExactSessionReservations now) := by
  unfold refreshExactSessionReservations failTerminalSiblings expireCohorts failInvalidTargets
  repeat' first
    | exact .read
    | exact .ret
    | exact .write fun _ ↦ rfl
    | exact .write (failCohort_keepsSettings _ _ _ _ _)
    | apply OnlyWrites.bind
    | apply OnlyWrites.forEach
    | apply OnlyWrites.fold
    | intro _
    | split

theorem placeQueuedLeases_keepsSettings (cfg : AedtPoolConfig) (now clock : Time)
    (leaseIds : Option (List ℕ)) (refresh : Bool) :
    OnlyWrites Write.KeepsSettings (placeQueuedLeases cfg now clock leaseIds refresh) := by
  unfold placeQueuedLeases placeLease refreshMixedCanaryAdmissions
  repeat' first
    | exact .read
    | exact .require
    | exact .assert
    | exact .ret
    | exact .write fun _ ↦ rfl
    | exact .write (place_keepsSettings _ _ _ _ _)
    | exact refreshExactSessionReservations_keepsSettings now
    | apply OnlyWrites.bind
    | apply OnlyWrites.forEach
    | intro _
    | split

theorem reconcile_keepsSettings (svc : Service) (env : Env) (args : ReconcileArgs) :
    OnlyWrites Write.KeepsSettings (svc.reconcile env args) := by
  unfold Service.reconcile refreshZeroOwnerDrainingSessions retireBlockedStarts
    drainPressuredAccounts rotateAgedAllocations endTerminalTasks requeueStaleOffers expireLeases
    recycleUnhealthySessions reviveAllocations scale
  repeat' first
    | exact .read
    | exact .ret
    | exact .write fun _ ↦ rfl
    | exact .write (beginRelease_keepsSettings _ _ _ _)
    | exact .write (cancelLease_keepsSettings _ _ _ _)
    | exact .write (requeueOffer_keepsSettings _ _)
    | exact .write (expireOffer_keepsSettings _ _ _)
    | exact refreshExactSessionReservations_keepsSettings env.now
    | exact placeQueuedLeases_keepsSettings ..
    | apply OnlyWrites.bind
    | apply OnlyWrites.when
    | apply OnlyWrites.forEach
    | apply OnlyWrites.fold
    | intro _
    | split

theorem between_eq_ok_iff {name : String} {low high : ℕ} {v : JsonValue}
    {n : { n : ℕ // low ≤ n ∧ n ≤ high }} : v.between name low high = .ok n ↔ v = .int n.1 := by
  obtain ⟨n, hlow, hhigh⟩ := n
  constructor
  · intro h
    cases v with
    | int m =>
      simp only [JsonValue.between] at h
      split at h
      · rename_i hm
        have hn : m.toNat = n := congrArg Subtype.val (Except.ok.inj h)
        exact congrArg JsonValue.int (show m = (n : ℤ) by omega)
      · cases h
    | null | bool | float | str | list | dict => cases h
  · intro h
    subst h
    exact dif_pos ⟨Int.ofNat_le.mpr hlow, Int.ofNat_le.mpr hhigh⟩

theorem between_int {name : String} {low high n : ℕ} (hlow : low ≤ n) (hhigh : n ≤ high) :
    (JsonValue.int n).between name low high = .ok ⟨n, hlow, hhigh⟩ := between_eq_ok_iff.mpr rfl

/-- The arguments of `set_operator_limits` stand for the limits. -/
structure LimitArgs.Gives (args : LimitArgs) (current : OperatorConfig) (counted : ℕ)
    (l : Limits) : Prop where
  maxSessions : args.maxSessions.orElse current.maxSessions = .int l.maxSessions
  minIdleSessions : args.minIdleSessions.orElse (min current.minIdleSessions l.maxSessions) =
    .int l.minIdleSessions
  projectsPerSession :
    args.projectsPerSession.orElse current.projectsPerSession = .int l.projectsPerSession
  targetProjects : args.targetProjects.orElse (l.maxSessions * l.projectsPerSession) =
    .int l.targetProjects
  max_le : l.maxSessions ≤ 550
  slots_le : l.projectsPerSession ≤ 8
  target_le : l.targetProjects ≤ 4400
  density : l.projectsPerSession ≠ current.projectsPerSession → current.enabled = false ∧ counted = 0

theorem requestedMinIdle_int (current m : ℕ) (v : JsonValue) :
    requestedMinIdle current (.int m) v = .ok (v.orElse (min current m)) := by
  cases v with
  | null =>
    change Except.ok (JsonValue.int (min (current : ℤ) m)) = _
    rw [← Nat.cast_min]
    rfl
  | bool | int | float | str | list | dict => rfl

theorem checkLimits_eq_ok_iff {current : OperatorConfig} {counted : ℕ} {args : LimitArgs}
    {l : Limits} : checkLimits current counted args = .ok l ↔ args.Gives current counted l := by
  constructor
  · intro h
    unfold checkLimits at h
    obtain ⟨idle, hidle, h⟩ := bind_ok h
    obtain ⟨maxSessions, hmax, h⟩ := bind_ok h
    obtain ⟨minIdleSessions, hmin, h⟩ := bind_ok h
    rw [between_eq_ok_iff] at hmax hmin
    rw [hmax, requestedMinIdle_int, Except.ok.injEq] at hidle
    rw [← hidle] at hmin
    split at h
    · cases h
    · obtain ⟨slots, hslots, h⟩ := bind_ok h
      obtain ⟨target, htarget, h⟩ := bind_ok h
      rw [between_eq_ok_iff] at hslots htarget
      split at h
      · cases h
      · split at h
        · cases h
        · rename_i hdensity
          cases h
          refine ⟨hmax, hmin, hslots, htarget, maxSessions.2.2, slots.2.2, target.2.2, ?_⟩
          intro hne
          have hfree := not_or.mp (not_and.mp hdensity hne)
          exact ⟨Bool.eq_false_iff.mpr hfree.1, not_not.mp hfree.2⟩
  · intro h
    have hidle : l.minIdleSessions ≤ 550 := l.minIdle_le.trans h.max_le
    have hdensity : ¬ (l.projectsPerSession ≠ current.projectsPerSession ∧
        (current.enabled = true ∨ counted ≠ 0)) := by
      intro ⟨hne, hbusy⟩
      obtain ⟨hoff, hnone⟩ := h.density hne
      rcases hbusy with hon | hsome
      · exact absurd hon (by rw [hoff]; exact Bool.false_ne_true)
      · exact hsome hnone
    unfold checkLimits
    simp only [h.maxSessions, requestedMinIdle_int, h.minIdleSessions, h.projectsPerSession,
      between_int (Nat.zero_le _) h.max_le, between_int (Nat.zero_le _) hidle,
      between_int l.slots_pos h.slots_le, bind, Except.bind]
    rw [dif_neg (Nat.not_lt.mpr l.minIdle_le)]
    simp only [h.targetProjects, between_int (Nat.zero_le _) h.target_le]
    rw [dif_neg (Nat.not_lt.mpr l.target_le), if_neg hdensity]
    rfl

structure Payload.AsksPlain (p : Payload) (current : OperatorConfig) (l : Limits) : Prop where
  maxSessions : (p.value .maxAedtSessions).orElse current.maxSessions = .int l.maxSessions
  minIdleSessions : (p.value .minIdleAedtSessions).orElse
    (min current.minIdleSessions l.maxSessions) = .int l.minIdleSessions
  targetProjects : (p.value .targetProjectConcurrency).orElse
    (l.maxSessions * l.projectsPerSession) = .int l.targetProjects
  projectsPerSession :
    (p.value .projectsPerAedt).orElse current.projectsPerSession = .int l.projectsPerSession

/-- What a payload with a number of concurrent simulations asks for; a key with `null` is none
of those that are missing. -/
structure Payload.AsksConcurrent (p : Payload) (current : OperatorConfig) (value : JsonValue)
    (l : Limits) : Prop where
  targetProjects : value = .int l.targetProjects
  target_le : l.targetProjects ≤ 1650
  minIdleSessions : (p.get .minIdleAedtSessions).getD (.int current.minIdleSessions) =
    .int l.minIdleSessions
  projectsPerSession : (p.get .projectsPerAedt).getD (.int current.projectsPerSession) =
    .int l.projectsPerSession
  slots_le : l.projectsPerSession ≤ 3
  maxSessions : l.maxSessions =
    (l.targetProjects + l.projectsPerSession - 1) / l.projectsPerSession + l.minIdleSessions

structure Payload.Asks (p : Payload) (current : OperatorConfig) (counted : ℕ) (l : Limits) :
    Prop where
  asked : match p.get .concurrentSimulations with
    | none => p.AsksPlain current l
    | some value => p.AsksConcurrent current value l
  max_le : l.maxSessions ≤ 550
  slots_le : l.projectsPerSession ≤ 8
  target_le : l.targetProjects ≤ 4400
  density : l.projectsPerSession ≠ current.projectsPerSession → current.enabled = false ∧ counted = 0

theorem concurrentLimits_eq_ok_iff {current : OperatorConfig} {p : Payload} {concurrent : ℕ}
    {args : LimitArgs} : concurrentLimits current p concurrent = .ok args ↔
      ∃ slots idle : ℕ, 1 ≤ slots ∧ slots ≤ 3 ∧
        (p.get .projectsPerAedt).getD (.int current.projectsPerSession) = .int slots ∧
        (p.get .minIdleAedtSessions).getD (.int current.minIdleSessions) = .int idle ∧
        (concurrent + slots - 1) / slots + idle ≤ 550 ∧
        args = ⟨.int ((concurrent + slots - 1) / slots + idle : ℕ), p.value .minIdleAedtSessions,
          .int concurrent, p.value .projectsPerAedt⟩ := by
  constructor
  · intro h
    unfold concurrentLimits at h
    obtain ⟨slots, hslots, h⟩ := bind_ok h
    obtain ⟨idle, hidle, h⟩ := bind_ok h
    rw [between_eq_ok_iff] at hslots hidle
    dsimp only at h
    split at h
    · cases h
    · rename_i hmax
      cases h
      exact ⟨slots.1, idle.1, slots.2.1, slots.2.2, hslots, hidle, Nat.not_lt.mp hmax, rfl⟩
  · intro ⟨slots, idle, hpos, hle, hslots, hidle, hmax, hargs⟩
    unfold concurrentLimits
    rw [hslots, hidle, between_int hpos hle]
    simp only [bind, Except.bind]
    rw [between_int (Nat.zero_le _) (le_trans (Nat.le_add_left _ _) hmax)]
    dsimp only
    rw [if_neg (Nat.not_lt.mpr hmax), hargs]
    rfl

/-- A key with a number in it counts the same whether a missing one stands for a default at the
endpoint or in the setter. -/
theorem value_orElse_of_getD {p : Payload} {key : OperatorKey} {default n m : ℕ}
    (h : (p.get key).getD (.int default) = .int n) (hm : default = n → m = n) :
    (p.value key).orElse m = .int n := by
  unfold Payload.value
  cases hget : p.get key with
  | none =>
    rw [hget] at h
    have hdefault : default = n := Int.ofNat_inj.mp (JsonValue.int.inj h)
    exact congrArg (fun k : ℕ ↦ JsonValue.int k) (hm hdefault)
  | some v =>
    rw [hget, Option.getD_some] at h
    subst h
    rfl

section Limits

variable {svc : Service} {isFloat : String → Bool} {db : Db} {p : Payload} {c : OperatorConfig}
  {l : Limits}

theorem limitArgs_eq_ok_iff (hc : svc.operatorConfig isFloat db = .ok c) {value : JsonValue}
    (hvalue : p.get .concurrentSimulations = some value) {args : LimitArgs} :
    svc.limitArgs isFloat p db = .ok args ↔
      ∃ n : ℕ, n ≤ 1650 ∧ value = .int n ∧ concurrentLimits c p n = .ok args := by
  unfold Service.limitArgs
  rw [hvalue]
  constructor
  · intro h
    obtain ⟨n, hn, h⟩ := bind_ok h
    rw [hc] at h
    exact ⟨n.1, n.2.2, between_eq_ok_iff.mp hn, h⟩
  · intro ⟨n, hle, hn, h⟩
    subst hn
    simp only [between_int (Nat.zero_le n) hle, hc, bind, Except.bind, h]

theorem limits_eq_ok_iff (hc : svc.operatorConfig isFloat db = .ok c) {counted : ℕ} :
    (∃ args, svc.limitArgs isFloat p db = .ok args ∧ checkLimits c counted args = .ok l) ↔
      p.Asks c counted l := by
  cases hget : p.get .concurrentSimulations with
  | none =>
    constructor
    · intro ⟨args, hargs, h⟩
      unfold Service.limitArgs at hargs
      rw [hget] at hargs
      cases hargs
      have hl := checkLimits_eq_ok_iff.mp h
      refine ⟨?_, hl.max_le, hl.slots_le, hl.target_le, hl.density⟩
      rw [hget]
      exact ⟨hl.maxSessions, hl.minIdleSessions, hl.targetProjects, hl.projectsPerSession⟩
    · intro h
      have hasked := h.asked
      rw [hget] at hasked
      refine ⟨_, by unfold Service.limitArgs; rw [hget], checkLimits_eq_ok_iff.mpr ?_⟩
      exact ⟨hasked.maxSessions, hasked.minIdleSessions, hasked.projectsPerSession,
        hasked.targetProjects, h.max_le, h.slots_le, h.target_le, h.density⟩
  | some value =>
    constructor
    · intro ⟨args, hargs, h⟩
      obtain ⟨n, hle, hn, hargs⟩ := (limitArgs_eq_ok_iff hc hget).mp hargs
      obtain ⟨slots, idle, hpos, hslots, hkslots, hkidle, hmax, hargs⟩ :=
        concurrentLimits_eq_ok_iff.mp hargs
      subst hargs
      have hl := checkLimits_eq_ok_iff.mp h
      have hlmax : (n + slots - 1) / slots + idle = l.maxSessions :=
        Int.ofNat_inj.mp (JsonValue.int.inj hl.maxSessions)
      have hltarget : n = l.targetProjects :=
        Int.ofNat_inj.mp (JsonValue.int.inj hl.targetProjects)
      have hidle_le : idle ≤ l.maxSessions := hlmax ▸ Nat.le_add_left _ _
      have hlslots : slots = l.projectsPerSession := by
        have heq := hl.projectsPerSession
        rw [value_orElse_of_getD hkslots id] at heq
        exact Int.ofNat_inj.mp (JsonValue.int.inj heq)
      have hlidle : idle = l.minIdleSessions := by
        have heq := hl.minIdleSessions
        rw [value_orElse_of_getD hkidle fun hidle ↦ by omega] at heq
        exact Int.ofNat_inj.mp (JsonValue.int.inj heq)
      subst hltarget hlslots hlidle
      refine ⟨?_, hl.max_le, hl.slots_le, hl.target_le, hl.density⟩
      rw [hget]
      exact ⟨hn, hle, hkidle, hkslots, hslots, hlmax.symm⟩
    · intro h
      have hasked := h.asked
      rw [hget] at hasked
      have hmax := hasked.maxSessions
      have hidle_le := l.minIdle_le
      refine ⟨_, (limitArgs_eq_ok_iff hc hget).mpr ⟨l.targetProjects, hasked.target_le,
        hasked.targetProjects, concurrentLimits_eq_ok_iff.mpr ⟨l.projectsPerSession,
          l.minIdleSessions, l.slots_pos, hasked.slots_le, hasked.projectsPerSession,
          hasked.minIdleSessions, hmax ▸ h.max_le, rfl⟩⟩, checkLimits_eq_ok_iff.mpr ?_⟩
      refine ⟨by rw [← hmax]; rfl, ?_, value_orElse_of_getD hasked.projectsPerSession id, rfl,
        h.max_le, h.slots_le, h.target_le, h.density⟩
      exact value_orElse_of_getD hasked.minIdleSessions fun hidle ↦ by omega

end Limits

structure Payload.AsksTimeouts (p : Payload) (current : OperatorConfig) (t : Timeouts) : Prop where
  leaseTtl : (p.value .leaseTtlSeconds).orElse current.leaseTtlSeconds = .int t.leaseTtlSeconds
  lease_within : 60 ≤ t.leaseTtlSeconds ∧ t.leaseTtlSeconds ≤ 3600
  heartbeat : (p.value .sessionHeartbeatTimeoutSeconds).orElse
    current.sessionHeartbeatTimeoutSeconds = .int t.sessionHeartbeatTimeoutSeconds
  heartbeat_within :
    60 ≤ t.sessionHeartbeatTimeoutSeconds ∧ t.sessionHeartbeatTimeoutSeconds ≤ 3600
  grace : current.unhealthyRecycleGraceSeconds = t.unhealthyRecycleGraceSeconds
  grace_le : t.unhealthyRecycleGraceSeconds ≤ 3600
  idleTtl : (p.value .idleTtlSeconds).orElse current.idleTtlSeconds = .int t.idleTtlSeconds
  idle_within : 60 ≤ t.idleTtlSeconds ∧ t.idleTtlSeconds ≤ 86400
  maxAge : (p.value .allocationMaxAgeSeconds).orElse current.allocationMaxAgeSeconds =
    .int t.allocationMaxAgeSeconds
  maxAge_le : t.allocationMaxAgeSeconds ≤ 172800

theorem checkTimeouts_eq_ok_iff {p : Payload} {c : OperatorConfig} {t : Timeouts} :
    checkTimeouts c p = .ok t ↔ p.AsksTimeouts c t := by
  constructor
  · intro h
    unfold checkTimeouts at h
    obtain ⟨ttl, httl, h⟩ := bind_ok h
    obtain ⟨session, hsession, h⟩ := bind_ok h
    obtain ⟨grace, hgrace, h⟩ := bind_ok h
    obtain ⟨idle, hidle, h⟩ := bind_ok h
    obtain ⟨age, hage, h⟩ := bind_ok h
    rw [between_eq_ok_iff] at httl hsession hgrace hidle hage
    cases h
    exact ⟨httl, ttl.2, hsession, session.2, Int.ofNat_inj.mp (JsonValue.int.inj hgrace),
      grace.2.2, hidle, idle.2, hage, age.2.2⟩
  · intro h
    unfold checkTimeouts
    simp only [h.leaseTtl, between_int h.lease_within.1 h.lease_within.2, h.heartbeat,
      between_int h.heartbeat_within.1 h.heartbeat_within.2, h.grace,
      between_int (Nat.zero_le _) h.grace_le, h.idleTtl,
      between_int h.idle_within.1 h.idle_within.2, h.maxAge,
      between_int (Nat.zero_le _) h.maxAge_le, bind, Except.bind]
    rfl

def OperatorConfig.withLimits (c : OperatorConfig) (l : Limits) (passed : Bool) : OperatorConfig :=
  { c with
    maxSessions := l.maxSessions, minIdleSessions := l.minIdleSessions
    targetProjects := l.targetProjects, projectsPerSession := l.projectsPerSession
    slots_pos := l.slots_pos, validationPassed := passed }

def OperatorConfig.withTimeouts (c : OperatorConfig) (t : Timeouts) : OperatorConfig :=
  { c with
    leaseTtlSeconds := t.leaseTtlSeconds, idleTtlSeconds := t.idleTtlSeconds
    sessionHeartbeatTimeoutSeconds := t.sessionHeartbeatTimeoutSeconds
    unhealthyRecycleGraceSeconds := t.unhealthyRecycleGraceSeconds
    allocationMaxAgeSeconds := t.allocationMaxAgeSeconds }

section Steps

variable {svc : Service} {isFloat : String → Bool} {db : Db} {p : Payload} {c : OperatorConfig}

theorem patchLimits_of_asks (hstrip : svc.strip = strip) (hc : Reads svc isFloat db c)
    (hkeys : p.hasAny OperatorKey.limitKeys = true) {l : Limits}
    (h : p.Asks c db.countedSessions l) : ∃ passed,
    svc.patchLimits isFloat p db =
      (.ok (some (c.withLimits l passed)), putSettings l.settings db) ∧
    Reads svc isFloat (putSettings l.settings db) (c.withLimits l passed) := by
  have hread := operatorConfig_eq_ok_iff.mpr hc
  obtain ⟨args, hargs, hl⟩ := (limits_eq_ok_iff hread).mpr h
  obtain ⟨passed, hput⟩ := hc.put_limits hstrip l
  refine ⟨passed, ?_, hput⟩
  unfold Service.patchLimits Service.setOperatorLimits
  simp only [hkeys, if_true, hargs, hread, bind, Except.bind, hl]
  rw [operatorConfig_eq_ok_iff.mpr hput]
  rfl

theorem patchLimits_of_not_asks (hc : Reads svc isFloat db c)
    (hkeys : p.hasAny OperatorKey.limitKeys = true)
    (h : ∀ l, ¬ p.Asks c db.countedSessions l) :
    ∃ e, svc.patchLimits isFloat p db = (.error e, db) := by
  have hread := operatorConfig_eq_ok_iff.mpr hc
  unfold Service.patchLimits Service.setOperatorLimits
  simp only [hkeys, if_true]
  cases hargs : svc.limitArgs isFloat p db with
  | error e => exact ⟨e, rfl⟩
  | ok args =>
    cases hl : checkLimits c db.countedSessions args with
    | error e => exact ⟨e, by simp only [hread, bind, Except.bind, hl]; rfl⟩
    | ok l => exact absurd ((limits_eq_ok_iff hread).mp ⟨args, hargs, hl⟩) (h l)

theorem patchTimeouts_of_asks (hstrip : svc.strip = strip) (hc : Reads svc isFloat db c)
    (hkeys : p.hasAny OperatorKey.timeoutKeys = true) {t : Timeouts} (h : p.AsksTimeouts c t)
    (config : Option OperatorConfig) :
    svc.patchTimeouts isFloat p config db =
      (.ok (some (c.withTimeouts t)), putSettings t.settings db) ∧
    Reads svc isFloat (putSettings t.settings db) (c.withTimeouts t) := by
  have hput := hc.put_timeouts hstrip t
  refine ⟨?_, hput⟩
  unfold Service.patchTimeouts Service.setOperatorTimeouts
  simp only [hkeys, if_true, operatorConfig_eq_ok_iff.mpr hc, bind, Except.bind,
    checkTimeouts_eq_ok_iff.mpr h]
  rw [operatorConfig_eq_ok_iff.mpr hput]
  rfl

theorem patchTimeouts_of_not_asks (hc : Reads svc isFloat db c)
    (hkeys : p.hasAny OperatorKey.timeoutKeys = true) (h : ∀ t, ¬ p.AsksTimeouts c t)
    (config : Option OperatorConfig) :
    ∃ e, svc.patchTimeouts isFloat p config db = (.error e, db) := by
  unfold Service.patchTimeouts Service.setOperatorTimeouts
  simp only [hkeys, if_true, operatorConfig_eq_ok_iff.mpr hc, bind, Except.bind]
  cases ht : checkTimeouts c p with
  | error e => exact ⟨e, rfl⟩
  | ok t => exact absurd (checkTimeouts_eq_ok_iff.mp ht) (h t)

end Steps

def OperatorConfig.value (c : OperatorConfig) : OperatorKey → ℕ
  | .concurrentSimulations | .targetProjectConcurrency => c.targetProjects
  | .maxAedtSessions => c.maxSessions
  | .minIdleAedtSessions => c.minIdleSessions
  | .projectsPerAedt => c.projectsPerSession
  | .leaseTtlSeconds => c.leaseTtlSeconds
  | .sessionHeartbeatTimeoutSeconds => c.sessionHeartbeatTimeoutSeconds
  | .idleTtlSeconds => c.idleTtlSeconds
  | .allocationMaxAgeSeconds => c.allocationMaxAgeSeconds

def Payload.Requests (p : Payload) (keys : List OperatorKey) (c : OperatorConfig) : Prop :=
  ∀ key ∈ keys, ∀ v, p.get key = some v → v = .null ∨ v = .int (c.value key)

structure OperatorConfig.Fits (c : OperatorConfig) : Prop where
  ceiling : c.targetProjects ≤ c.maxSessions * c.projectsPerSession
  minIdle_le : c.minIdleSessions ≤ c.maxSessions

structure Payload.Holds (p : Payload) (c : OperatorConfig) : Prop where
  requested : p.Requests OperatorKey.allowed c
  fits : c.Fits
  derived : (p.get .concurrentSimulations).isSome = true → (c.maxSessions : ℤ) =
    ⌈(c.targetProjects : ℚ) / c.projectsPerSession⌉ + c.minIdleSessions

def Db.SameSettings (db db' : Db) : Prop := ∀ key, db'.stored key = db.stored key

/-- The request succeeds and holds, or it is rejected and changes no setting. -/
def Service.Meets (svc : Service) (isFloat : String → Bool) (p : Payload) (db : Db) {ε α : Type}
    (outcome : Except ε α × Db) : Prop :=
  match outcome.1 with
  | .ok _ => ∃ c, svc.operatorConfig isFloat outcome.2 = .ok c ∧ p.Holds c
  | .error _ => db.SameSettings outcome.2

def Service.PassRaises (svc : Service) (prepare : Service.Preparation) (db : Db) : Prop :=
  (svc.reconcilePass prepare db).1.isOk = false

def Payload.StoresLimits (p : Payload) (c : OperatorConfig) (db db' : Db) : Prop :=
  if p.hasAny OperatorKey.limitKeys then
    ∃ l, p.Asks c db.countedSessions l ∧ db' = putSettings l.settings db
  else db' = db

def Payload.StoresTimeouts (p : Payload) (c : OperatorConfig) (db db' : Db) : Prop :=
  if p.hasAny OperatorKey.timeoutKeys then
    ∃ t, p.AsksTimeouts c t ∧ db' = putSettings t.settings db
  else db' = db

/-- Where the timeouts or the pass reject the request, what has been stored by then is what was
stored before; and a request without limits finds limits that fit. -/
def Payload.Settles (svc : Service) (prepare : Service.Preparation) (p : Payload)
    (c : OperatorConfig) (db : Db) : Prop :=
  ∀ db₁, p.StoresLimits c db db₁ →
    ((∀ db₂, ¬ p.StoresTimeouts c db₁ db₂) → db.SameSettings db₁) ∧
    ∀ db₂, p.StoresTimeouts c db₁ db₂ →
      (svc.PassRaises prepare db₂ → db.SameSettings db₂) ∧
      (¬ svc.PassRaises prepare db₂ → p.hasAny OperatorKey.limitKeys = false → c.Fits)

section Atomicity

variable {svc : Service} {isFloat : String → Bool} {prepare : Service.Preparation} {db db₁ : Db}
  {p : Payload} {c c' : OperatorConfig} {l : Limits} {t : Timeouts}

theorem hasAny_of_get {keys : List OperatorKey} {key : OperatorKey} {v : JsonValue}
    (hkey : key ∈ keys) (hv : p.get key = some v) : p.hasAny keys = true :=
  List.any_eq_true.mpr ⟨key, hkey, by rw [hv]; rfl⟩

theorem get_of_not_hasAny {keys : List OperatorKey} (h : p.hasAny keys = false)
    {key : OperatorKey} (hkey : key ∈ keys) : p.get key = none := by
  cases hv : p.get key with
  | none => rfl
  | some v =>
    rw [hasAny_of_get hkey hv] at h
    cases h

theorem requested_of_orElse {key : OperatorKey} {default n : ℕ}
    (h : (p.value key).orElse default = .int n) :
    ∀ v, p.get key = some v → v = .null ∨ v = .int n := by
  intro v hv
  rw [Payload.value, hv, Option.getD_some] at h
  cases v with
  | null => exact .inl rfl
  | bool | int | float | str | list | dict => exact .inr h

theorem requested_of_getD {key : OperatorKey} {default n : ℕ}
    (h : (p.get key).getD (.int default) = .int n) :
    ∀ v, p.get key = some v → v = .null ∨ v = .int n := by
  intro v hv
  rw [hv, Option.getD_some] at h
  exact .inr h

theorem get_derived (hcheck : checkPayload p = .ok ())
    (hconcurrent : (p.get .concurrentSimulations).isSome = true) {key : OperatorKey}
    (hkey : key ∈ OperatorKey.derivedKeys) : p.get key = none := by
  apply get_of_not_hasAny _ hkey
  unfold checkPayload at hcheck
  split at hcheck
  · cases hcheck
  · split at hcheck
    · cases hcheck
    · rename_i hmixed
      simpa [hconcurrent] using hmixed

/-- A payload that passes the checks has a key of the limits or of the timeouts. -/
theorem hasAny_of_check (hcheck : checkPayload p = .ok ())
    (h : p.hasAny OperatorKey.limitKeys = false) : p.hasAny OperatorKey.timeoutKeys = true := by
  unfold checkPayload at hcheck
  split at hcheck
  · cases hcheck
  · rename_i hknown
    obtain ⟨hne, hall⟩ := not_or.mp hknown
    cases hp : p with
    | nil => exact absurd (by rw [hp]; rfl) hne
    | cons entry rest =>
      have hentry := List.all_eq_true.mp (not_not.mp hall) entry (by rw [hp]; exact List.mem_cons_self)
      obtain ⟨key, hkey, htext⟩ := List.any_eq_true.mp hentry
      have hget : p.get key = some entry.2 := by
        rw [Payload.get, hp, List.find?_cons_of_pos (by
          rw [← beq_iff_eq.mp htext]
          exact beq_self_eq_true _)]
        rfl
      rw [← hp]
      rcases List.mem_append.mp hkey with hlimit | htimeout
      · rw [hasAny_of_get hlimit hget] at h
        cases h
      · exact hasAny_of_get htimeout hget

structure Limits.HeldBy (l : Limits) (c : OperatorConfig) : Prop where
  maxSessions : c.maxSessions = l.maxSessions
  minIdleSessions : c.minIdleSessions = l.minIdleSessions
  targetProjects : c.targetProjects = l.targetProjects
  projectsPerSession : c.projectsPerSession = l.projectsPerSession

theorem fits_of_held (h : l.HeldBy c) : c.Fits := by
  constructor
  · rw [h.targetProjects, h.maxSessions, h.projectsPerSession]
    exact l.target_le
  · rw [h.minIdleSessions, h.maxSessions]
    exact l.minIdle_le

theorem requests_limits (hcheck : checkPayload p = .ok ()) {counted : ℕ}
    (h : p.Asks c counted l) (hheld : l.HeldBy c') : p.Requests OperatorKey.limitKeys c' := by
  have hasked := h.asked
  intro key hkey v hv
  cases hget : p.get .concurrentSimulations with
  | none =>
    rw [hget] at hasked
    cases key with
    | concurrentSimulations =>
      rw [hget] at hv
      cases hv
    | maxAedtSessions =>
      exact requested_of_orElse (hheld.maxSessions ▸ hasked.maxSessions) v hv
    | minIdleAedtSessions =>
      exact requested_of_orElse (hheld.minIdleSessions ▸ hasked.minIdleSessions) v hv
    | targetProjectConcurrency =>
      exact requested_of_orElse (hheld.targetProjects ▸ hasked.targetProjects) v hv
    | projectsPerAedt =>
      exact requested_of_orElse (hheld.projectsPerSession ▸ hasked.projectsPerSession) v hv
    | leaseTtlSeconds | sessionHeartbeatTimeoutSeconds | idleTtlSeconds
    | allocationMaxAgeSeconds => exact absurd hkey (by decide)
  | some value =>
    have hsome : (p.get .concurrentSimulations).isSome = true := by rw [hget]; rfl
    rw [hget] at hasked
    cases key with
    | concurrentSimulations =>
      rw [hget] at hv
      cases hv
      rw [hasked.targetProjects, ← hheld.targetProjects]
      exact .inr rfl
    | maxAedtSessions =>
      rw [get_derived hcheck hsome (by decide)] at hv
      cases hv
    | minIdleAedtSessions =>
      exact requested_of_getD (hheld.minIdleSessions ▸ hasked.minIdleSessions) v hv
    | targetProjectConcurrency =>
      rw [get_derived hcheck hsome (by decide)] at hv
      cases hv
    | projectsPerAedt =>
      exact requested_of_getD (hheld.projectsPerSession ▸ hasked.projectsPerSession) v hv
    | leaseTtlSeconds | sessionHeartbeatTimeoutSeconds | idleTtlSeconds
    | allocationMaxAgeSeconds => exact absurd hkey (by decide)

theorem requests_timeouts (h : p.AsksTimeouts c t) :
    p.Requests OperatorKey.timeoutKeys (c'.withTimeouts t) := by
  intro key hkey v hv
  cases key with
  | leaseTtlSeconds => exact requested_of_orElse h.leaseTtl v hv
  | sessionHeartbeatTimeoutSeconds => exact requested_of_orElse h.heartbeat v hv
  | idleTtlSeconds => exact requested_of_orElse h.idleTtl v hv
  | allocationMaxAgeSeconds => exact requested_of_orElse h.maxAge v hv
  | concurrentSimulations | maxAedtSessions | minIdleAedtSessions | targetProjectConcurrency
  | projectsPerAedt => exact absurd hkey (by decide)

theorem requests_of_not_hasAny {keys : List OperatorKey} (h : p.hasAny keys = false) :
    p.Requests keys c := by
  intro key hkey v hv
  rw [get_of_not_hasAny h hkey] at hv
  cases hv

theorem ceil_div (n k : ℕ) (hk : 1 ≤ k) : ⌈(n : ℚ) / k⌉ = ((n + k - 1) / k : ℕ) := by
  have hkpos : (0 : ℚ) < k := by exact_mod_cast hk
  rw [Int.ceil_eq_iff]
  have hdiv := Nat.div_add_mod (n + k - 1) k
  have hmod := Nat.mod_lt (n + k - 1) hk
  constructor
  · rw [lt_div_iff₀ hkpos, sub_mul, one_mul, sub_lt_iff_lt_add]
    have hlt : (n + k - 1) / k * k < n + k := by
      rw [Nat.mul_comm]
      omega
    exact_mod_cast hlt
  · rw [div_le_iff₀ hkpos]
    have hle : n ≤ (n + k - 1) / k * k := by
      rw [Nat.mul_comm]
      omega
    exact_mod_cast hle

theorem derived_of_held {counted : ℕ} (h : p.Asks c counted l) (hheld : l.HeldBy c')
    (hsome : (p.get .concurrentSimulations).isSome = true) : (c'.maxSessions : ℤ) =
      ⌈(c'.targetProjects : ℚ) / c'.projectsPerSession⌉ + c'.minIdleSessions := by
  obtain ⟨value, hget⟩ := Option.isSome_iff_exists.mp hsome
  have hasked := h.asked
  rw [hget] at hasked
  rw [hheld.maxSessions, hheld.targetProjects, hheld.projectsPerSession, hheld.minIdleSessions,
    ceil_div _ _ l.slots_pos, hasked.maxSessions]
  push_cast
  rfl

theorem stored_of_settings (h : db₁.settings = db.settings) (key : String) :
    db₁.stored key = db.stored key := by
  unfold Db.stored
  rw [h]

theorem reconcilePass_settings : (svc.reconcilePass prepare db).2.settings = db.settings := by
  unfold Service.reconcilePass
  cases prepare db with
  | error e => rfl
  | ok pass =>
    obtain ⟨env, args⟩ := pass
    obtain ⟨ws, hjournal, hcommit⟩ :=
      (reconcile_keepsSettings svc env { args with execute := true }).guarded.commit db
    change ((svc.reconcile env { args with execute := true }).commit db).settings = db.settings
    rw [hcommit]
    refine hjournal.preserves (I := fun s ↦ s.settings = db.settings) ?_ rfl
    intro s w hs hw
    exact (hw s).trans hs

theorem holds_validated (h : p.Holds c) (passed : Bool) :
    p.Holds { c with validationPassed := passed } := by
  refine ⟨?_, ⟨h.fits.ceiling, h.fits.minIdle_le⟩, h.derived⟩
  intro key hkey v hv
  have hv' := h.requested key hkey v hv
  cases key
  all_goals exact hv'

theorem exists_holds_congr {db' : Db} (h : db'.settings = db.settings)
    (hc : ∃ c, svc.operatorConfig isFloat db = .ok c ∧ p.Holds c) :
    ∃ c, svc.operatorConfig isFloat db' = .ok c ∧ p.Holds c := by
  obtain ⟨c, hread, hholds⟩ := hc
  obtain ⟨passed, hreads⟩ := (operatorConfig_eq_ok_iff.mp hread).of_stored (stored_of_settings h)
  exact ⟨_, operatorConfig_eq_ok_iff.mpr hreads, holds_validated hholds passed⟩

/-- The last step of a request leaves the settings alone, so it decides only whether the request
succeeds. -/
theorem meets_pass_iff (config : OperatorConfig) : svc.Meets isFloat p db
      (match svc.reconcilePass prepare db₁ with
        | (.error e, db₂) => ((.error e : Except PoolError OperatorConfig), db₂)
        | (.ok (), db₂) => (.ok config, db₂)) ↔
    (svc.PassRaises prepare db₁ → db.SameSettings db₁) ∧
      (¬ svc.PassRaises prepare db₁ →
        ∃ c, svc.operatorConfig isFloat db₁ = .ok c ∧ p.Holds c) := by
  have hsettings : (svc.reconcilePass prepare db₁).2.settings = db₁.settings :=
    reconcilePass_settings
  unfold Service.PassRaises
  rcases hpass : svc.reconcilePass prepare db₁ with ⟨e | u, db₂⟩
  · rw [hpass] at hsettings
    constructor
    · intro h
      refine ⟨fun _ key ↦ ?_, fun hok ↦ absurd rfl hok⟩
      rw [← h key, stored_of_settings hsettings]
    · intro h key
      exact (stored_of_settings hsettings key).trans (h.1 rfl key)
  · rw [hpass] at hsettings
    have hok : ¬ (Except.ok u : Except PoolError Unit).isOk = false := by
      intro hfalse
      cases hfalse
    constructor
    · intro h
      exact ⟨fun hraises ↦ absurd hraises hok, fun _ ↦ exists_holds_congr hsettings.symm h⟩
    · intro h
      exact exists_holds_congr hsettings (h.2 hok)

theorem storesTimeouts_unique {db₂ db₃ : Db} (h : p.StoresTimeouts c db db₂)
    (h' : p.StoresTimeouts c db db₃) : db₂ = db₃ := by
  unfold Payload.StoresTimeouts at h h'
  split at h
  · rename_i hkeys
    rw [if_pos hkeys] at h'
    obtain ⟨t, ht, rfl⟩ := h
    obtain ⟨t', ht', rfl⟩ := h'
    have heq := (checkTimeouts_eq_ok_iff.mpr ht).symm.trans (checkTimeouts_eq_ok_iff.mpr ht')
    rw [Except.ok.inj heq]
  · rename_i hkeys
    rw [if_neg hkeys] at h'
    rw [h, h']

theorem meets_finish_iff (hstrip : svc.strip = strip) (hc : Reads svc isFloat db₁ c)
    {config : Option OperatorConfig}
    (hconfig : p.hasAny OperatorKey.timeoutKeys = false → config.isSome = true) :
    svc.Meets isFloat p db (svc.finishPatch isFloat prepare p config db₁) ↔
      ((∀ db₂, ¬ p.StoresTimeouts c db₁ db₂) → db.SameSettings db₁) ∧
      ∀ db₂, p.StoresTimeouts c db₁ db₂ →
        (svc.PassRaises prepare db₂ → db.SameSettings db₂) ∧
        (¬ svc.PassRaises prepare db₂ →
          ∃ c', svc.operatorConfig isFloat db₂ = .ok c' ∧ p.Holds c') := by
  have hstores : ∀ {db₂}, p.StoresTimeouts c db₁ db₂ → ∀ config',
      svc.patchTimeouts isFloat p config db₁ = (.ok (some config'), db₂) →
      (svc.Meets isFloat p db (svc.finishPatch isFloat prepare p config db₁) ↔
        ((∀ db₂, ¬ p.StoresTimeouts c db₁ db₂) → db.SameSettings db₁) ∧
        ∀ db₂, p.StoresTimeouts c db₁ db₂ →
          (svc.PassRaises prepare db₂ → db.SameSettings db₂) ∧
          (¬ svc.PassRaises prepare db₂ →
            ∃ c', svc.operatorConfig isFloat db₂ = .ok c' ∧ p.Holds c')) := by
    intro db₂ hdb₂ config' hpatch
    unfold Service.finishPatch
    rw [hpatch]
    refine (meets_pass_iff config').trans ?_
    constructor
    · intro h
      refine ⟨fun hnone ↦ absurd hdb₂ (hnone db₂), fun db₃ hdb₃ ↦ ?_⟩
      rw [← storesTimeouts_unique hdb₂ hdb₃]
      exact h
    · intro h
      exact h.2 db₂ hdb₂
  cases hkeys : p.hasAny OperatorKey.timeoutKeys with
  | false =>
    obtain ⟨config', hconfig'⟩ := Option.isSome_iff_exists.mp (hconfig hkeys)
    have hdb₂ : p.StoresTimeouts c db₁ db₁ := by
      rw [Payload.StoresTimeouts, hkeys]
      rfl
    refine hstores hdb₂ config' ?_
    rw [Service.patchTimeouts, hkeys, hconfig']
    rfl
  | true =>
    by_cases hasks : ∃ t, p.AsksTimeouts c t
    · obtain ⟨t, ht⟩ := hasks
      refine hstores ?_ _ (patchTimeouts_of_asks hstrip hc hkeys ht config).1
      rw [Payload.StoresTimeouts, hkeys]
      exact ⟨t, ht, rfl⟩
    · have hnone : ∀ db₂, ¬ p.StoresTimeouts c db₁ db₂ := by
        intro db₂ hdb₂
        rw [Payload.StoresTimeouts, hkeys] at hdb₂
        obtain ⟨t, ht, -⟩ := hdb₂
        exact hasks ⟨t, ht⟩
      obtain ⟨e, hpatch⟩ := patchTimeouts_of_not_asks hc hkeys (not_exists.mp hasks) config
      unfold Service.finishPatch
      rw [hpatch]
      constructor
      · intro h
        exact ⟨fun _ ↦ h, fun db₂ hdb₂ ↦ absurd hdb₂ (hnone db₂)⟩
      · intro h
        exact h.1 hnone

theorem asks_unique (hread : svc.operatorConfig isFloat db = .ok c) {counted : ℕ} {l l' : Limits}
    (h : p.Asks c counted l) (h' : p.Asks c counted l') : l = l' := by
  obtain ⟨args, hargs, hl⟩ := (limits_eq_ok_iff hread).mpr h
  obtain ⟨args', hargs', hl'⟩ := (limits_eq_ok_iff hread).mpr h'
  rw [hargs, Except.ok.injEq] at hargs'
  rw [← hargs', hl, Except.ok.injEq] at hl'
  exact hl'

theorem storesLimits_unique (hread : svc.operatorConfig isFloat db = .ok c) {db₂ db₃ : Db}
    (h : p.StoresLimits c db db₂) (h' : p.StoresLimits c db db₃) : db₂ = db₃ := by
  unfold Payload.StoresLimits at h h'
  split at h
  · rename_i hkeys
    rw [if_pos hkeys] at h'
    obtain ⟨l, hl, rfl⟩ := h
    obtain ⟨l', hl', rfl⟩ := h'
    rw [asks_unique hread hl hl']
  · rename_i hkeys
    rw [if_neg hkeys] at h'
    rw [h, h']

/-- The limits do not change what is asked of the timeouts. -/
theorem asksTimeouts_withLimits {passed : Bool} :
    p.AsksTimeouts (c.withLimits l passed) t ↔ p.AsksTimeouts c t :=
  ⟨fun h ↦ ⟨h.1, h.2, h.3, h.4, h.5, h.6, h.7, h.8, h.9, h.10⟩,
    fun h ↦ ⟨h.1, h.2, h.3, h.4, h.5, h.6, h.7, h.8, h.9, h.10⟩⟩

theorem storesTimeouts_withLimits {passed : Bool} {db₂ : Db} :
    p.StoresTimeouts (c.withLimits l passed) db₁ db₂ ↔ p.StoresTimeouts c db₁ db₂ := by
  unfold Payload.StoresTimeouts
  simp only [asksTimeouts_withLimits]

theorem holds_of_asks (hcheck : checkPayload p = .ok ()) {counted : ℕ}
    (h : p.Asks c counted l) (hheld : l.HeldBy c')
    (htimeouts : p.Requests OperatorKey.timeoutKeys c') : p.Holds c' := by
  refine ⟨?_, fits_of_held hheld, derived_of_held h hheld⟩
  intro key hkey
  rcases List.mem_append.mp hkey with hlimit | htimeout
  · exact requests_limits hcheck h hheld key hlimit
  · exact htimeouts key htimeout

/-- After its steps a request finds the configuration with all that they have stored. -/
theorem reads_of_storesTimeouts (hstrip : svc.strip = strip) (hc : Reads svc isFloat db₁ c)
    {db₂ : Db} (h : p.StoresTimeouts c db₁ db₂) : ∃ c', Reads svc isFloat db₂ c' ∧
      p.Requests OperatorKey.timeoutKeys c' ∧ c'.maxSessions = c.maxSessions ∧
      c'.minIdleSessions = c.minIdleSessions ∧ c'.targetProjects = c.targetProjects ∧
      c'.projectsPerSession = c.projectsPerSession := by
  unfold Payload.StoresTimeouts at h
  split at h
  · obtain ⟨t, ht, rfl⟩ := h
    exact ⟨c.withTimeouts t, hc.put_timeouts hstrip t, requests_timeouts ht, rfl, rfl, rfl, rfl⟩
  · rename_i hkeys
    subst h
    exact ⟨c, hc, requests_of_not_hasAny (Bool.eq_false_iff.mpr hkeys), rfl, rfl, rfl, rfl⟩

theorem applyPatch_of_unreadable {e : PoolError} (hcheck : checkPayload p = .ok ())
    (hread : svc.operatorConfig isFloat db = .error e) :
    ∃ e', svc.applyPatch isFloat prepare p db = (.error e', db) := by
  unfold Service.applyPatch Service.patchLimits
  cases hkeys : p.hasAny OperatorKey.limitKeys with
  | true =>
    cases hargs : svc.limitArgs isFloat p db with
    | error e' => exact ⟨e', rfl⟩
    | ok args =>
      refine ⟨e, ?_⟩
      simp only [if_true, Service.setOperatorLimits, hread, bind, Except.bind]
      rfl
  | false =>
    refine ⟨e, ?_⟩
    simp only [Bool.false_eq_true, if_false, Service.finishPatch, Service.patchTimeouts,
      hasAny_of_check hcheck hkeys, if_true, Service.setOperatorTimeouts, hread, bind, Except.bind]
    rfl

theorem meets_response {o : Except PoolError OperatorConfig × Db} :
    svc.Meets isFloat p db ((o.1.mapError PatchError.of).map (·.response), o.2) ↔
      svc.Meets isFloat p db o := by
  obtain ⟨e | config, db'⟩ := o
  all_goals rfl

theorem meets_apply_iff (hstrip : svc.strip = strip) (hread : svc.operatorConfig isFloat db = .ok c)
    (hstores : p.StoresLimits c db db₁) (hc : Reads svc isFloat db₁ c')
    (htimeouts : ∀ db₂, p.StoresTimeouts c' db₁ db₂ ↔ p.StoresTimeouts c db₁ db₂)
    (hholds : ∀ db₂, p.StoresTimeouts c db₁ db₂ →
      ((∃ c₂, svc.operatorConfig isFloat db₂ = .ok c₂ ∧ p.Holds c₂) ↔
        (p.hasAny OperatorKey.limitKeys = false → c.Fits)))
    {config : Option OperatorConfig}
    (hlimits : svc.patchLimits isFloat p db = (.ok config, db₁))
    (hconfig : p.hasAny OperatorKey.timeoutKeys = false → config.isSome = true) :
    svc.Meets isFloat p db (svc.applyPatch isFloat prepare p db) ↔
      p.Settles svc prepare c db := by
  unfold Service.applyPatch
  rw [hlimits]
  refine (meets_finish_iff hstrip hc hconfig).trans ?_
  simp only [htimeouts]
  constructor
  · intro h db' hdb'
    rw [← storesLimits_unique hread hstores hdb']
    refine ⟨h.1, fun db₂ hdb₂ ↦ ⟨(h.2 db₂ hdb₂).1, fun hok ↦ ?_⟩⟩
    exact (hholds db₂ hdb₂).mp ((h.2 db₂ hdb₂).2 hok)
  · intro h
    obtain ⟨hnone, hall⟩ := h db₁ hstores
    refine ⟨hnone, fun db₂ hdb₂ ↦ ⟨(hall db₂ hdb₂).1, fun hok ↦ ?_⟩⟩
    exact (hholds db₂ hdb₂).mpr ((hall db₂ hdb₂).2 hok)

theorem fits_congr (hmax : c'.maxSessions = c.maxSessions)
    (hidle : c'.minIdleSessions = c.minIdleSessions)
    (htarget : c'.targetProjects = c.targetProjects)
    (hslots : c'.projectsPerSession = c.projectsPerSession) : c'.Fits ↔ c.Fits := by
  constructor
  · intro h
    exact ⟨by rw [← htarget, ← hmax, ← hslots]; exact h.1, by rw [← hidle, ← hmax]; exact h.2⟩
  · intro h
    exact ⟨by rw [htarget, hmax, hslots]; exact h.1, by rw [hidle, hmax]; exact h.2⟩

theorem meets_of_no_limits (hstrip : svc.strip = strip) (hcheck : checkPayload p = .ok ())
    (hread : svc.operatorConfig isFloat db = .ok c)
    (hkeys : p.hasAny OperatorKey.limitKeys = false) :
    svc.Meets isFloat p db (svc.applyPatch isFloat prepare p db) ↔ p.Settles svc prepare c db := by
  have hc := operatorConfig_eq_ok_iff.mp hread
  have hstores : p.StoresLimits c db db := by
    rw [Payload.StoresLimits, hkeys]
    rfl
  have hlimits : svc.patchLimits isFloat p db = (.ok none, db) := by
    rw [Service.patchLimits, hkeys]
    rfl
  refine meets_apply_iff hstrip hread hstores hc (fun _ ↦ Iff.rfl) ?_ hlimits ?_
  · intro db₂ hdb₂
    obtain ⟨c₂, hc₂, hrequests, hmax, hidle, htarget, hslots⟩ :=
      reads_of_storesTimeouts hstrip hc hdb₂
    have hfits := fits_congr hmax hidle htarget hslots
    constructor
    · intro ⟨c₃, hread₃, hholds⟩ _
      rw [operatorConfig_eq_ok_iff.mpr hc₂, Except.ok.injEq] at hread₃
      rw [← hfits, hread₃]
      exact hholds.fits
    · intro h
      refine ⟨c₂, operatorConfig_eq_ok_iff.mpr hc₂, ?_, hfits.mpr (h hkeys), ?_⟩
      · intro key hkey
        rcases List.mem_append.mp hkey with hlimit | htimeout
        · exact requests_of_not_hasAny hkeys key hlimit
        · exact hrequests key htimeout
      · intro hsome
        rw [get_of_not_hasAny hkeys (by decide)] at hsome
        cases hsome
  · intro hnone
    rw [hasAny_of_check hcheck hkeys] at hnone
    cases hnone

theorem meets_of_limits (hstrip : svc.strip = strip) (hcheck : checkPayload p = .ok ())
    (hread : svc.operatorConfig isFloat db = .ok c)
    (hkeys : p.hasAny OperatorKey.limitKeys = true) :
    svc.Meets isFloat p db (svc.applyPatch isFloat prepare p db) ↔ p.Settles svc prepare c db := by
  have hc := operatorConfig_eq_ok_iff.mp hread
  by_cases hasks : ∃ l, p.Asks c db.countedSessions l
  · obtain ⟨l, hl⟩ := hasks
    obtain ⟨passed, hlimits, hput⟩ := patchLimits_of_asks hstrip hc hkeys hl
    have hstores : p.StoresLimits c db (putSettings l.settings db) := by
      rw [Payload.StoresLimits, hkeys]
      exact ⟨l, hl, rfl⟩
    refine meets_apply_iff hstrip hread hstores hput (fun _ ↦ storesTimeouts_withLimits) ?_
      hlimits fun _ ↦ rfl
    intro db₂ hdb₂
    obtain ⟨c₂, hc₂, hrequests, hmax, hidle, htarget, hslots⟩ :=
      reads_of_storesTimeouts hstrip hput (storesTimeouts_withLimits.mpr hdb₂)
    have hholds := holds_of_asks hcheck hl ⟨hmax, hidle, htarget, hslots⟩ hrequests
    constructor
    · intro _ hnone
      rw [hkeys] at hnone
      cases hnone
    · intro _
      exact ⟨c₂, operatorConfig_eq_ok_iff.mpr hc₂, hholds⟩
  · obtain ⟨e, hlimits⟩ := patchLimits_of_not_asks hc hkeys (not_exists.mp hasks)
    unfold Service.applyPatch
    rw [hlimits]
    constructor
    · intro _ db₁ hdb₁
      rw [Payload.StoresLimits, hkeys] at hdb₁
      obtain ⟨l, hl, -⟩ := hdb₁
      exact absurd ⟨l, hl⟩ hasks
    · intro _ key
      rfl

/-- A request succeeds with all that it asks for or changes nothing if and only if nothing that
differs has been stored when a later step rejects it, and a request without limits finds limits
that fit. -/
theorem patch_atomic_iff (hstrip : svc.strip = strip) :
    svc.Meets isFloat p db (svc.setAedtPoolLimit isFloat prepare p db) ↔
      ∀ c, checkPayload p = .ok () → svc.operatorConfig isFloat db = .ok c →
        p.Settles svc prepare c db := by
  unfold Service.setAedtPoolLimit
  cases hcheck : checkPayload p with
  | error e =>
    constructor
    · intro _ c hok
      cases hok
    · intro _ key
      rfl
  | ok u =>
    refine (meets_response (o := svc.applyPatch isFloat prepare p db)).trans ?_
    cases hread : svc.operatorConfig isFloat db with
    | error e =>
      obtain ⟨e', happly⟩ : ∃ e', svc.applyPatch isFloat prepare p db = (.error e', db) :=
        applyPatch_of_unreadable hcheck hread
      rw [happly]
      constructor
      · intro _ c _ hok
        cases hok
      · intro _ key
        rfl
    | ok c =>
      have hmeets : svc.Meets isFloat p db (svc.applyPatch isFloat prepare p db) ↔
          p.Settles svc prepare c db := by
        cases hkeys : p.hasAny OperatorKey.limitKeys with
        | false => exact meets_of_no_limits hstrip hcheck hread hkeys
        | true => exact meets_of_limits hstrip hcheck hread hkeys
      refine hmeets.trans ?_
      constructor
      · intro h c' _ hc'
        cases hc'
        exact h
      · intro h
        exact h c rfl rfl

end Atomicity

def operatorService : Service := { sampleService with strip := strip }

def idlePass : Service.Preparation := fun db ↦
  .ok ({ cfg := { enabled := false }, now := 0, clock := 0, seen := db }, { execute := true })

theorem idlePass_passes (l : Limits) :
    ¬ operatorService.PassRaises idlePass (putSettings l.settings {}) := by
  rw [Service.PassRaises]
  intro h
  cases h

def tenSessions : Payload := [("max_aedt_sessions", .int 10)]

theorem tenSessions_settle (c : OperatorConfig) :
    tenSessions.Settles operatorService idlePass c {} := by
  have hlimits : tenSessions.hasAny OperatorKey.limitKeys = true := by decide
  have htimeouts : tenSessions.hasAny OperatorKey.timeoutKeys = false := by decide
  intro db₁ hstored
  rw [Payload.StoresLimits, if_pos hlimits] at hstored
  obtain ⟨l, -, rfl⟩ := hstored
  simp only [Payload.StoresTimeouts, htimeouts, Bool.false_eq_true, if_false]
  refine ⟨fun hrejected ↦ absurd rfl (hrejected _), ?_⟩
  intro db₂ hsame
  subst hsame
  refine ⟨fun hraises ↦ absurd hraises (idlePass_passes l), fun _ hnone ↦ ?_⟩
  rw [hlimits] at hnone
  cases hnone

theorem patch_atomic_of_limits :
    (∀ c, tenSessions.Settles operatorService idlePass c {}) ∧
      operatorService.Meets anyFloat tenSessions {}
        (operatorService.setAedtPoolLimit anyFloat idlePass tenSessions {}) := by
  have hatomic : operatorService.Meets anyFloat tenSessions {}
        (operatorService.setAedtPoolLimit anyFloat idlePass tenSessions {}) ↔
      ∀ c, checkPayload tenSessions = .ok () → operatorService.operatorConfig anyFloat {} = .ok c →
        tenSessions.Settles operatorService idlePass c {} := patch_atomic_iff rfl
  rw [hatomic]
  exact ⟨tenSessions_settle, fun c _ _ ↦ tenSessions_settle c⟩

/-- The limits are stored before the timeouts are looked at. -/
theorem rejected_patch_stores_limits :
    let p : Payload := [("max_aedt_sessions", .int 10), ("lease_ttl_seconds", .int 1)]
    let outcome := operatorService.setAedtPoolLimit anyFloat idlePass p {}
    outcome.1 = .error (.unprocessable "lease_ttl_seconds must be an integer between 60 and 3600") ∧
      outcome.2.stored "aedt_pool_max_sessions" = some "10" ∧
      ({} : Db).stored "aedt_pool_max_sessions" = none ∧
      ¬ operatorService.Meets anyFloat p {} outcome := by
  refine ⟨rfl, rfl, rfl, ?_⟩
  intro h
  have hstored := h "aedt_pool_max_sessions"
  revert hstored
  decide

end SlurmScheduler.Pool
