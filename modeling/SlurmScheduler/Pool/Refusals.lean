import SlurmScheduler.Pool.CloseOrders

namespace SlurmScheduler.Pool

open Relational Tx

def PoolError.status : PoolError → ℕ
  | .permission _ => 403
  | .key _ => 404
  | .value _ => 409
  | .runtime _ => 500
  | .integrity _ => 500

def transientHttpStatuses : List ℕ := [408, 425, 429]

def retryable (status : ℕ) : Bool :=
  transientHttpStatuses.contains status || (decide (500 ≤ status) && decide (status < 600))

def Refusal (e : PoolError) : Prop := retryable e.status = false

instance : DecidablePred Refusal := fun e ↦ inferInstanceAs (Decidable (retryable e.status = false))

@[simp] theorem refusal_value {message : String} : Refusal (.value message) := rfl

@[simp] theorem refusal_key {id : ℕ} : Refusal (.key id) := rfl

@[simp] theorem refusal_permission {message : String} : Refusal (.permission message) := rfl

@[simp] theorem not_refusal_runtime {message : String} : ¬ Refusal (.runtime message) := by
  rintro ⟨⟩

variable {svc : Service} {env : Env} {db : Db} {sid : ℕ} {token : String} {α : Type}

theorem refreshExactSessionReservations_avoids (now : Time) :
    (refreshExactSessionReservations now).Avoids Refusal := by
  refine Avoids.bind ?_ fun _ ↦ Avoids.bind ?_ fun _ ↦ avoids_write.bind fun _ ↦
    avoids_write.bind fun _ ↦ ?_
  · refine avoids_read.bind fun rows ↦ (avoids_fold fun failedKeys row ↦ ?_).bind fun _ ↦ avoids_pure
    exact avoids_ite (fun _ ↦ avoids_pure) fun _ ↦ avoids_write.bind fun _ ↦ avoids_pure
  · exact avoids_read.bind fun keys ↦ avoids_forEach fun _ _ ↦ avoids_write
  · exact avoids_read.bind fun keys ↦ avoids_forEach fun _ _ ↦
      avoids_read.bind fun _ ↦ avoids_write

theorem refreshMixedCanaryAdmissions_avoids (now : Time) :
    (refreshMixedCanaryAdmissions now).Avoids Refusal :=
  avoids_read.bind fun _ ↦ (avoids_forEach fun _ _ ↦ avoids_write).bind fun _ ↦ avoids_write

/-- A pass that cannot place a lease as planned is an error of the server. -/
theorem placeLease_avoids {cfg : AedtPoolConfig} {now clock : Time} {l : Lease} :
    (placeLease cfg now clock l).Avoids Refusal := by
  refine avoids_read.bind fun terminal ↦ avoids_read.bind fun admitted ↦
    avoids_ite (fun _ ↦ avoids_pure) fun _ ↦ avoids_read.bind fun selected ↦ ?_
  cases selected with
  | none => exact avoids_pure
  | some s =>
      refine avoids_read.bind fun slot ↦ Avoids.bind ?_ fun slot ↦ avoids_read.bind fun queued ↦ ?_
      · cases slot with
        | none => exact fun _ h ↦ not_refusal_runtime (raises_fail.mp h)
        | some slot => exact avoids_pure
      · refine avoids_ite (fun _ ↦ avoids_read.bind fun _ ↦ ?_) fun _ ↦ avoids_pure
        exact (avoids_require not_refusal_runtime).bind fun _ ↦ avoids_write

theorem placeQueuedLeases_avoids {cfg : AedtPoolConfig} {now clock : Time}
    {leaseIds : Option (List ℕ)} {refreshReservations : Bool} :
    (placeQueuedLeases cfg now clock leaseIds refreshReservations).Avoids Refusal := by
  refine avoids_ite (fun _ ↦ avoids_pure) fun _ ↦
    (refreshMixedCanaryAdmissions_avoids now).bind fun _ ↦ ?_
  have hplace : ∀ queued : List Lease,
      (Tx.forEach queued (placeLease cfg now clock)).Avoids Refusal :=
    fun _ ↦ avoids_forEach fun _ _ ↦ placeLease_avoids
  have hcursor : Avoids (do
      let queued ← PoolTx.read (·.placementBatch cfg now leaseIds)
      if leaseIds.isNone then
        PoolTx.write (.advanceCursor ((queued.getLast?.map (·.id)).getD 0))
      Tx.forEach queued (placeLease cfg now clock) : PoolTx Unit) Refusal :=
    avoids_read.bind fun queued ↦
      avoids_ite (fun _ ↦ avoids_write.bind fun _ ↦ hplace queued) fun _ ↦ hplace queued
  exact avoids_ite (fun _ ↦ (refreshExactSessionReservations_avoids now).bind fun _ ↦ hcursor)
    fun _ ↦ hcursor

theorem raises_lift {r : Except PoolError α} {E : PoolError → Prop} :
    (PoolTx.lift r).Raises E db ↔ ∃ e, r = .error e ∧ E e := by
  cases r <;> simp [PoolTx.lift]

theorem returns_lift {r : Except PoolError α} {Q : α → Db → Prop} :
    (PoolTx.lift r).Returns Q db ↔ ∃ a, r = .ok a ∧ Q a db := by
  cases r <;> simp [PoolTx.lift]

theorem authorizeSession_refused : (∃ e, svc.authorizeSession db sid token = .error e ∧ Refusal e) ↔
    (svc.authorizeSession db sid token).toOption = none := by
  unfold Service.authorizeSession
  cases db.sessions.find? sid with
  | none => simp [Except.toOption]
  | some s =>
      dsimp only
      split <;> simp [Except.toOption]

/-- `_validate_session_heartbeat`, when it does not raise -/
def Service.admits (svc : Service) (s : Session) (q : SessionHeartbeat) : Bool :=
  (s.state.serving || s.state == .unhealthy) && q.livenessConfirmed &&
  (q.processId == "" || svc.strip q.processId == s.processId) &&
  (q.port == 0 || q.port == svc.endpointPort s.endpoint) &&
  (q.nativeProbe == "" || q.nativeProbe == "GetVersion")

theorem raises_validate {s : Session} {q : SessionHeartbeat} :
    (svc.validateSessionHeartbeat s q).Raises Refusal db ↔ svc.admits s q = false := by
  simp only [Service.validateSessionHeartbeat, PoolTx.check, raises_bind, raises_require,
    returns_require, refusal_value, Service.admits, Bool.and_eq_false_iff]
  grind

theorem returns_validate {s : Session} {q : SessionHeartbeat} {Q : Unit → Db → Prop} :
    (svc.validateSessionHeartbeat s q).Returns Q db ↔ svc.admits s q = true ∧ Q () db := by
  simp only [Service.validateSessionHeartbeat, PoolTx.check, returns_bind,
    returns_require, Service.admits, Bool.and_eq_true]
  grind

def Session.rested (s : Session) (env : Env) : Bool :=
  s.state.assignable && s.failureMessage == "" && s.quarantineReason == "" &&
    s.reuseBlockedAt.isNone &&
    heartbeatIsFresh s.lastHeartbeatAt env.now
      (heartbeatPersistInterval env.cfg.sessionHeartbeatTimeoutSeconds s.id)

/-- The heartbeat is admitted before the transaction, and again in it if it has to be written. -/
def Service.acceptsHeartbeat (svc : Service) (env : Env) (db : Db) (sid : ℕ) (token : String)
    (q : SessionHeartbeat) : Bool :=
  (svc.authorizeSession env.seen sid token).toOption.any fun candidate ↦
    svc.admits candidate q && (candidate.rested env ||
      (svc.authorizeSession db sid token).toOption.any (svc.admits · q))

theorem authorizeSession_id {s : Session} (h : svc.authorizeSession db sid token = .ok s) :
    s.id = sid := (find?_session (authorizeSession_eq_ok.mp h).1).2

theorem recordHeartbeat_avoids {s : Session} {operational cleared : Bool} : Avoids (do
      if s.reuseBlockedAt.isSome then PoolTx.write (.clearReuseBarrier sid env.now)
      let recoverable ← PoolTx.read (·.recoverableAllocation s)
      if operational && s.state == .unhealthy && recoverableMessage s.failureMessage &&
          s.quarantineReason == "" && recoverable then
        PoolTx.write (.recoverSession sid env.now)
        let unhealthy ← PoolTx.read (·.allocationUnhealthy s.allocationId)
        if !unhealthy then PoolTx.write (.restoreAllocation s.allocationId env.now)
      else PoolTx.write (.touchSession sid env.now)
      if cleared && operational then placeQueuedLeases env.cfg env.now env.clock none true :
        PoolTx Unit) Refusal := by
  have hplace : Avoids (if cleared && operational then
      placeQueuedLeases env.cfg env.now env.clock none true else pure () : PoolTx Unit) Refusal :=
    avoids_ite (fun _ ↦ placeQueuedLeases_avoids) fun _ ↦ avoids_pure
  have hrecord : Avoids (do
      let recoverable ← PoolTx.read (·.recoverableAllocation s)
      if operational && s.state == .unhealthy && recoverableMessage s.failureMessage &&
          s.quarantineReason == "" && recoverable then
        PoolTx.write (.recoverSession sid env.now)
        let unhealthy ← PoolTx.read (·.allocationUnhealthy s.allocationId)
        if !unhealthy then PoolTx.write (.restoreAllocation s.allocationId env.now)
      else PoolTx.write (.touchSession sid env.now)
      if cleared && operational then placeQueuedLeases env.cfg env.now env.clock none true :
        PoolTx Unit) Refusal := by
    refine avoids_read.bind fun recoverable ↦ avoids_ite (fun _ ↦ ?_) fun _ ↦
      avoids_write.bind fun _ ↦ hplace
    refine avoids_write.bind fun _ ↦ avoids_read.bind fun unhealthy ↦ ?_
    exact avoids_ite (fun _ ↦ avoids_write.bind fun _ ↦ hplace) fun _ ↦ hplace
  exact avoids_ite (fun _ ↦ avoids_write.bind fun _ ↦ hrecord) fun _ ↦ hrecord

theorem heartbeatSession_refused {q : SessionHeartbeat} :
    (svc.heartbeatSession env sid token q).Raises Refusal db ↔
      svc.acceptsHeartbeat env db sid token q = false := by
  unfold Service.heartbeatSession Service.acceptsHeartbeat
  rw [raises_bind, raises_lift, returns_lift, authorizeSession_refused]
  cases hseen : svc.authorizeSession env.seen sid token with
  | error e => simp [Except.toOption]
  | ok candidate =>
      simp only [Except.toOption, reduceCtorEq, false_or, Except.ok.injEq, exists_eq_left',
        Option.any_some, raises_bind, raises_validate, returns_validate]
      cases hadmits : svc.admits candidate q with
      | false => simp
      | true =>
          simp only [Bool.true_eq_false, false_or, true_and, Bool.true_and]
          have hrested : candidate.rested env = (candidate.state.assignable &&
              candidate.failureMessage == "" && candidate.quarantineReason == "" &&
              candidate.reuseBlockedAt.isNone && heartbeatIsFresh candidate.lastHeartbeatAt env.now
                (heartbeatPersistInterval env.cfg.sessionHeartbeatTimeoutSeconds sid)) := by
            rw [Session.rested, authorizeSession_id hseen]
          rw [← hrested, raises_ite, raises_pure]
          cases candidate.rested env with
          | true => simp
          | false =>
              simp only [Bool.false_eq_true, false_and, false_or, not_false_eq_true, true_and,
                Bool.false_or]
              rw [raises_bind, PoolTx.read, raises_read, returns_read, false_or, raises_bind,
                raises_lift, returns_lift, authorizeSession_refused]
              cases svc.authorizeSession db sid token with
              | error e => simp [Except.toOption]
              | ok s =>
                  simp only [Except.toOption, reduceCtorEq, false_or, Except.ok.injEq,
                    exists_eq_left', Option.any_some]
                  rw [raises_bind, raises_validate, returns_validate]
                  refine or_iff_left fun hraises ↦ Avoids.bind avoids_read (fun operational ↦ ?_) db
                    hraises.2
                  exact avoids_read.bind fun cleared ↦ recordHeartbeat_avoids

def Service.acceptsRelease (svc : Service) (env : Env) (db : Db) (sid : ℕ) (token : String)
    (leaseId : ℕ) (success : Bool) (failureMessage : String) : Bool :=
  (svc.authorizeSession env.seen sid token).toOption.isSome &&
  (db.leases.find? leaseId).any fun l ↦ l.sessionId == some sid &&
    (l.state == .releasing || (l.state == (if success then .released else .failed) &&
      l.failureMessage == if success then "" else svc.strip failureMessage))

theorem completeRelease_refused {leaseId : ℕ} {success : Bool} {failureMessage : String} :
    (svc.completeRelease env sid token leaseId success failureMessage).Raises Refusal db ↔
      svc.acceptsRelease env db sid token leaseId success failureMessage = false := by
  unfold Service.completeRelease Service.acceptsRelease
  rw [raises_bind, raises_lift, returns_lift, authorizeSession_refused]
  cases svc.authorizeSession env.seen sid token with
  | error e => simp [Except.toOption]
  | ok s =>
      simp only [Except.toOption, reduceCtorEq, false_or, Except.ok.injEq, exists_eq_left',
        Option.isSome_some, Bool.true_and]
      rw [raises_bind, PoolTx.read, raises_read, returns_read, false_or]
      cases db.leases.find? leaseId with
      | none => simp [PoolTx.require]
      | some l =>
          by_cases hsid : l.sessionId = some sid
          · have hfilter : (some l).filter (·.sessionId == some sid) = some l := by simp [hsid]
            rw [hfilter, PoolTx.require, raises_bind, raises_pure, returns_pure, false_or, raises_ite]
            by_cases hrel : l.state = .releasing
            · have htail : Avoids (do
                  PoolTx.write (.completeRelease sid leaseId success
                    (if success then "" else svc.strip failureMessage) env.now)
                  refreshExactSessionReservations env.now
                  if env.cfg.operational then
                    placeQueuedLeases env.cfg env.now env.clock none true : PoolTx Unit) Refusal := by
                refine avoids_write.bind fun _ ↦
                  (refreshExactSessionReservations_avoids env.now).bind fun _ ↦ ?_
                exact avoids_ite (fun _ ↦ placeQueuedLeases_avoids) fun _ ↦ avoids_pure
              simp [hsid, hrel, htail db]
            · simp [hsid, hrel, PoolTx.check]
          · have hfilter : (some l).filter (·.sessionId == some sid) = none := by simp [hsid]
            rw [hfilter]
            simp [hsid, PoolTx.require]

def Service.acceptsFault (svc : Service) (env : Env) (sid : ℕ) (token : String)
    (fault : SessionFault) : Bool :=
  (svc.authorizeSession env.seen sid token).toOption.isSome &&
    (SessionFaultKind.parse (svc.lower (svc.strip fault.kind))).isSome

theorem reportSessionFault_refused {fault : SessionFault} :
    (svc.reportSessionFault env sid token fault).Raises Refusal db ↔
      svc.acceptsFault env sid token fault = false := by
  unfold Service.reportSessionFault Service.acceptsFault
  rw [raises_bind, raises_lift, returns_lift, authorizeSession_refused]
  cases svc.authorizeSession env.seen sid token with
  | error e => simp [Except.toOption]
  | ok s =>
      cases SessionFaultKind.parse (svc.lower (svc.strip fault.kind)) with
      | none => simp [Except.toOption, PoolTx.require]
      | some kind => cases kind <;> simp [Except.toOption, PoolTx.require, PoolTx.read, PoolTx.write]

theorem sessionCommands_refused : (∃ e, svc.sessionCommands env db sid token = .error e ∧
    Refusal e) ↔ (svc.authorizeSession env.seen sid token).toOption.isSome = false := by
  rw [Option.isSome_eq_false_iff, Option.isNone_iff_eq_none, ← authorizeSession_refused]
  unfold Service.sessionCommands
  cases svc.authorizeSession env.seen sid token with
  | error e => simp [bind, Except.bind]
  | ok s => simp [bind, Except.bind, pure, Except.pure]

end SlurmScheduler.Pool
