import SlurmScheduler.Pool.Plan
import SlurmScheduler.Pool.Scripts

namespace SlurmScheduler.Pool

open Relational PoolTx

structure OnlyWrites (W : Write → Prop) {α : Type} (m : PoolTx α) : Prop where
  guarded : Tx.Guarded (fun _ w ↦ W w) m

namespace OnlyWrites

variable {W W' : Write → Prop} {α β : Type}

theorem mono {m : PoolTx α} (h : OnlyWrites W m) (hW : ∀ w, W w → W' w) : OnlyWrites W' m :=
  ⟨h.guarded.mono fun _ ↦ hW⟩

theorem bind {m : PoolTx α} {k : α → PoolTx β} (h : OnlyWrites W m)
    (hk : ∀ a, OnlyWrites W (k a)) : OnlyWrites W (m >>= k) :=
  ⟨h.guarded.bind fun a ↦ (hk a).guarded⟩

theorem ret {a : α} : OnlyWrites W (pure a : PoolTx α) := ⟨.ret⟩

theorem fail {e : PoolError} : OnlyWrites W (Tx.fail e : PoolTx α) := ⟨.fail⟩

theorem read {f : Db → α} : OnlyWrites W (PoolTx.read f) := ⟨.read⟩

theorem write {w : Write} (h : W w) : OnlyWrites W (PoolTx.write w) := ⟨.write fun _ ↦ h⟩

theorem assert {c : Bool} {e : PoolError} : OnlyWrites W (Tx.require c e : PoolTx Unit) := by
  cases c
  · exact fail
  · exact ret

theorem check {c : Bool} {message : String} : OnlyWrites W (PoolTx.check c message) := assert

theorem require {o : Option α} {e : PoolError} : OnlyWrites W (PoolTx.require o e) := by
  cases o
  · exact fail
  · exact ret

theorem lift {r : Except PoolError α} : OnlyWrites W (PoolTx.lift r) := by
  cases r
  · exact fail
  · exact ret

theorem when {c : Bool} {m : PoolTx Unit} (h : OnlyWrites W m) : OnlyWrites W (PoolTx.when c m) :=
  ⟨guarded_when h.guarded⟩

theorem void {m : PoolTx α} (h : OnlyWrites W m) : OnlyWrites W m.void := h.bind fun _ ↦ ret

theorem forEach {bs : List β} {f : β → PoolTx Unit} (h : ∀ b, OnlyWrites W (f b)) :
    OnlyWrites W (Tx.forEach bs f) := ⟨.forEach fun b _ ↦ (h b).guarded⟩

theorem fold {bs : List β} {a : α} {f : α → β → PoolTx α} (h : ∀ a b, OnlyWrites W (f a b)) :
    OnlyWrites W (Tx.fold bs a f) := ⟨.fold fun a b _ ↦ (h a b).guarded⟩

end OnlyWrites

def Write.routine : Write → Prop
  | .startSession .. => False
  | .claimStart .. => False
  | .registerSession .. => False
  | .admitLease .. => False
  | .bindProjectName .. => False
  | _ => True

/-- `P` holds of what the write sets `expires_at` and `last_heartbeat_at` of a lease to. -/
def Write.renews (P : Time → Time → Prop) : Write → Prop
  | .admitLease q _ _ now => P q.expiresAt now
  | .revokeOffer _ expires now => P expires now
  | .attachLease _ expires now => P expires now
  | .heartbeatLease _ _ _ _ expires _ now => P expires now
  | .activateLease _ _ expires now => P expires now
  | .renewWaiting _ _ expires now => P expires now
  | .completePipeline _ _ _ _ expires now => P expires now
  | .closeSession _ _ _ _ expires now => P expires now
  | _ => True

theorem renews_any (w : Write) : w.renews fun _ _ ↦ True := by
  cases w
  all_goals trivial

def Env.renewal (env : Env) (expires now : Time) : Prop :=
  now = env.now ∧
    (expires = env.now + env.cfg.leaseTtlSeconds ∨ expires = env.clock + env.cfg.leaseTtlSeconds)

abbrev Routine {α : Type} (m : PoolTx α) : Prop := OnlyWrites Write.routine m

/-- The transaction executes routine writes only, and renews leases as `P` says. -/
abbrev Renews (P : Time → Time → Prop) {α : Type} (m : PoolTx α) : Prop :=
  OnlyWrites (fun w ↦ w.routine ∧ w.renews P) m

variable {P : Time → Time → Prop}

theorem OnlyWrites.routine {α : Type} {m : PoolTx α} (h : Renews P m) : Routine m :=
  h.mono fun _ hw ↦ hw.1

theorem refreshExactSessionReservations_renews (now : Time) :
    Renews P (refreshExactSessionReservations now) := by
  unfold refreshExactSessionReservations failTerminalSiblings expireCohorts failInvalidTargets
  repeat' first
    | intro _
    | with_reducible apply OnlyWrites.bind
    | with_reducible apply OnlyWrites.forEach
    | with_reducible apply OnlyWrites.fold
    | with_reducible exact .read
    | with_reducible exact .ret
    | exact .write ⟨trivial, trivial⟩
    | split

theorem refreshMixedCanaryAdmissions_renews (now : Time) :
    Renews P (refreshMixedCanaryAdmissions now) := by
  unfold refreshMixedCanaryAdmissions
  refine .bind .read fun candidates ↦ .bind (.forEach fun a ↦ ?_) fun _ ↦ ?_
  · exact .write ⟨trivial, trivial⟩
  · exact .write ⟨trivial, trivial⟩

theorem placeQueuedLeases_renews (cfg : AedtPoolConfig) (now clock : Time)
    (leaseIds : Option (List ℕ)) (refresh : Bool) :
    Renews P (placeQueuedLeases cfg now clock leaseIds refresh) := by
  unfold placeQueuedLeases placeLease
  repeat' first
    | intro _
    | with_reducible apply OnlyWrites.bind
    | with_reducible apply OnlyWrites.forEach
    | with_reducible exact .read
    | with_reducible exact .require
    | with_reducible exact .assert
    | with_reducible exact .ret
    | with_reducible exact refreshExactSessionReservations_renews now
    | with_reducible exact refreshMixedCanaryAdmissions_renews now
    | exact .write ⟨trivial, trivial⟩
    | split

theorem grantSolveBatchIfReady_renews (svc : Service) (sid : ℕ) (now : Time) (underfilled : Bool) :
    Renews P (grantSolveBatchIfReady svc sid now underfilled) := by
  unfold grantSolveBatchIfReady
  repeat' first
    | intro _
    | with_reducible apply OnlyWrites.bind
    | with_reducible exact .read
    | with_reducible exact .ret
    | with_reducible exact refreshExactSessionReservations_renews now
    | with_reducible exact refreshMixedCanaryAdmissions_renews now
    | exact .write ⟨trivial, trivial⟩
    | split

theorem beforePlan_renews (svc : Service) (env : Env) (args : ReconcileArgs) :
    Renews P (svc.beforePlan env args) := by
  unfold Service.beforePlan refreshZeroOwnerDrainingSessions retireBlockedStarts
    drainPressuredAccounts rotateAgedAllocations endTerminalTasks requeueStaleOffers expireLeases
    recycleUnhealthySessions reviveAllocations
  repeat' first
    | intro _
    | with_reducible apply OnlyWrites.bind
    | with_reducible apply OnlyWrites.when
    | with_reducible apply OnlyWrites.forEach
    | with_reducible apply OnlyWrites.fold
    | with_reducible exact .read
    | with_reducible exact .ret
    | with_reducible exact refreshExactSessionReservations_renews env.now
    | with_reducible exact placeQueuedLeases_renews ..
    | exact .write ⟨trivial, trivial⟩
    | split
    | unfold refreshZeroOwnerDrainingSessions

theorem createExactSessionReservation_renews (svc : Service) (cfg : AedtPoolConfig) (now : Time)
    (q : ReservationRequest) :
    Renews P (svc.createExactSessionReservation cfg now q) := by
  unfold Service.createExactSessionReservation
  repeat' first
    | intro _
    | with_reducible apply OnlyWrites.bind
    | with_reducible exact .read
    | with_reducible exact .ret
    | with_reducible exact .require
    | with_reducible exact .assert
    | with_reducible exact .lift
    | with_reducible exact .check
    | with_reducible exact refreshExactSessionReservations_renews ..
    | with_reducible exact refreshMixedCanaryAdmissions_renews ..
    | exact .write ⟨trivial, trivial⟩
    | split

theorem reserveDesktop_renews (svc : Service) (cfg : AedtPoolConfig) (now : Time) (q : PreparationRequest)
    (profile family : String) (policy : IsolationPolicy) (route : TaskRoute) :
    Renews P (reserveDesktop svc cfg now q profile family policy route) := by
  unfold reserveDesktop
  repeat' first
    | intro _
    | with_reducible apply OnlyWrites.bind
    | with_reducible exact .read
    | with_reducible exact .ret
    | with_reducible exact .require
    | with_reducible exact .assert
    | with_reducible exact .lift
    | with_reducible exact .check
    | exact .write ⟨trivial, trivial⟩
    | split

theorem preparePooledTaskSession_renews (svc : Service) (cfg : AedtPoolConfig) (now : Time)
    (q : PreparationRequest) :
    Renews P (svc.preparePooledTaskSession cfg now q) := by
  unfold Service.preparePooledTaskSession
  repeat' first
    | intro _
    | with_reducible apply OnlyWrites.bind
    | with_reducible exact .read
    | with_reducible exact .ret
    | with_reducible exact .require
    | with_reducible exact .assert
    | with_reducible exact .lift
    | with_reducible exact .check
    | with_reducible exact refreshExactSessionReservations_renews ..
    | with_reducible exact reserveDesktop_renews ..
    | exact .write ⟨trivial, trivial⟩
    | split
    | dsimp only

theorem createMixedCanaryAdmission_renews (svc : Service) (now : Time) (q : CanaryRequest) :
    Renews P (svc.createMixedCanaryAdmission now q) := by
  unfold Service.createMixedCanaryAdmission
  repeat' first
    | intro _
    | with_reducible apply OnlyWrites.bind
    | with_reducible exact .read
    | with_reducible exact .ret
    | with_reducible exact .require
    | with_reducible exact .assert
    | with_reducible exact .lift
    | with_reducible exact .check
    | with_reducible exact refreshMixedCanaryAdmissions_renews ..
    | exact .write ⟨trivial, trivial⟩

theorem supersede_renews (requestKey : String) (old : Lease) (now : Time) :
    Renews P (supersede requestKey old now) := by
  unfold supersede
  repeat' first
    | intro _
    | with_reducible apply OnlyWrites.bind
    | with_reducible exact .read
    | with_reducible exact .assert
    | with_reducible exact .check
    | exact .write ⟨trivial, trivial⟩
    | split

theorem resolveAffinity_renews (svc : Service) (taskId allocationId : ℕ) (nodeName : String) :
    Renews P (resolveAffinity svc taskId allocationId nodeName) := by
  unfold resolveAffinity
  repeat' first
    | intro _
    | with_reducible apply OnlyWrites.bind
    | with_reducible exact .read
    | with_reducible exact .ret
    | with_reducible exact .check
    | split

theorem authorizeExactSessionReservation_renews (taskId requestedSessionId : ℕ)
    (profile family : String) (policy : IsolationPolicy) (requestKey tokenHash : String)
    (now cutoff : Time) :
    Renews P (authorizeExactSessionReservation taskId requestedSessionId profile family policy
      requestKey tokenHash now cutoff) := by
  unfold authorizeExactSessionReservation
  repeat' first
    | intro _
    | with_reducible apply OnlyWrites.bind
    | with_reducible exact .read
    | with_reducible exact .ret
    | with_reducible exact .require
    | with_reducible exact .assert
    | with_reducible exact .lift
    | with_reducible exact .check
    | exact .write ⟨trivial, trivial⟩
    | split

theorem authorizeCanary_renews (required reserved : Bool) (taskId : ℕ)
    (requestKey tokenHash family projectNamespace profile : String) (protocolVersion : ℕ)
    (now : Time) :
    Renews P (authorizeCanary required reserved taskId requestKey tokenHash family projectNamespace
      profile protocolVersion now) := by
  unfold authorizeCanary authorizeMixedCanaryLease
  repeat' first
    | intro _
    | with_reducible apply OnlyWrites.bind
    | with_reducible exact .read
    | with_reducible exact .ret
    | with_reducible exact .require
    | with_reducible exact .assert
    | with_reducible exact .lift
    | with_reducible exact .check
    | exact .write ⟨trivial, trivial⟩
    | split

theorem heartbeatLease_renews (svc : Service) (env : Env) (leaseId : ℕ) (token phase : String) :
    Renews env.renewal (svc.heartbeatLease env leaseId token phase) := by
  unfold Service.heartbeatLease getLease
  repeat' first
    | intro _
    | with_reducible apply OnlyWrites.bind
    | with_reducible exact .read
    | with_reducible exact .ret
    | with_reducible exact .require
    | with_reducible exact .check
    | with_reducible exact .lift
    | with_reducible exact placeQueuedLeases_renews ..
    | exact .write ⟨trivial, rfl, .inl rfl⟩
    | exact .write ⟨trivial, trivial⟩
    | split

theorem acceptLease_renews (svc : Service) (env : Env) (leaseId : ℕ) (token : String) :
    Renews env.renewal (svc.acceptLease env leaseId token) := by
  unfold Service.acceptLease getLease
  repeat' first
    | intro _
    | with_reducible apply OnlyWrites.bind
    | with_reducible exact .read
    | with_reducible exact .ret
    | with_reducible exact .require
    | with_reducible exact .assert
    | with_reducible exact .check
    | with_reducible exact .lift
    | exact .write ⟨trivial, rfl, .inl rfl⟩
    | exact .write ⟨trivial, trivial⟩
    | split

theorem activateLease_renews (svc : Service) (env : Env) (leaseId : ℕ) (token : String) :
    Renews env.renewal (svc.activateLease env leaseId token) := by
  unfold Service.activateLease getLease
  repeat' first
    | intro _
    | with_reducible apply OnlyWrites.bind
    | with_reducible exact .read
    | with_reducible exact .require
    | with_reducible exact .check
    | with_reducible exact .lift
    | with_reducible exact grantSolveBatchIfReady_renews ..
    | exact .write ⟨trivial, rfl, .inl rfl⟩
    | exact .write ⟨trivial, trivial⟩
    | split

theorem requestSolvePermit_renews (svc : Service) (env : Env) (leaseId : ℕ) (token : String)
    (sealUnderfilled : Bool) :
    Renews env.renewal (svc.requestSolvePermit env leaseId token sealUnderfilled) := by
  unfold Service.requestSolvePermit getLease
  repeat' first
    | intro _
    | with_reducible apply OnlyWrites.bind
    | with_reducible exact .read
    | with_reducible exact .require
    | with_reducible exact .check
    | with_reducible exact .lift
    | with_reducible exact grantSolveBatchIfReady_renews ..
    | exact .write ⟨trivial, rfl, .inl rfl⟩

theorem completeNativePipeline_renews (svc : Service) (env : Env) (leaseId : ℕ) (token : String)
    (generation : ℕ) :
    Renews env.renewal (svc.completeNativePipeline env leaseId token generation) := by
  unfold Service.completeNativePipeline getLease
  repeat' first
    | intro _
    | with_reducible apply OnlyWrites.bind
    | with_reducible exact .read
    | with_reducible exact .require
    | with_reducible exact .check
    | with_reducible exact .lift
    | exact .write ⟨trivial, rfl, .inl rfl⟩

theorem cancelLease_renews (svc : Service) (env : Env) (leaseId : ℕ) (token reason : String) :
    Renews P (svc.cancelLease env leaseId token reason) := by
  unfold Service.cancelLease getLease
  repeat' first
    | intro _
    | with_reducible apply OnlyWrites.bind
    | with_reducible exact .read
    | with_reducible exact .ret
    | with_reducible exact .require
    | with_reducible exact .lift
    | exact .write ⟨trivial, trivial⟩
    | split
    | dsimp only

theorem reportProjectFault_renews (svc : Service) (env : Env) (leaseId : ℕ) (token : String)
    (fault : ProjectFault) : ∀ m ∈ svc.reportProjectFault env leaseId token fault, Renews P m := by
  have hcancel : ∀ reason, Renews P (do
      let _ ← svc.cancelLease env leaseId token reason) :=
    fun reason ↦ (cancelLease_renews svc env leaseId token reason).bind fun _ ↦ .ret
  unfold Service.reportProjectFault
  dsimp only
  repeat' first
    | with_reducible exact List.forall_mem_nil _
    | with_reducible exact hcancel _
    | exact .write ⟨trivial, trivial⟩
    | split
    | refine List.forall_mem_cons.mpr ⟨?_, ?_⟩

theorem failSessionStart_renews (svc : Service) (env : Env) (sid : ℕ) (hostId token : String)
    (failure : StartFailure) :
    Renews P (svc.failSessionStart env sid hostId token failure) := by
  unfold Service.failSessionStart Service.authorizeBootstrap
  repeat' first
    | intro _
    | with_reducible apply OnlyWrites.bind
    | with_reducible exact .read
    | with_reducible exact .assert
    | with_reducible exact .check
    | exact .write ⟨trivial, trivial⟩

theorem bindSessionHostTask_renews (env : Env) (sid taskId : ℕ) :
    Renews P (bindSessionHostTask env sid taskId) := by
  unfold bindSessionHostTask
  repeat' first
    | intro _
    | with_reducible apply OnlyWrites.bind
    | with_reducible exact .read
    | with_reducible exact .require
    | with_reducible exact .check
    | exact .write ⟨trivial, trivial⟩

theorem heartbeatSession_renews (svc : Service) (env : Env) (sid : ℕ) (token : String)
    (q : SessionHeartbeat) :
    Renews P (svc.heartbeatSession env sid token q) := by
  unfold Service.heartbeatSession Service.validateSessionHeartbeat
  repeat' first
    | intro _
    | with_reducible apply OnlyWrites.bind
    | with_reducible exact .read
    | with_reducible exact .ret
    | with_reducible exact .check
    | with_reducible exact .lift
    | with_reducible exact placeQueuedLeases_renews ..
    | exact .write ⟨trivial, trivial⟩
    | split

theorem completeRelease_renews (svc : Service) (env : Env) (sid : ℕ) (token : String) (leaseId : ℕ)
    (success : Bool) (message : String) :
    Renews P (svc.completeRelease env sid token leaseId success message) := by
  unfold Service.completeRelease
  repeat' first
    | intro _
    | with_reducible apply OnlyWrites.bind
    | with_reducible exact .read
    | with_reducible exact .ret
    | with_reducible exact .require
    | with_reducible exact .check
    | with_reducible exact .lift
    | with_reducible exact refreshExactSessionReservations_renews ..
    | with_reducible exact placeQueuedLeases_renews ..
    | exact .write ⟨trivial, trivial⟩
    | split

theorem reportSessionFault_renews (svc : Service) (env : Env) (sid : ℕ) (token : String)
    (fault : SessionFault) :
    Renews P (svc.reportSessionFault env sid token fault) := by
  unfold Service.reportSessionFault
  repeat' first
    | intro _
    | with_reducible apply OnlyWrites.bind
    | with_reducible exact .read
    | with_reducible exact .require
    | with_reducible exact .lift
    | exact .write ⟨trivial, trivial⟩
    | split

theorem reapDeadSession_renews (svc : Service) (env : Env) (sid : ℕ) (expected : DeadIdentity)
    (absent : Bool) :
    Renews P (svc.reapDeadSession env sid expected absent) := by
  unfold Service.reapDeadSession
  repeat' first
    | intro _
    | with_reducible apply OnlyWrites.bind
    | with_reducible exact .read
    | with_reducible exact .lift
    | with_reducible exact .check
    | exact .write ⟨trivial, trivial⟩

theorem closeSession_renews (svc : Service) (env : Env) (sid : ℕ) (token : String)
    (closure : Closure) :
    Renews env.renewal (svc.closeSession env sid token closure) := by
  unfold Service.closeSession getSession
  repeat' first
    | intro _
    | with_reducible apply OnlyWrites.bind
    | with_reducible exact .read
    | with_reducible exact .require
    | with_reducible exact .lift
    | with_reducible exact .check
    | exact .write ⟨trivial, rfl, .inl rfl⟩
    | exact .write ⟨trivial, rfl, .inr rfl⟩

inductive Special (svc : Service) (env : Env) : Call → PoolTx Unit → Prop
  | reconcile (call : Call) (pass : ReconcileArgs) : Special svc env call (svc.reconcile env pass)
  | claimStart (q : StartClaim) :
      Special svc env (.claimStart q) (svc.claimStart env q).void
  | registerSession (q : RegistrationRequest) (pass : ReconcileArgs) :
      Special svc env (.registerSession q pass) (svc.registerSession env q)
  | requestLease (args : LeaseArgs) :
      Special svc env (.requestLease args) (svc.requestLease env args).void
  | bindLeaseProjectName (leaseId : ℕ) (token name : String) :
      Special svc env (.bindLeaseProjectName leaseId token name)
        (svc.bindLeaseProjectName env leaseId token name).void

theorem transactions_routine {svc : Service} {env : Env} {call : Call} {m : PoolTx Unit}
    (hm : m ∈ call.transactions svc env) : Renews env.renewal m ∨ Special svc env call m := by
  cases call <;> simp only [Call.transactions, List.mem_cons, List.not_mem_nil, or_false] at hm
  case claimStart q => exact .inr (hm ▸ .claimStart q)
  case registerSession q pass =>
    rcases hm with rfl | rfl
    · exact .inr (.registerSession q pass)
    · exact .inr (.reconcile _ pass)
  case requestLease args => exact .inr (hm ▸ .requestLease args)
  case bindLeaseProjectName leaseId token name =>
    exact .inr (hm ▸ .bindLeaseProjectName leaseId token name)
  case reconcile args => exact .inr (hm ▸ .reconcile _ args)
  case reapDeadSession sid expected absent pass =>
    rcases hm with rfl | rfl
    · exact .inl (reapDeadSession_renews svc env sid expected absent)
    · exact .inr (.reconcile _ pass)
  all_goals left
  case reportProjectFault leaseId token fault =>
    exact reportProjectFault_renews svc env leaseId token fault m hm
  all_goals subst hm
  case createExactSessionReservation => exact (createExactSessionReservation_renews ..).void
  case preparePooledTaskSession => exact (preparePooledTaskSession_renews ..).void
  case createMixedCanaryAdmission => exact (createMixedCanaryAdmission_renews ..).void
  case heartbeatLease => exact (heartbeatLease_renews ..).void
  case acceptLease => exact (acceptLease_renews ..).void
  case activateLease => exact (activateLease_renews ..).void
  case requestSolvePermit => exact (requestSolvePermit_renews ..).void
  case completeNativePipeline => exact (completeNativePipeline_renews ..).void
  case cancelLease => exact (cancelLease_renews ..).void
  case failSessionStart => exact failSessionStart_renews ..
  case bindSessionHostTask => exact bindSessionHostTask_renews ..
  case heartbeatSession => exact heartbeatSession_renews ..
  case completeRelease => exact completeRelease_renews ..
  case reportSessionFault => exact reportSessionFault_renews ..
  case closeSession => exact closeSession_renews ..
  all_goals exact .write ⟨trivial, trivial⟩

theorem reconcile_only {W : Write → Prop} (hroutine : ∀ w, w.routine ∧ w.renews P → W w)
    (hstart : ∀ key allocationId accountName nodeName slots now,
      W (.startSession key allocationId accountName nodeName slots now))
    (svc : Service) (env : Env) (args : ReconcileArgs) :
    OnlyWrites W (svc.reconcile env args) := by
  unfold Service.reconcile refreshZeroOwnerDrainingSessions retireBlockedStarts
    drainPressuredAccounts rotateAgedAllocations endTerminalTasks requeueStaleOffers expireLeases
    recycleUnhealthySessions reviveAllocations scale
  repeat' first
    | intro _
    | with_reducible apply OnlyWrites.bind
    | with_reducible apply OnlyWrites.when
    | with_reducible apply OnlyWrites.forEach
    | with_reducible apply OnlyWrites.fold
    | with_reducible exact .read
    | with_reducible exact .ret
    | with_reducible exact (refreshExactSessionReservations_renews env.now).mono hroutine
    | with_reducible exact (placeQueuedLeases_renews ..).mono hroutine
    | exact .write (hroutine _ ⟨trivial, trivial⟩)
    | exact .write (hstart ..)
    | split
    | unfold refreshZeroOwnerDrainingSessions

section Other

variable {W : Write → Prop} {env : Env}

theorem claimStart_only (hclaim : ∀ sid hostId node job process,
      W (.claimStart sid hostId node job process env.now)) (svc : Service) (q : StartClaim) :
    OnlyWrites W (svc.claimStart env q) := by
  unfold Service.claimStart Service.authorizeBootstrap
  repeat' first
    | intro _
    | with_reducible apply OnlyWrites.bind
    | with_reducible exact .read
    | with_reducible exact .ret
    | with_reducible exact .require
    | with_reducible exact .assert
    | with_reducible exact .check
    | exact .write (hclaim ..)
    | split

theorem registerSession_only
    (hregister : ∀ sid state reg, W (.registerSession sid state reg env.now))
    (hrestore : ∀ aid, W (.restoreAllocation aid env.now)) (svc : Service)
    (q : RegistrationRequest) : OnlyWrites W (svc.registerSession env q) := by
  unfold Service.registerSession Service.authorizeBootstrap getSession
  repeat' first
    | intro _
    | with_reducible apply OnlyWrites.bind
    | with_reducible exact .read
    | with_reducible exact .ret
    | with_reducible exact .require
    | with_reducible exact .assert
    | with_reducible exact .check
    | with_reducible exact .lift
    | exact .write (hregister ..)
    | exact .write (hrestore _)
    | split
    | dsimp only

theorem bindLeaseProjectName_only (hbind : ∀ leaseId state tokenHash name,
      W (.bindProjectName leaseId state tokenHash name env.now)) (svc : Service) (leaseId : ℕ)
    (token name : String) : OnlyWrites W (svc.bindLeaseProjectName env leaseId token name) := by
  unfold Service.bindLeaseProjectName getLease
  repeat' first
    | intro _
    | with_reducible apply OnlyWrites.bind
    | with_reducible exact .read
    | with_reducible exact .require
    | with_reducible exact .check
    | with_reducible exact .lift
    | exact .write (hbind ..)

theorem admitOrReplay_only {q : LeaseRequest} {now : Time}
    (hroutine : ∀ w, w.routine ∧ w.renews P → W w)
    (hadmission : ∀ reservation canary, W (.admitLease q reservation canary now))
    (reservation : Option Reservation) (canary : Option (CanarySlot × Admission)) :
    OnlyWrites W (admitOrReplay q reservation canary now) := by
  unfold admitOrReplay createLease
  repeat' first
    | intro _
    | with_reducible apply OnlyWrites.bind
    | with_reducible exact .read
    | with_reducible exact .ret
    | with_reducible exact .check
    | with_reducible exact (supersede_renews ..).mono hroutine
    | exact .write (hadmission ..)
    | split

/-- Besides its own admission the request of a lease executes routine writes. -/
theorem requestLease_only (hroutine : ∀ w, w.routine ∧ w.renews env.renewal → W w)
    (hadmission : ∀ q reservation canary, q.expiresAt = env.now + env.cfg.leaseTtlSeconds →
      W (.admitLease q reservation canary env.now))
    (svc : Service) (args : LeaseArgs) : OnlyWrites W (svc.requestLease env args) := by
  have hmono {α : Type} {m : PoolTx α} (h : Renews env.renewal m) : OnlyWrites W m := h.mono hroutine
  have hcanary := hmono (refreshMixedCanaryAdmissions_renews env.now)
  have hexact := hmono (refreshExactSessionReservations_renews env.now)
  unfold Service.requestLease
  repeat' first
    | intro _
    | with_reducible apply OnlyWrites.bind
    | with_reducible exact .read
    | with_reducible exact .ret
    | with_reducible exact .require
    | with_reducible exact .lift
    | with_reducible exact .check
    | with_reducible exact hcanary
    | with_reducible exact hexact
    | with_reducible exact admitOrReplay_only hroutine (fun _ _ ↦ hadmission _ _ _ rfl) _ _
    | with_reducible exact hmono (resolveAffinity_renews ..)
    | with_reducible exact hmono (authorizeExactSessionReservation_renews ..)
    | with_reducible exact hmono (authorizeCanary_renews ..)
    | with_reducible exact hmono (placeQueuedLeases_renews ..)
    | split

end Other

/-- Every transaction renews leases from the time its call has read. -/
theorem transactions_renew {svc : Service} {env : Env} {call : Call} {m : PoolTx Unit}
    (hm : m ∈ call.transactions svc env) : OnlyWrites (Write.renews env.renewal) m := by
  rcases transactions_routine hm with hroutine | hspecial
  · exact hroutine.mono fun _ hw ↦ hw.2
  cases hspecial with
  | reconcile call pass =>
      exact reconcile_only (fun _ hw ↦ hw.2) (fun _ _ _ _ _ _ ↦ trivial) svc env pass
  | claimStart q => exact (claimStart_only (fun _ _ _ _ _ ↦ trivial) svc q).void
  | registerSession q pass =>
      exact registerSession_only (fun _ _ _ ↦ trivial) (fun _ ↦ trivial) svc q
  | requestLease args =>
      exact (requestLease_only (fun _ hw ↦ hw.2) (fun _ _ _ hq ↦ ⟨rfl, .inl hq⟩) svc args).void
  | bindLeaseProjectName leaseId token name =>
      exact (bindLeaseProjectName_only (fun _ _ _ _ ↦ trivial) svc leaseId token name).void

end SlurmScheduler.Pool
