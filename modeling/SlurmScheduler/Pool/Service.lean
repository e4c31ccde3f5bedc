import SlurmScheduler.Pool.Reconcile

namespace SlurmScheduler.Pool

open Relational PoolTx

inductive Call
  | createExactSessionReservation (q : ReservationRequest)
  | preparePooledTaskSession (q : PreparationRequest)
  | createMixedCanaryAdmission (q : CanaryRequest)
  | requestLease (args : LeaseArgs)
  | heartbeatLease (leaseId : ℕ) (token phase : String)
  | acceptLease (leaseId : ℕ) (token : String)
  | activateLease (leaseId : ℕ) (token : String)
  | requestSolvePermit (leaseId : ℕ) (token : String) (sealUnderfilled : Bool)
  | completeNativePipeline (leaseId : ℕ) (token : String) (solvePermitGeneration : ℕ)
  | bindLeaseProjectName (leaseId : ℕ) (token projectName : String)
  | cancelLease (leaseId : ℕ) (token reason : String)
  | reportProjectFault (leaseId : ℕ) (token : String) (fault : ProjectFault)
  | claimStart (q : StartClaim)
  | registerSession (q : RegistrationRequest) (pass : ReconcileArgs)
  | failSessionStart (sid : ℕ) (hostId bootstrapToken : String) (failure : StartFailure)
  | failUnclaimedSessionStart (sid : ℕ) (reason : String)
  | bindSessionHostTask (sid taskId : ℕ)
  | heartbeatSession (sid : ℕ) (token : String) (q : SessionHeartbeat)
  | completeRelease (sid : ℕ) (token : String) (leaseId : ℕ) (success : Bool) (message : String)
  | reportSessionFault (sid : ℕ) (token : String) (fault : SessionFault)
  | reapDeadSession (sid : ℕ) (expected : DeadIdentity) (processesAbsent : Bool)
      (pass : ReconcileArgs)
  | closeSession (sid : ℕ) (token : String) (closure : Closure)
  | reconcile (args : ReconcileArgs)
  | requestAllSessionsDrain (reason : String)
  | putSettings (values : List (String × String))
  | recordValidation (passed : Bool) (pooledProjects : ℕ) (mixedPassed : Bool)

namespace Call

/-- The transactions of a call in the order in which it commits them. -/
def transactions (svc : Service) (env : Env) : Call → List (PoolTx Unit)
  | createExactSessionReservation q => [(svc.createExactSessionReservation env.cfg env.now q).void]
  | preparePooledTaskSession q => [(svc.preparePooledTaskSession env.cfg env.now q).void]
  | createMixedCanaryAdmission q => [(svc.createMixedCanaryAdmission env.now q).void]
  | requestLease args => [(svc.requestLease env args).void]
  | heartbeatLease leaseId token phase => [(svc.heartbeatLease env leaseId token phase).void]
  | acceptLease leaseId token => [(svc.acceptLease env leaseId token).void]
  | activateLease leaseId token => [(svc.activateLease env leaseId token).void]
  | requestSolvePermit leaseId token sealUnderfilled =>
      [(svc.requestSolvePermit env leaseId token sealUnderfilled).void]
  | completeNativePipeline leaseId token generation =>
      [(svc.completeNativePipeline env leaseId token generation).void]
  | bindLeaseProjectName leaseId token name =>
      [(svc.bindLeaseProjectName env leaseId token name).void]
  | cancelLease leaseId token reason => [(svc.cancelLease env leaseId token reason).void]
  | reportProjectFault leaseId token fault => svc.reportProjectFault env leaseId token fault
  | claimStart q => [(svc.claimStart env q).void]
  | registerSession q pass => [svc.registerSession env q, svc.reconcile env pass]
  | failSessionStart sid hostId token failure => [svc.failSessionStart env sid hostId token failure]
  | failUnclaimedSessionStart sid reason => [svc.failUnclaimedSessionStart env sid reason]
  | bindSessionHostTask sid taskId => [Pool.bindSessionHostTask env sid taskId]
  | heartbeatSession sid token q => [svc.heartbeatSession env sid token q]
  | completeRelease sid token leaseId success message =>
      [svc.completeRelease env sid token leaseId success message]
  | reportSessionFault sid token fault => [svc.reportSessionFault env sid token fault]
  | reapDeadSession sid expected absent pass =>
      [svc.reapDeadSession env sid expected absent, svc.reconcile env pass]
  | closeSession sid token closure => [svc.closeSession env sid token closure]
  | reconcile args => [svc.reconcile env args]
  | requestAllSessionsDrain reason => [write (.requestSessionsDrain reason none env.now)]
  | putSettings values => [write (.putSettings values)]
  | recordValidation passed pooledProjects mixedPassed =>
      [write (.recordValidation passed pooledProjects mixedPassed env.now)]

def performAll : List (PoolTx Unit) → Db → Db
  | [], db => db
  | m :: ms, db => if (m db).1.isOk then performAll ms (m.commit db) else db

theorem performAll_write (w : Write) (ms : List (PoolTx Unit)) (db : Db) :
    performAll (write w :: ms) db = performAll ms (w.exec db) := rfl

theorem performAll_singleton (m : PoolTx Unit) (db : Db) : performAll [m] db = m.commit db := by
  unfold performAll Tx.commit
  rcases m db with ⟨r | a, ws⟩ <;> rfl

/-- A call that no other step interleaves with. -/
def perform (svc : Service) (env : Env) (call : Call) (db : Db) : Db :=
  performAll (call.transactions svc env) db

/-- A random token has not been part of a reservation key before. -/
def Fresh (db : Db) : Call → Prop
  | preparePooledTaskSession q => ∀ r ∈ db.reservations, ∀ sid generation : ℕ,
      r.reservationKey ≠
        autoKeyPrefix ++ toString sid ++ ":" ++ toString generation ++ ":" ++ q.token
  | _ => True

end Call

/-- What a call read before its transaction it read in an earlier state.  All that follows from
this here is that a host it has authorized is still registered. -/
def Env.Earlier (env : Env) (db : Db) : Prop := ∀ s ∈ env.seen.sessions, s.hostTokenHash ≠ "" →
  ∃ x ∈ db.sessions, x.id = s.id ∧ x.hostTokenHash ≠ ""

/-- One committed transaction of some call, in which every write meets `C`, or a change of the
scheduler's own tables.  Between two transactions of a call any other step may happen. -/
inductive Step (svc : Service) (C : Db → Write → Prop) : Db → Db → Prop
  | transaction {db : Db} (call : Call) (env : Env) (m : PoolTx Unit)
      (hm : m ∈ call.transactions svc env) (hfresh : call.Fresh db) (hseen : env.Earlier db)
      (hC : (m db).1.isOk = true → Journal C db (m db).2) : Step svc C db (m.commit db)
  | scheduler {db : Db} (tasks : Table Task) (allocations : Table Allocation)
      (settings : List (String × String)) (cursor : ℕ) :
      Step svc C db { db with tasks, allocations, settings, placementCursor := cursor }

/-- A run of the service in which every committed write meets `C`. -/
def Run (svc : Service) (C : Db → Write → Prop) : Db → Db → Prop :=
  Relation.ReflTransGen (Step svc C)

def AnyWrite : Db → Write → Prop := fun _ _ ↦ True

/-- The states that a run reaches from empty pool tables. -/
def Reachable (svc : Service) (C : Db → Write → Prop) (db : Db) : Prop := Run svc C {} db

end SlurmScheduler.Pool
