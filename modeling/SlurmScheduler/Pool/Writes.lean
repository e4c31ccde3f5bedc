import SlurmScheduler.Pool.Statements

namespace SlurmScheduler.Pool

open Relational

inductive Write
  -- exact-session reservations
  | failCohort (key : String) (now : Time) (reason : String) (settle : Bool) (refresh : List ℕ)
  | expireCohort (key : String) (now : Time)
  | releaseTaskReservations (now : Time)
  | releaseLeaseReservations (now : Time)
  | reserve (terms : ReservationTerms) (tasks : List ℕ) (now : Time)
  | pinTask (taskId allocationId : ℕ) (nodeName : String) (cpus : ℕ) (now : Time)
  | unpinTask (taskId : ℕ) (now : Time)
  -- mixed-canary admissions
  | openCanary (sid : ℕ) (group profile : String) (slots : List (String × String × String))
      (expires now : Time)
  | abortCanary (admissionId sid : ℕ) (now : Time)
  | finishCanaries (now : Time)
  -- leases
  | archiveRequestKey (leaseId : ℕ) (archivedKey : String) (now : Time)
  | supersedeLease (leaseId : ℕ) (sid : Option ℕ) (archivedKey : String) (now : Time)
  | admitLease (q : LeaseRequest) (reservation : Option Reservation)
      (canary : Option (CanarySlot × Admission)) (now : Time)
  | place (l : Lease) (sid slot : ℕ) (offerExpires now : Time)
  | revokeOffer (l : Lease) (expires now : Time)
  | requeueOffer (l : Lease) (now : Time)
  | rejectOffer (l : Lease) (cohort : Option String) (now : Time)
  | attachLease (leaseId : ℕ) (expires now : Time)
  | heartbeatLease (leaseId : ℕ) (state : LeaseState) (tokenHash phase : String)
      (expires offerExpires now : Time)
  | activateLease (leaseId : ℕ) (state : LeaseState) (expires now : Time)
  | renewWaiting (leaseId : ℕ) (tokenHash : String) (expires now : Time)
  | grantWave (sid : ℕ) (leaseIds : List ℕ) (now : Time)
  | failPredecessor (sid : ℕ) (now : Time)
  | completePipeline (leaseId sid generation : ℕ) (tokenHash : String) (expires now : Time)
  | bindProjectName (leaseId : ℕ) (state : LeaseState) (tokenHash name : String) (now : Time)
  | beginRelease (leaseId : ℕ) (sid : Option ℕ) (reason : String) (now : Time)
  | cancelLease (leaseId : ℕ) (sid : Option ℕ) (reason : String) (now : Time)
  | expireQueued (leaseId : ℕ) (now : Time)
  | expireOffer (leaseId : ℕ) (sid : Option ℕ) (now : Time)
  | recordLeaseFault (leaseId : ℕ) (kind phase evidence message : String) (now : Time)
  | completeRelease (sid leaseId : ℕ) (success : Bool) (message : String) (now : Time)
  -- sessions
  | startSession (key : String) (allocationId : ℕ) (accountName nodeName : String) (slots : ℕ)
      (now : Time)
  | claimStart (sid : ℕ) (hostId actualNode slurmJob hostProcess : String) (now : Time)
  | registerSession (sid : ℕ) (state : SessionState) (reg : Registration) (now : Time)
  | restoreAllocation (aid : ℕ) (now : Time)
  | failSessionStart (sid : ℕ) (hostId : String) (failure : StartFailure) (now : Time)
  | failUnclaimedStart (sid : ℕ) (reason : String) (now : Time)
  | bindHostTask (sid taskId : ℕ) (stdoutPath stderrPath : String) (now : Time)
  | suspectTransport (sid : ℕ) (message : String) (now : Time)
  | reportAedtDeath (sid aid : ℕ) (message : String) (now : Time)
  | solverTimeout (leaseId sid aid : ℕ) (message : String) (until_ now : Time)
  | suspectNative (sid : ℕ) (message : String) (evidence : Evidence) (owner : Bool) (now : Time)
  | confirmDeath (sid aid : ℕ) (message : String) (evidence : Evidence) (now : Time)
  | clearReuseBarrier (sid : ℕ) (now : Time)
  | recoverSession (sid : ℕ) (now : Time)
  | touchSession (sid : ℕ) (now : Time)
  | reapDeadSession (sid : ℕ) (state : SessionState) (updatedAt now : Time)
  | closeSession (sid aid : ℕ) (closure : Closure) (live : ℕ) (expires now : Time)
  | refreshSession (sid : ℕ) (now : Time)
  -- reconciliation
  | retireBlockedStart (s : Session) (reason : String) (now : Time)
  | storageDrain (sid : ℕ) (now : Time)
  | rotateAllocations (cutoff now : Time)
  | requestSessionsDrain (reason : String) (allocationIds : Option (List ℕ)) (now : Time)
  | quarantineExpired (sid : ℕ) (until_ now : Time)
  | expireSessionHeartbeats (cutoff now : Time)
  | failOrphanedReleases (cutoff now : Time)
  | expireStarts (cutoff now : Time)
  | drainUnhealthyAllocations (cutoff now : Time)
  | reapStale (sid : ℕ) (now : Time)
  | reviveAllocation (aid : ℕ) (now : Time)
  | drainIdle (now : Time)
  | drainForRebalance (sid : ℕ) (now : Time)
  | drainForScaleIn (sid : ℕ) (now : Time)
  | advanceCursor (cursor : ℕ)
  -- settings
  | putSettings (values : List (String × String))
  | recordValidation (passed : Bool) (pooledProjects : ℕ) (mixedPassed : Bool) (now : Time)

namespace Write

def exec : Write → Db → Db
  | failCohort key now reason settle refresh, db =>
      refreshSessions refresh now (Pool.failCohort key now reason settle db)
  | expireCohort key now, db => Pool.expireCohort key now db
  | releaseTaskReservations now, db => Pool.releaseTaskReservations now db
  | releaseLeaseReservations now, db => Pool.releaseLeaseReservations now db
  | reserve terms tasks now, db => Pool.reserve terms tasks now db
  | pinTask taskId allocationId nodeName cpus now, db =>
      Pool.pinTask taskId allocationId nodeName cpus now db
  | unpinTask taskId now, db => Pool.unpinTask taskId now db
  | openCanary sid group profile slots expires now, db =>
      Pool.openCanary sid group profile slots expires now db
  | abortCanary admissionId sid now, db => Pool.abortCanary admissionId sid now db
  | finishCanaries now, db => Pool.finishCanaries now db
  | archiveRequestKey leaseId archivedKey now, db =>
      Pool.archiveRequestKey leaseId archivedKey now db
  | supersedeLease leaseId sid archivedKey now, db =>
      Pool.supersedeLease leaseId sid archivedKey now db
  | admitLease q reservation canary now, db => Pool.admitLease q reservation canary now db
  | place l sid slot offerExpires now, db => Pool.place l sid slot offerExpires now db
  | revokeOffer l expires now, db => Pool.revokeOffer l expires now db
  | requeueOffer l now, db => Pool.requeueOffer l now db
  | rejectOffer l cohort now, db => Pool.rejectOffer l cohort now db
  | attachLease leaseId expires now, db => Pool.attachLease leaseId expires now db
  | heartbeatLease leaseId state tokenHash phase expires offerExpires now, db =>
      Pool.heartbeatLease leaseId state tokenHash phase expires offerExpires now db
  | activateLease leaseId state expires now, db => Pool.activateLease leaseId state expires now db
  | renewWaiting leaseId tokenHash expires now, db =>
      Pool.renewWaiting leaseId tokenHash expires now db
  | grantWave sid leaseIds now, db => Pool.grantWave sid leaseIds now db
  | failPredecessor sid now, db => Pool.failPredecessor sid now db
  | completePipeline leaseId sid generation tokenHash expires now, db =>
      Pool.completePipeline leaseId sid generation tokenHash expires now db
  | bindProjectName leaseId state tokenHash name now, db =>
      Pool.bindProjectName leaseId state tokenHash name now db
  | beginRelease leaseId sid reason now, db => Pool.beginRelease leaseId sid reason now db
  | cancelLease leaseId sid reason now, db => Pool.cancelLease leaseId sid reason now db
  | expireQueued leaseId now, db => Pool.expireQueued leaseId now db
  | expireOffer leaseId sid now, db => Pool.expireOffer leaseId sid now db
  | recordLeaseFault leaseId kind phase evidence message now, db =>
      Pool.recordLeaseFault leaseId kind phase evidence message now db
  | completeRelease sid leaseId success message now, db =>
      Pool.completeRelease sid leaseId success message now db
  | startSession key allocationId accountName nodeName slots now, db =>
      Pool.startSession key allocationId accountName nodeName slots now db
  | claimStart sid hostId actualNode slurmJob hostProcess now, db =>
      Pool.claimStart sid hostId actualNode slurmJob hostProcess now db
  | registerSession sid state reg now, db => Pool.registerSession sid state reg now db
  | restoreAllocation aid now, db => Pool.restoreAllocation aid now db
  | failSessionStart sid hostId failure now, db => Pool.failSessionStart sid hostId failure now db
  | failUnclaimedStart sid reason now, db => Pool.failUnclaimedStart sid reason now db
  | bindHostTask sid taskId stdoutPath stderrPath now, db =>
      Pool.bindHostTask sid taskId stdoutPath stderrPath now db
  | suspectTransport sid message now, db => Pool.suspectTransport sid message now db
  | reportAedtDeath sid aid message now, db => Pool.reportAedtDeath sid aid message now db
  | solverTimeout leaseId sid aid message until_ now, db =>
      Pool.solverTimeout leaseId sid aid message until_ now db
  | suspectNative sid message evidence owner now, db =>
      Pool.suspectNative sid message evidence owner now db
  | confirmDeath sid aid message evidence now, db => Pool.confirmDeath sid aid message evidence now db
  | clearReuseBarrier sid now, db => Pool.clearReuseBarrier sid now db
  | recoverSession sid now, db => Pool.recoverSession sid now db
  | touchSession sid now, db => Pool.touchSession sid now db
  | reapDeadSession sid state updatedAt now, db => Pool.reapDeadSession sid state updatedAt now db
  | closeSession sid aid closure live expires now, db =>
      Pool.closeSession sid aid closure live expires now db
  | refreshSession sid now, db => Pool.refreshSession sid now db
  | retireBlockedStart s reason now, db => Pool.retireBlockedStart s reason now db
  | storageDrain sid now, db => Pool.storageDrain sid now db
  | rotateAllocations cutoff now, db => Pool.rotateAllocations cutoff now db
  | requestSessionsDrain reason allocationIds now, db =>
      Pool.requestSessionsDrain reason allocationIds now db
  | quarantineExpired sid until_ now, db => Pool.quarantineExpired sid until_ now db
  | expireSessionHeartbeats cutoff now, db => Pool.expireSessionHeartbeats cutoff now db
  | failOrphanedReleases cutoff now, db => Pool.failOrphanedReleases cutoff now db
  | expireStarts cutoff now, db => Pool.expireStarts cutoff now db
  | drainUnhealthyAllocations cutoff now, db => Pool.drainUnhealthyAllocations cutoff now db
  | reapStale sid now, db => Pool.reapStale sid now db
  | reviveAllocation aid now, db => Pool.reviveAllocation aid now db
  | drainIdle now, db => Pool.drainIdle now db
  | drainForRebalance sid now, db => Pool.drainForRebalance sid now db
  | drainForScaleIn sid now, db => Pool.drainForScaleIn sid now db
  | advanceCursor cursor, db => { db with placementCursor := cursor }
  | putSettings values, db => Pool.putSettings values db
  | recordValidation passed pooledProjects mixedPassed now, db =>
      Pool.recordValidation passed pooledProjects mixedPassed now db

end Write

instance : Statement Db Write := ⟨Write.exec⟩

abbrev PoolTx (α : Type) : Type := Tx Db Write PoolError α

namespace PoolTx

variable {α : Type}

def read (f : Db → α) : PoolTx α := Tx.read f

def write (w : Write) : PoolTx Unit := Tx.write w

def valueError (message : String) : PoolTx α := Tx.fail (.value message)

/-- `if not c: raise ValueError(message)` -/
def check (c : Bool) (message : String) : PoolTx Unit := Tx.require c (.value message)

def require (o : Option α) (e : PoolError) : PoolTx α :=
  match o with
  | some a => pure a
  | none => Tx.fail e

def lift (r : Except PoolError α) : PoolTx α :=
  match r with
  | .ok a => pure a
  | .error e => Tx.fail e

def when (c : Bool) (m : PoolTx Unit) : PoolTx Unit := if c then m else pure ()

def void (m : PoolTx α) : PoolTx Unit := do
  let _ ← m

variable {G : Db → Write → Prop} {Q : α → Db → Prop} {s : Db}

@[simp] theorem wp_read {f : Db → α} : Tx.wp G (read f) Q s ↔ Q (f s) s := Tx.wp_read

@[simp] theorem wp_write {w : Write} {Q : Unit → Db → Prop} :
    Tx.wp G (write w) Q s ↔ G s w ∧ Q () (w.exec s) := Tx.wp_write

@[simp] theorem wp_valueError {message : String} :
    Tx.wp G (valueError message : PoolTx α) Q s := Tx.wp_fail

@[simp] theorem wp_check {c : Bool} {message : String} {Q : Unit → Db → Prop} :
    Tx.wp G (check c message) Q s ↔ (c = true → Q () s) := Tx.wp_require

@[simp] theorem wp_require {o : Option α} {e : PoolError} :
    Tx.wp G (require o e) Q s ↔ ∀ a, o = some a → Q a s := by
  cases o <;> simp [require]

@[simp] theorem wp_lift {r : Except PoolError α} :
    Tx.wp G (lift r) Q s ↔ ∀ a, r = .ok a → Q a s := by
  cases r <;> simp [lift]

theorem guarded_when {c : Bool} {m : PoolTx Unit} (h : Tx.Guarded G m) :
    Tx.Guarded G (when c m) := by
  cases c
  · exact fun s ↦ Tx.wp_pure.mpr trivial
  · exact h

section Commit

variable {β : Type} {k : α → PoolTx β}

theorem commit_read {f : Db → α} : (read f >>= k).commit s = (k (f s)).commit s :=
  Tx.commit_read_bind f k

theorem commit_check {c : Bool} {message : String} {k : Unit → PoolTx β} :
    (check c message >>= k).commit s = if c then (k ()).commit s else s :=
  Tx.commit_require_bind c _ k

theorem commit_require {o : Option α} {e : PoolError} :
    (require o e >>= k).commit s = o.elim s fun a ↦ (k a).commit s := by
  cases o
  · exact Tx.commit_fail_bind e k
  · exact Tx.commit_ret_bind _ k

theorem commit_lift {r : Except PoolError α} {a : α} (h : r = .ok a) :
    (lift r >>= k).commit s = (k a).commit s := by
  rw [h]
  exact Tx.commit_ret_bind a k

end Commit

@[simp] theorem wp_void {m : PoolTx α} {Q : Unit → Db → Prop} :
    Tx.wp G m.void Q s ↔ Tx.wp G m (fun _ s' ↦ Q () s') s := by
  simp [void]

end PoolTx

end SlurmScheduler.Pool
