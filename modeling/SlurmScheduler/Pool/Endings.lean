import SlurmScheduler.Pool.Soundness

namespace SlurmScheduler.Pool

open Relational PoolTx

structure LeaseSite where
  id : ℕ
  taskId : ℕ
  protocolVersion : ℕ
  workspacePath : String

def Lease.site (l : Lease) : LeaseSite where
  id := l.id
  taskId := l.taskId
  protocolVersion := l.protocolVersion
  workspacePath := l.workspacePath

structure Lease.Ages (l l' : Lease) : Prop where
  site : l'.site = l.site
  ended : l.state.live = false → l'.state.live = false

namespace Lease.Ages

variable {l l' : Lease}

theorem refl (l : Lease) : l.Ages l := ⟨rfl, fun h ↦ h⟩

theorem trans {a b c : Lease} (h : a.Ages b) (h' : b.Ages c) : a.Ages c :=
  ⟨h'.site.trans h.site, fun ha ↦ h'.ended (h.ended ha)⟩

theorem of_live (hsite : l'.site = l.site) (hlive : l.state.live = true) : l.Ages l' :=
  ⟨hsite, fun hended ↦ by simp [hlive] at hended⟩

theorem of_ended (hsite : l'.site = l.site) (hended : l'.state.live = false) : l.Ages l' :=
  ⟨hsite, fun _ ↦ hended⟩

theorem of_same (hsite : l'.site = l.site) (hstate : l'.state = l.state) : l.Ages l' :=
  ⟨hsite, fun hended ↦ hstate ▸ hended⟩

theorem id (h : l.Ages l') : l'.id = l.id := congrArg LeaseSite.id h.site

theorem task (h : l.Ages l') : l'.taskId = l.taskId := congrArg LeaseSite.taskId h.site

theorem workspace (h : l.Ages l') : l'.workspacePath = l.workspacePath :=
  congrArg LeaseSite.workspacePath h.site

end Lease.Ages

theorem live_of_owner {l : Lease} (h : l.state.ownsProject = true) : l.state.live = true :=
  LeaseState.live_of_holdsSlot (LeaseState.holdsSlot_of_ownsProject h)

def Db.Ages (db db' : Db) : Prop := Table.Moved Lease.Ages db.leases db'.leases

namespace Db.Ages

variable {db db' db'' : Db}

theorem of_eq (h : db'.leases = db.leases) : db.Ages db' := by
  unfold Db.Ages
  rw [h]
  exact .refl fun l _ ↦ .refl l

theorem refl (db : Db) : db.Ages db := of_eq rfl

theorem trans (h : db.Ages db') (h' : db'.Ages db'') : db.Ages db'' :=
  Table.Moved.trans h h' fun _ _ _ ↦ Lease.Ages.trans

theorem onSessions {p : Session → Bool} {f : Session → Session}
    {hf : ∀ s, Keyed.key (f s) = Keyed.key s} : db.Ages (db.onSessions p f hf) := of_eq rfl

theorem onReservations {p : Reservation → Bool} {f : Reservation → Reservation}
    {hf : ∀ r, Keyed.key (f r) = Keyed.key r} : db.Ages (db.onReservations p f hf) := of_eq rfl

theorem onAdmissions {p : Admission → Bool} {f : Admission → Admission}
    {hf : ∀ a, Keyed.key (f a) = Keyed.key a} : db.Ages (db.onAdmissions p f hf) := of_eq rfl

theorem onAllocations {p : Allocation → Bool} {f : Allocation → Allocation}
    {hf : ∀ a, Keyed.key (f a) = Keyed.key a} : db.Ages (db.onAllocations p f hf) := of_eq rfl

theorem onLeases {p : Lease → Bool} {f : Lease → Lease}
    {hf : ∀ l, Keyed.key (f l) = Keyed.key l} (h : ∀ l ∈ db.leases, p l = true → l.Ages (f l)) :
    db.Ages (db.onLeases p f hf) :=
  Db.leases_moved h fun l _ _ ↦ .refl l

theorem foldl {α : Type} {f : Db → α → Db} (h : ∀ (db : Db) a, db.Ages (f db a)) (as : List α)
    (db : Db) : db.Ages (as.foldl f db) := by
  induction as generalizing db with
  | nil => exact refl db
  | cons a as ih => exact (h db a).trans (ih (f db a))

theorem refreshSessions (sids : List ℕ) (now : Time) (db : Db) :
    db.Ages (refreshSessions sids now db) :=
  of_eq (refreshSessions_leases sids now db)

theorem failCohort (key : String) (now : Time) (reason : String) (settle : Bool) (db : Db) :
    db.Ages (failCohort key now reason settle db) := by
  have hsettled : db.Ages (if settle then settleCohortOwners key now reason db else db) := by
    split
    · unfold settleCohortOwners blockCohortReuse
      refine trans (onLeases fun l _ hl ↦ ?_) onSessions
      exact .of_live rfl (live_of_owner (Bool.and_eq_true_iff.mp hl).2)
    · exact refl db
  unfold Pool.failCohort
  refine (hsettled.trans (onLeases fun l _ _ ↦ ?_)).trans onReservations
  exact .of_ended rfl rfl

theorem expireCohort (key : String) (now : Time) (db : Db) : db.Ages (expireCohort key now db) := by
  unfold Pool.expireCohort blockCohortReuse
  refine ((trans (onLeases fun l _ hl ↦ ?_) onSessions).trans (onLeases fun l _ _ ↦ ?_)).trans
    onReservations
  · simp only [Bool.and_eq_true] at hl
    exact .of_live rfl (live_of_owner hl.1.2)
  · exact .of_ended rfl rfl

theorem abortCanary (admissionId sid : ℕ) (now : Time) (db : Db) :
    db.Ages (abortCanary admissionId sid now db) := by
  unfold Pool.abortCanary blockReuse refreshSession
  refine (((trans onAdmissions (onLeases fun l _ _ ↦ ?_)).trans (onLeases fun l _ hl ↦ ?_)).trans
    onSessions).trans onSessions
  · exact .of_ended rfl rfl
  · simp only [Bool.and_eq_true, Bool.or_eq_true, beq_iff_eq] at hl
    refine .of_live rfl ?_
    rcases hl.2 with (h | h) | h <;> rw [h] <;> rfl

theorem place (l : Lease) (sid slot : ℕ) (offerExpires now : Time) (db : Db) :
    db.Ages (place l sid slot offerExpires now db) := by
  have hseated : db.Ages (db.onLeases (fun x ↦ x.id == l.id && x.state == .queued)
      (Lease.seated sid slot l.offerState offerExpires now)) := by
    refine onLeases fun x _ hx ↦ ?_
    simp only [Bool.and_eq_true, beq_iff_eq] at hx
    exact .of_live rfl (by rw [hx.2]; rfl)
  have hsame : (seatLease l sid slot offerExpires now db).leases =
      (db.onLeases (fun x ↦ x.id == l.id && x.state == .queued)
        (Lease.seated sid slot l.offerState offerExpires now)).leases := by
    unfold seatLease
    dsimp only
    split <;> rfl
  exact hseated.trans (of_eq ((place_leases_eq l sid slot offerExpires now db).trans hsame))

theorem revokeOffer (l : Lease) (expires now : Time) (db : Db) :
    db.Ages (revokeOffer l expires now db) := by
  unfold Pool.revokeOffer
  dsimp only
  have hlive : ∀ x : Lease, (x.id == l.id && x.state == .offered) = true → x.state.live = true := by
    intro x hx
    simp only [Bool.and_eq_true, beq_iff_eq] at hx
    rw [hx.2]
    rfl
  refine trans ?_ (refreshSessions _ _ _)
  split
  · exact onLeases fun x _ hx ↦ .of_live rfl (hlive x hx)
  · refine trans (onLeases fun x _ hx ↦ ?_) onReservations
    exact .of_live rfl (hlive x hx)

theorem rejectOffer (l : Lease) (cohort : Option String) (now : Time) (db : Db) :
    db.Ages (rejectOffer l cohort now db) := by
  have hcohort : ∀ key reason, db.Ages (Pool.failCohort key now reason false db) :=
    fun key reason ↦ failCohort key now reason false db
  unfold Pool.rejectOffer
  dsimp only
  cases cohort with
  | none =>
      refine trans (onLeases fun x _ _ ↦ ?_) (refreshSessions _ _ _)
      exact .of_ended rfl rfl
  | some key =>
      refine ((hcohort key _).trans (onLeases fun x _ _ ↦ ?_)).trans (refreshSessions _ _ _)
      exact .of_ended rfl rfl

theorem closeSession (sid aid : ℕ) (c : Closure) (live : ℕ) (expires now : Time) (db : Db) :
    db.Ages (closeSession sid aid c live expires now db) := by
  have hcohorts : db.Ages (failTargetCohorts sid now (closeReason sid c) db) :=
    foldl (fun db key ↦ failCohort key now _ false db) _ db
  have hoccupants : ∀ db : Db, db.Ages (closeOccupants sid c live expires now db) := by
    intro db
    unfold closeOccupants requeueOccupants failOccupants
    split
    · exact refl db
    · split
      · refine onLeases fun l _ hl ↦ ?_
        simp only [Lease.holds, Bool.and_eq_true] at hl
        exact .of_live rfl (LeaseState.live_of_holdsSlot hl.1.2)
      · exact onLeases fun l _ _ ↦ .of_ended rfl rfl
  unfold Pool.closeSession finishSession
  dsimp only
  refine (hcohorts.trans (hoccupants _)).trans ?_
  split
  · exact of_eq rfl
  · exact of_eq rfl

end Db.Ages

/-- The two statements that do not test the state of the lease are executed for live leases. -/
def Write.ForLive (db : Db) : Write → Prop
  | .beginRelease leaseId .. => ∀ l ∈ db.leases, l.id = leaseId → l.state.live = true
  | .activateLease _ state .. => state.live = true
  | _ => True

/-- Every write but the creation of a lease only ages the leases. -/
theorem Db.ages_exec {db : Db} {w : Write} (hw : w.ForLive db)
    (hnew : ∀ q reservation canary now, w ≠ .admitLease q reservation canary now) :
    db.Ages (w.exec db) := by
  cases w
  case admitLease q reservation canary now => exact absurd rfl (hnew q reservation canary now)
  case failCohort key now reason settle refresh =>
    exact (Db.Ages.failCohort key now reason settle db).trans (.refreshSessions _ _ _)
  case expireCohort key now => exact .expireCohort key now db
  case abortCanary admissionId sid now => exact .abortCanary admissionId sid now db
  case reserve terms tasks now =>
    exact .foldl (f := reserveSlot terms now) (fun _ _ ↦ .of_eq rfl) tasks db
  case openCanary sid group profile slots expires now =>
    refine Db.Ages.trans ?_ (.foldl ?_ slots _)
    · exact .of_eq rfl
    · exact fun _ _ ↦ .of_eq rfl
  case archiveRequestKey leaseId archivedKey now =>
    exact .onLeases fun l _ _ ↦ .of_same rfl rfl
  case supersedeLease leaseId sid archivedKey now =>
    refine .trans (.onLeases fun l _ _ ↦ ?_) (.refreshSessions _ _ _)
    exact .of_ended rfl rfl
  case place l sid slot offerExpires now => exact .place l sid slot offerExpires now db
  case revokeOffer l expires now => exact .revokeOffer l expires now db
  case requeueOffer l now =>
    refine .trans (.trans (.onLeases fun x _ hx ↦ ?_) .onReservations) (.refreshSessions _ _ _)
    simp only [Bool.and_eq_true, beq_iff_eq] at hx
    exact .of_live rfl (by rw [hx.2]; rfl)
  case rejectOffer l cohort now => exact .rejectOffer l cohort now db
  case attachLease leaseId expires now =>
    refine .onLeases fun l _ hl ↦ ?_
    simp only [Bool.and_eq_true, beq_iff_eq] at hl
    exact .of_live rfl (by rw [hl.1.2]; rfl)
  case heartbeatLease leaseId state tokenHash phase expires offerExpires now =>
    refine .onLeases fun l _ _ ↦ ⟨rfl, fun hended ↦ ?_⟩
    dsimp only
    split
    · rename_i hleased
      simp only [Bool.and_eq_true, beq_iff_eq] at hleased
      rw [hleased.2] at hended
      cases hended
    · exact hended
  case activateLease leaseId state expires now =>
    refine .onLeases fun l _ hl ↦ ?_
    simp only [Bool.and_eq_true, beq_iff_eq] at hl
    exact .of_live rfl (hl.2 ▸ hw)
  case renewWaiting => exact .onLeases fun l _ _ ↦ .of_same rfl rfl
  case grantWave sid leaseIds now =>
    refine .trans .onSessions (.onLeases fun l _ _ ↦ ?_)
    exact .of_same rfl rfl
  case failPredecessor sid now =>
    refine .trans .onSessions (.onLeases fun l _ hl ↦ ?_)
    simp only [Bool.and_eq_true, beq_iff_eq] at hl
    exact .of_live rfl (by rw [hl.1.2]; rfl)
  case completePipeline => exact .onLeases fun l _ _ ↦ .of_same rfl rfl
  case bindProjectName => exact .onLeases fun l _ _ ↦ .of_same rfl rfl
  case beginRelease leaseId sid reason now =>
    have hlease : db.Ages (db.onLeases (·.id == leaseId) fun l ↦ { l with
        state := .releasing, failureMessage := reason, releaseRequestedAt := some now
        updatedAt := now }) :=
      .onLeases fun l hl hid ↦ .of_live rfl (hw l hl (beq_iff_eq.mp hid))
    cases sid with
    | none => exact hlease
    | some sid => exact hlease.trans .onSessions
  case cancelLease leaseId sid reason now =>
    refine .trans (.onLeases fun l _ _ ↦ ?_) (.refreshSessions _ _ _)
    exact .of_ended rfl rfl
  case expireQueued leaseId now => exact .onLeases fun l _ _ ↦ .of_ended rfl rfl
  case expireOffer leaseId sid now =>
    refine .trans (.onLeases fun l _ _ ↦ ?_) (.refreshSessions _ _ _)
    exact .of_ended rfl rfl
  case recordLeaseFault => exact .onLeases fun l _ _ ↦ .of_same rfl rfl
  case completeRelease sid leaseId success message now =>
    have hlease : db.Ages (db.onLeases (fun l ↦ l.id == leaseId && l.sessionId == some sid &&
        l.state == .releasing) fun l ↦ { l with
          state := if success then .released else .failed, failureMessage := message
          finishedAt := some now, updatedAt := now }) := by
      refine .onLeases fun l _ _ ↦ .of_ended rfl ?_
      cases success <;> rfl
    cases success <;> exact hlease.trans (.of_eq rfl)
  case solverTimeout leaseId sid aid message until_ now =>
    refine .trans (.trans (.onLeases fun l _ hl ↦ ?_) .onSessions) .onAllocations
    simp only [Bool.and_eq_true, Bool.or_eq_true, beq_iff_eq] at hl
    refine .of_live rfl ?_
    rcases hl.2 with (h | h) | h <;> rw [h] <;> rfl
  case closeSession sid aid c live expires now => exact .closeSession sid aid c live expires now db
  case failOrphanedReleases cutoff now =>
    refine .trans .onSessions (.onLeases fun l _ _ ↦ ?_)
    exact .of_ended rfl rfl
  case reapStale sid now =>
    refine .trans (.onLeases fun l _ _ ↦ ?_) .onSessions
    exact .of_ended rfl rfl
  all_goals exact .of_eq rfl

/-- A lease after a write has aged from one before it, or the write has created it. -/
theorem Db.mem_leases_exec {db : Db} {w : Write} (hw : w.ForLive db) {l : Lease}
    (hl : l ∈ (w.exec db).leases) :
    (∃ l₀ ∈ db.leases, l₀.Ages l) ∨
      ∃ q reservation canary now, w = .admitLease q reservation canary now ∧
        l = newLease q reservation canary now db.leases.nextKey := by
  by_cases hnew : ∃ q reservation canary now, w = .admitLease q reservation canary now
  · obtain ⟨q, reservation, canary, now, rfl⟩ := hnew
    rcases (mem_admitLease q reservation canary now db).mp hl with hold | rfl
    · exact .inl ⟨l, hold, .refl l⟩
    · exact .inr ⟨q, reservation, canary, now, rfl, rfl⟩
  · refine .inl ((Db.ages_exec hw fun q reservation canary now h ↦ ?_).exists_left hl)
    exact hnew ⟨q, reservation, canary, now, h⟩

theorem forLive_of_guard {db : Db} {w : Write} (h : Guard db w) : w.ForLive db := by
  cases w <;> try trivial
  case activateLease leaseId state expires now =>
    rcases h with h | h <;> (unfold Write.ForLive; rw [h]; rfl)
  case beginRelease leaseId sid reason now =>
    obtain ⟨l, hl, hid, -, hstate⟩ := h
    intro x hx hxid
    rw [Table.eq_of_key_eq hx hl (hxid.trans hid.symm)]
    rcases hstate with h | h
    · rw [h]
      rfl
    · exact live_of_owner h

abbrev Tx.FindsLive {α : Type} (m : PoolTx α) : Prop := Tx.Guarded (fun db w ↦ w.ForLive db) m

theorem findsLive_of_guarded {α : Type} {m : PoolTx α} {db : Db}
    (h : Tx.wp Guard m (fun _ _ ↦ True) db) :
    Tx.wp (fun db w ↦ Write.ForLive db w) m (fun _ _ ↦ True) db :=
  ⟨h.1.mono fun _ _ ↦ forLive_of_guard, h.2⟩

theorem reserveDesktop_findsLive (svc : Service) (cfg : AedtPoolConfig) (now : Time)
    (q : PreparationRequest) (profile family : String) (policy : IsolationPolicy)
    (route : TaskRoute) : Tx.FindsLive (reserveDesktop svc cfg now q profile family policy route) := by
  intro db
  simp only [reserveDesktop, Tx.wp_bind, wp_read]
  split
  · simp only [Tx.wp_bind, wp_write, Tx.wp_pure]
    exact ⟨trivial, trivial⟩
  · simp only [Tx.wp_bind, wp_read, Tx.wp_require, wp_write, and_true]
    exact fun _ _ ↦ ⟨trivial, trivial⟩

theorem preparePooledTaskSession_findsLive (svc : Service) (cfg : AedtPoolConfig) (now : Time)
    (q : PreparationRequest) : Tx.FindsLive (svc.preparePooledTaskSession cfg now q) := by
  intro db
  have hreserve : ∀ profile family policy route db,
      Tx.wp (fun db w ↦ Write.ForLive db w)
        (reserveDesktop svc cfg now q profile family policy route) (fun _ _ ↦ True) db :=
    reserveDesktop_findsLive svc cfg now q
  simp only [Service.preparePooledTaskSession, Tx.wp_bind, wp_check, wp_lift, wp_require,
    Tx.wp_ite, Tx.wp_pure, implies_true, true_and]
  intro _ _ profile _ _ policy _ _ _ _
  have hrefresh : Tx.FindsLive (refreshExactSessionReservations now) := fun db ↦
    findsLive_of_guarded (Tx.wp_mono (refreshExactSessionReservations_guarded now db)
      fun _ _ _ ↦ trivial)
  refine hrefresh.wp fun _ s ↦ ?_
  rw [wp_read]
  split
  · exact Tx.wp_pure.mpr trivial
  · simp only [Tx.wp_bind, wp_check, wp_read, Tx.wp_ite, Tx.wp_pure, implies_true, true_and]
    intro _ _ _
    split
    · simp only [Tx.wp_bind, wp_write, Tx.wp_ite, Tx.wp_pure]
      exact ⟨fun _ ↦ ⟨trivial, trivial⟩, fun _ ↦ hreserve ..⟩
    · simp only [Tx.wp_bind, wp_read, wp_write, Tx.wp_ite, Tx.wp_pure, implies_true, true_and]
      refine ⟨fun _ ↦ ⟨trivial, trivial⟩, fun _ _ ↦ ⟨fun _ ↦ ⟨trivial, ?_⟩, fun _ ↦ ?_⟩⟩
      · exact ⟨fun _ ↦ ⟨trivial, trivial⟩, fun _ ↦ hreserve ..⟩
      · exact ⟨fun _ ↦ ⟨trivial, trivial⟩, fun _ ↦ hreserve ..⟩

theorem reportSessionFault_findsLive (svc : Service) (env : Env) (sid : ℕ) (token : String)
    (fault : SessionFault) : Tx.FindsLive (svc.reportSessionFault env sid token fault) := by
  intro db
  simp only [Service.reportSessionFault, Tx.wp_bind, wp_lift, wp_require]
  intro s _ kind _
  cases kind with
  | nativeProbeSuspect =>
      simp only [Tx.wp_bind, wp_read, wp_write]
      exact ⟨trivial, trivial⟩
  | confirmedAedtDeath => exact wp_write.mpr ⟨trivial, trivial⟩

/-- No transaction of the service takes up a lease that has ended, whatever it has read before. -/
theorem transactions_findsLive {svc : Service} {env : Env} {call : Call} {m : PoolTx Unit}
    (hm : m ∈ call.transactions svc env) : Tx.FindsLive m := by
  intro db
  have hguarded : call.Fresh db →
      (∀ sid token fault, call = .reportSessionFault sid token fault → env.Earlier db) →
      Tx.wp (fun db w ↦ Write.ForLive db w) m (fun _ _ ↦ True) db :=
    fun hfresh hseen ↦ findsLive_of_guarded (transactions_guarded_of hm hfresh hseen)
  cases call
  case preparePooledTaskSession q =>
    rw [List.mem_singleton.mp hm]
    exact wp_void.mpr (preparePooledTaskSession_findsLive svc env.cfg env.now q db)
  case reportSessionFault sid token fault =>
    rw [List.mem_singleton.mp hm]
    exact reportSessionFault_findsLive svc env sid token fault db
  all_goals exact hguarded trivial (by rintro _ _ _ ⟨⟩)

end SlurmScheduler.Pool
