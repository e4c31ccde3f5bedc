import SlurmScheduler.Pool.Commands
import SlurmScheduler.Pool.Endings
import SlurmScheduler.Pool.Isolation
import SlurmScheduler.Pool.LeaseColumns

namespace SlurmScheduler.Pool

open Relational PoolTx

abbrev Anonymous {α : Type} (m : PoolTx α) : Prop := OnlyWrites (·.naming = false) m

theorem naming_of_routine {w : Write} (h : w.routine) : w.naming = false := by
  cases w
  case admitLease => exact h.elim
  case bindProjectName => exact h.elim
  all_goals rfl

theorem OnlyWrites.anonymous {α : Type} {m : PoolTx α} (h : Routine m) : Anonymous m :=
  h.mono fun _ ↦ naming_of_routine

theorem reconcile_anonymous (svc : Service) (env : Env) (args : ReconcileArgs) :
    Anonymous (svc.reconcile env args) :=
  reconcile_only (P := env.renewal) (fun _ h ↦ naming_of_routine h.1) (fun _ _ _ _ _ _ ↦ rfl)
    svc env args

/-- Only the request of a lease and the binding of its project name name a project. -/
theorem transactions_anonymous {svc : Service} {env : Env} {call : Call} {m : PoolTx Unit}
    (hm : m ∈ call.transactions svc env) (hrequest : ∀ args, call ≠ .requestLease args)
    (hbind : ∀ leaseId token name, call ≠ .bindLeaseProjectName leaseId token name) :
    Anonymous m := by
  rcases transactions_routine hm with hroutine | hspecial
  · exact hroutine.routine.anonymous
  cases hspecial with
  | reconcile call pass => exact reconcile_anonymous svc env pass
  | claimStart q => exact (claimStart_only (fun _ _ _ _ _ ↦ rfl) svc q).void
  | registerSession q pass => exact registerSession_only (fun _ _ _ ↦ rfl) (fun _ ↦ rfl) svc q
  | requestLease args => exact absurd rfl (hrequest args)
  | bindLeaseProjectName leaseId token name => exact absurd rfl (hbind leaseId token name)

def Db.nameFree (db : Db) (name : String) (p : Lease → Prop) : Prop :=
  ∀ l ∈ db.leases, p l → l.projectName = name → l.state.live = false

def NameGuard (db : Db) : Write → Prop
  | .admitLease q .. => 2 ≤ q.protocolVersion → db.nameFree q.projectName fun _ ↦ True
  | .bindProjectName leaseId state tokenHash name _ => ∃ l ∈ db.leases, l.id = leaseId ∧
      l.state = state ∧ l.clientTokenHash = tokenHash ∧
      (2 ≤ l.protocolVersion → db.nameFree name fun x ↦ x.id ≠ leaseId)
  | _ => True

theorem nameGuard_of_anonymous {db : Db} {w : Write} (h : w.naming = false) : NameGuard db w := by
  cases w
  case admitLease => cases h
  case bindProjectName => cases h
  all_goals trivial

theorem OnlyWrites.named {α : Type} {m : PoolTx α} (h : Anonymous m) :
    Tx.Guarded NameGuard m :=
  h.guarded.mono fun _ _ ↦ nameGuard_of_anonymous

theorem createLease_named {q : LeaseRequest} {reservation : Option Reservation}
    {canary : Option (CanarySlot × Admission)} {now : Time} :
    Tx.Guarded NameGuard (createLease q reservation canary now) := by
  intro db
  simp only [createLease, Tx.wp_bind, wp_read, wp_check, wp_write, Tx.wp_pure, and_true]
  intro hfree _ _ hprotocol l hl _ hname
  by_contra hlive
  have hduplicate : (db.leases.rows.any fun l ↦ l.projectName == q.projectName && l.state.live) =
      true := List.any_eq_true.mpr ⟨l, hl, by simp [hname, hlive]⟩
  simp [hduplicate] at hfree
  omega

theorem admitOrReplay_named {q : LeaseRequest} {reservation : Option Reservation}
    {canary : Option (CanarySlot × Admission)} {now : Time} :
    Tx.Guarded NameGuard (admitOrReplay q reservation canary now) := by
  unfold admitOrReplay
  refine Tx.Guarded.read.bind fun existing ↦ ?_
  split
  · exact .ret
  · split
    · exact (supersede_renews (P := fun _ _ ↦ True) _ _ _).routine.anonymous.named.bind fun _ ↦ createLease_named
    · exact createLease_named

theorem requestLease_named (svc : Service) (env : Env) (args : LeaseArgs) :
    Tx.Guarded NameGuard (svc.requestLease env args) := by
  have hnamed {α : Type} {m : PoolTx α} (h : Renews env.renewal m) : Tx.Guarded NameGuard m :=
    h.routine.anonymous.named
  intro db
  simp only [Service.requestLease, Tx.wp_bind, wp_check, wp_require, wp_lift, wp_read, Tx.wp_ite,
    implies_true, and_true]
  intro _ _ _ _ _ _ profile _ policy _ _ _ _ _
  refine Tx.wp_mono (hnamed (refreshMixedCanaryAdmissions_renews env.now) db) fun _ s _ ↦ ?_
  refine Tx.wp_mono (hnamed (refreshExactSessionReservations_renews env.now) s) fun _ s _ ↦ ?_
  refine Tx.wp_mono (hnamed (resolveAffinity_renews ..) s) fun _ s _ ↦ ?_
  refine Tx.wp_mono (hnamed (authorizeExactSessionReservation_renews ..) s) fun r s _ ↦ ?_
  refine Tx.wp_mono (hnamed (authorizeCanary_renews ..) s) fun c s _ ↦ ?_
  refine Tx.wp_mono (admitOrReplay_named s) fun leaseId s _ _ ↦ ?_
  exact hnamed (placeQueuedLeases_renews ..) s

theorem bindLeaseProjectName_named (svc : Service) (env : Env) (leaseId : ℕ)
    (token projectName : String) :
    Tx.Guarded NameGuard (svc.bindLeaseProjectName env leaseId token projectName) := by
  intro db
  simp only [Service.bindLeaseProjectName, getLease, Tx.wp_bind, wp_check, wp_lift, wp_read,
    wp_write, wp_require, implies_true, and_true]
  intro _ l hl hlive hfree
  obtain ⟨hmem, hid⟩ := authorizeLease_mem hl
  refine ⟨l, hmem, hid, rfl, rfl, fun hprotocol x hx hne hname ↦ ?_⟩
  by_contra hlive
  have hduplicate : (db.leases.rows.any fun x ↦ x.id != leaseId &&
      x.projectName == svc.strip projectName && x.state.live) = true :=
    List.any_eq_true.mpr ⟨x, hx, by simp [hne, hname, hlive]⟩
  simp [hduplicate] at hfree
  omega

theorem transactions_named {svc : Service} {env : Env} {call : Call} {m : PoolTx Unit}
    (hm : m ∈ call.transactions svc env) : Tx.Guarded NameGuard m := by
  have hother : (∀ args, call ≠ .requestLease args) →
      (∀ leaseId token name, call ≠ .bindLeaseProjectName leaseId token name) →
      Tx.Guarded NameGuard m :=
    fun hrequest hbind ↦ (transactions_anonymous hm hrequest hbind).named
  cases call
  case requestLease args =>
    rw [List.mem_singleton.mp hm]
    exact (requestLease_named svc env args).bind fun _ ↦ .ret
  case bindLeaseProjectName leaseId token name =>
    rw [List.mem_singleton.mp hm]
    exact (bindLeaseProjectName_named svc env leaseId token name).bind fun _ ↦ .ret
  all_goals
    apply hother
    · intro _ h
      cases h
    · intro _ _ _ h
      cases h

/-- Every name in a run has been free, where the protocol asks for it. -/
theorem History.named {svc : Service} {C : Db → Write → Prop} {db db' : Db}
    {es : List PoolExecution} (h : History svc C db es db') :
    History svc (fun db w ↦ C db w ∧ NameGuard db w) db es db' := by
  induction h with
  | nil => exact .nil
  | scheduler _ tasks allocations settings cursor ih =>
      exact ih.scheduler tasks allocations settings cursor
  | transaction _ call env m hm hfresh hseen hok hC ih =>
      exact ih.transaction call env m hm hfresh hseen hok (hC.and (transactions_named hm _).1)

/-- The name that an execution gives to the lease, and the token of the client that chose it. -/
def namedBy (leaseId : ℕ) (e : PoolExecution) : Option (String × String) :=
  match e.write with
  | .admitLease q .. =>
      if e.before.leases.nextKey = leaseId then some (q.projectName, q.clientTokenHash) else none
  | .bindProjectName id _ tokenHash name _ => if id = leaseId then some (name, tokenHash) else none
  | _ => none

theorem namedBy_of_anonymous {db : Db} {w : Write} (hw : w.naming = false) (leaseId : ℕ) :
    namedBy leaseId ⟨db, w⟩ = none := by
  cases w
  case admitLease => cases hw
  case bindProjectName => cases hw
  all_goals rfl

/-- The row from which a lease has aged, with the name it had. -/
theorem named_before {db : Db} {w : Write} (hw : w.naming = false) (hguard : Guard db w)
    {l' : Lease} (hl' : l' ∈ (w.exec db).leases) :
    ∃ l ∈ db.leases, l.Ages l' ∧ l'.project = l.project := by
  have hages : db.Ages (w.exec db) := by
    apply Db.ages_exec (forLive_of_guard hguard)
    intro q reservation canary now hadmits
    rw [hadmits] at hw
    cases hw
  obtain ⟨l, hl, hlages⟩ := hages.exists_left hl'
  obtain ⟨x, hx, hkeeps⟩ := (KeepsLeases.exec db hw (renews_any w)).exists_left hl'
  have hid : x.id = l'.id := congrArg ProjectRecord.id hkeeps.project.symm
  have hxl : x = l := Table.eq_of_key_eq hx hl (hid.trans hlages.id)
  exact ⟨l, hl, hlages, hxl ▸ hkeeps.project⟩

theorem bindProjectName_row {db : Db} {leaseId : ℕ} {state : LeaseState} {tokenHash name : String}
    {now : Time} {l' : Lease}
    (hname : NameGuard db (.bindProjectName leaseId state tokenHash name now))
    (hl' : l' ∈ (bindProjectName leaseId state tokenHash name now db).leases) :
    ∃ l ∈ db.leases, l.id = l'.id ∧ l.state = l'.state ∧ l.protocolVersion = l'.protocolVersion ∧
      l.clientTokenHash = l'.clientTokenHash ∧
      if l.id = leaseId then l'.projectName = name ∧ l.clientTokenHash = tokenHash
      else l' = l := by
  obtain ⟨l, hl, rfl⟩ := Db.mem_onLeases.mp hl'
  obtain ⟨x, hx, hxid, hxstate, hxtoken, -⟩ := hname
  by_cases hid : l.id = leaseId
  · have hlx : l = x := Table.eq_of_key_eq hl hx (hid.trans hxid.symm)
    have hp : (l.id == leaseId && l.state == state && l.clientTokenHash == tokenHash) = true := by
      simp [hlx, hxid, hxstate, hxtoken]
    refine ⟨l, hl, ?_⟩
    rw [if_pos hp, if_pos hid]
    exact ⟨rfl, rfl, rfl, rfl, rfl, hlx ▸ hxtoken⟩
  · refine ⟨l, hl, ?_⟩
    have hp : (l.id == leaseId && l.state == state && l.clientTokenHash == tokenHash) = false := by
      simp [hid]
    simp [hp, hid]

theorem named_step {db : Db} {w : Write} (hguard : Guard db w) (hname : NameGuard db w)
    {l' : Lease} (hl' : l' ∈ (w.exec db).leases) :
    namedBy l'.id ⟨db, w⟩ = some (l'.projectName, l'.clientTokenHash) ∨
      (namedBy l'.id ⟨db, w⟩ = none ∧ ∃ l ∈ db.leases, l'.project = l.project) := by
  cases hw : w.naming with
  | false =>
      obtain ⟨l, hl, -, hproject⟩ := named_before hw hguard hl'
      exact .inr ⟨namedBy_of_anonymous hw _, l, hl, hproject⟩
  | true =>
      cases w <;> try cases hw
      case true.admitLease.refl q reservation canary now =>
        rcases (mem_admitLease q reservation canary now db).mp hl' with hold | rfl
        · have hne : db.leases.nextKey ≠ l'.id := (Table.lt_nextKey hold).ne'
          exact .inr ⟨if_neg hne, l', hold, rfl⟩
        · exact .inl (if_pos rfl)
      case true.bindProjectName.refl leaseId state tokenHash name now =>
        obtain ⟨l, hl, hid, -, -, htoken, hrow⟩ := bindProjectName_row hname hl'
        by_cases hbound : l.id = leaseId
        · rw [if_pos hbound] at hrow
          refine .inl ((if_pos (hbound.symm.trans hid)).trans ?_)
          rw [hrow.1, ← htoken, hrow.2]
        · rw [if_neg hbound] at hrow
          refine .inr ⟨if_neg fun h ↦ hbound (hid.trans h.symm), l, hl, ?_⟩
          rw [hrow]

/-- A lease has the name it got last, from the client whose token it has. -/
theorem Trace.last_name {C : Db → Write → Prop} {db : Db} {es : List PoolExecution}
    (h : Trace (fun db w ↦ C db w ∧ NameGuard db w) {} es db) {l : Lease} (hl : l ∈ db.leases) :
    (es.filterMap (namedBy l.id)).getLast? = some (l.projectName, l.clientTokenHash) := by
  induction h generalizing l with
  | nil => cases hl
  | scheduler _ _ _ _ _ ih => exact ih hl
  | write _ hguard hC ih =>
      rw [List.filterMap_append]
      rcases named_step hguard hC.2 hl with hnamed | ⟨hnone, x, hx, hproject⟩
      · simp [hnamed]
      · have hid : l.id = x.id := congrArg ProjectRecord.id hproject
        have hname : l.projectName = x.projectName := congrArg ProjectRecord.projectName hproject
        have htoken : l.clientTokenHash = x.clientTokenHash :=
          congrArg ProjectRecord.clientTokenHash hproject
        rw [hid] at hnone
        rw [hid, hname, htoken]
        simpa [hnone] using ih hx

def Db.NamesApart (db : Db) : Prop :=
  ∀ a ∈ db.leases, ∀ b ∈ db.leases, a.state.live = true → b.state.live = true →
    2 ≤ a.protocolVersion → 2 ≤ b.protocolVersion → a.projectName = b.projectName → a.id = b.id

theorem Db.NamesApart.exec {db : Db} {w : Write} (h : db.NamesApart) (hguard : Guard db w)
    (hname : NameGuard db w) : (w.exec db).NamesApart := by
  intro a' ha' b' hb' halive hblive haproto hbproto hsame
  cases hw : w.naming with
  | false =>
      obtain ⟨a, ha, haages, haproject⟩ := named_before hw hguard ha'
      obtain ⟨b, hb, hbages, hbproject⟩ := named_before hw hguard hb'
      have hlive : ∀ {x x' : Lease}, x.Ages x' → x'.state.live = true → x.state.live = true := by
        intro x x' hages hlive
        by_contra hended
        rw [hages.ended (by simpa using hended)] at hlive
        cases hlive
      have haname : a'.projectName = a.projectName := congrArg ProjectRecord.projectName haproject
      have hbname : b'.projectName = b.projectName := congrArg ProjectRecord.projectName hbproject
      have hav : a'.protocolVersion = a.protocolVersion :=
        congrArg ProjectRecord.protocolVersion haproject
      have hbv : b'.protocolVersion = b.protocolVersion :=
        congrArg ProjectRecord.protocolVersion hbproject
      rw [haages.id, hbages.id]
      apply h a ha b hb (hlive haages halive) (hlive hbages hblive)
      · omega
      · omega
      · rw [← haname, ← hbname, hsame]
  | true =>
      cases w <;> try cases hw
      case true.admitLease.refl q reservation canary now =>
        -- a new protocol-v2 lease shares its name with no live lease
        have hnew : ∀ x ∈ db.leases, x.state.live = true → 2 ≤ q.protocolVersion →
            x.projectName ≠ q.projectName := by
          intro x hx hlive hproto hxname
          rw [hname hproto x hx trivial hxname] at hlive
          cases hlive
        rcases (mem_admitLease q reservation canary now db).mp ha' with ha | rfl
        · rcases (mem_admitLease q reservation canary now db).mp hb' with hb | rfl
          · exact h a' ha b' hb halive hblive haproto hbproto hsame
          · exact (hnew a' ha halive hbproto hsame).elim
        · rcases (mem_admitLease q reservation canary now db).mp hb' with hb | rfl
          · exact (hnew b' hb hblive haproto hsame.symm).elim
          · rfl
      case true.bindProjectName.refl leaseId state tokenHash name now =>
        obtain ⟨a, ha, haid, hastate, hav, -, harow⟩ := bindProjectName_row hname ha'
        obtain ⟨b, hb, hbid, hbstate, hbv, -, hbrow⟩ := bindProjectName_row hname hb'
        obtain ⟨x, hx, hxid, -, -, hfree⟩ := hname
        have hbound : ∀ {y : Lease}, y ∈ db.leases → y.id = leaseId → y = x :=
          fun hy hid ↦ Table.eq_of_key_eq hy hx (hid.trans hxid.symm)
        by_cases haleft : a.id = leaseId
        · by_cases hbleft : b.id = leaseId
          · rw [← haid, ← hbid, haleft, hbleft]
          · rw [if_pos haleft] at harow
            rw [if_neg hbleft] at hbrow
            have hax := hbound ha haleft
            have hdead := hfree (by rw [← hax, hav]; exact haproto) b hb hbleft
              (by rw [← hbrow, ← hsame, harow.1])
            rw [← hbrow, hblive] at hdead
            cases hdead
        · by_cases hbleft : b.id = leaseId
          · rw [if_neg haleft] at harow
            rw [if_pos hbleft] at hbrow
            have hbx := hbound hb hbleft
            have hdead := hfree (by rw [← hbx, hbv]; exact hbproto) a ha haleft
              (by rw [← harow, hsame, hbrow.1])
            rw [← harow, halive] at hdead
            cases hdead
          · rw [if_neg haleft] at harow
            rw [if_neg hbleft] at hbrow
            subst harow hbrow
            exact h a' ha b' hb halive hblive haproto hbproto hsame

theorem namesApart_stable {C : Db → Write → Prop} {I : Db → Prop} :
    Stable (fun db w ↦ C db w ∧ NameGuard db w) I Db.NamesApart :=
  ⟨fun _ hguard hC h ↦ h.exec hguard hC.2, fun _ _ _ _ h ↦ h⟩

theorem nameFree_of_named {db : Db} {w : Write} (hname : NameGuard db w) {l : Lease}
    (hl : l ∈ (w.exec db).leases) {name tokenHash : String}
    (hnamed : namedBy l.id ⟨db, w⟩ = some (name, tokenHash)) (hproto : 2 ≤ l.protocolVersion) :
    db.nameFree name fun x ↦ x.id ≠ l.id := by
  cases hw : w.naming with
  | false =>
      rw [namedBy_of_anonymous hw] at hnamed
      cases hnamed
  | true =>
      cases w <;> try cases hw
      case true.admitLease.refl q reservation canary now =>
        by_cases hkey : db.leases.nextKey = l.id
        · rw [show namedBy l.id ⟨db, .admitLease q reservation canary now⟩ =
            some (q.projectName, q.clientTokenHash) from if_pos hkey] at hnamed
          cases hnamed
          have hnew : l = newLease q reservation canary now db.leases.nextKey := by
            rcases (mem_admitLease q reservation canary now db).mp hl with hold | rfl
            · exact ((Table.lt_nextKey hold).ne hkey.symm).elim
            · rfl
          intro x hx _ hxname
          apply hname _ x hx trivial hxname
          rw [hnew] at hproto
          exact hproto
        · rw [show namedBy l.id ⟨db, .admitLease q reservation canary now⟩ = none from
            if_neg hkey] at hnamed
          cases hnamed
      case true.bindProjectName.refl leaseId state hash bound now =>
        obtain ⟨x, hx, hid, -, hversion, -⟩ := bindProjectName_row hname hl
        by_cases hkey : leaseId = l.id
        · rw [show namedBy l.id ⟨db, .bindProjectName leaseId state hash bound now⟩ =
            some (bound, hash) from if_pos hkey] at hnamed
          cases hnamed
          obtain ⟨y, hy, hyid, -, -, hfree⟩ := hname
          have hxy : x = y := Table.eq_of_key_eq hx hy (by
            change x.id = y.id
            rw [hid, hyid, hkey])
          rw [← hkey]
          apply hfree
          rw [← hxy, hversion]
          exact hproto
        · rw [show namedBy l.id ⟨db, .bindProjectName leaseId state hash bound now⟩ = none from
            if_neg hkey] at hnamed
          cases hnamed

/-- Two live leases share a name only if the one that got it later has protocol v1, and on one
Desktop only if both have.  A Desktop is told to close the project of a lease under the name that
the lease's own client gave it last. -/
theorem project_names_own (svc : Service) (es : List PoolExecution) (db : Db)
    (h : History svc AnyWrite {} es db) :
    (∀ a ∈ db.leases, ∀ b ∈ db.leases, a.id ≠ b.id → a.state.live = true → b.state.live = true →
      a.projectName = b.projectName → (a.protocolVersion < 2 ∨ b.protocolVersion < 2) ∧
        ∀ sid, a.holds sid = true → b.holds sid = true →
          a.protocolVersion < 2 ∧ b.protocolVersion < 2) ∧
    (∀ e ∈ es, ∀ l ∈ e.after.leases, ∀ name tokenHash, namedBy l.id e = some (name, tokenHash) →
      2 ≤ l.protocolVersion → e.before.nameFree name fun x ↦ x.id ≠ l.id) ∧
    ∀ env sid token c, svc.sessionCommands env db sid token = .ok c → ∀ l ∈ c.closeProjects,
      (es.filterMap (namedBy l.id)).getLast? = some (l.projectName, l.clientTokenHash) := by
  have hnamed := h.named
  have hstart : Db.NamesApart {} := fun a ha ↦ by cases ha
  have hapart : db.NamesApart :=
    hnamed.run.stable sound_invariant namesApart_stable sound_empty hstart
  have hisolated : Isolated db := Reachable.isolated h.run
  refine ⟨fun a ha b hb hne halive hblive hsame ↦ ?_, fun e he l hl name tokenHash ↦ ?_,
    fun env sid token c hc l hl ↦ ?_⟩
  · have hone : a.protocolVersion < 2 ∨ b.protocolVersion < 2 := by
      by_contra hboth
      apply hne
      apply hapart a ha b hb halive hblive
      · omega
      · omega
      · exact hsame
    refine ⟨hone, fun sid hah hbh ↦ ?_⟩
    have hprotocol := (hisolated.compatible a ha b hb sid hah hbh hne).protocol
    omega
  · have hguard := (hnamed.checked sound_invariant sound_empty e he).2.2.2
    exact nameFree_of_named hguard hl
  · apply hnamed.trace.last_name
    unfold Service.sessionCommands at hc
    cases hs : svc.authorizeSession env.seen sid token with
    | error e => simp [hs, bind, Except.bind] at hc
    | ok s =>
        simp only [hs, bind, Except.bind, pure, Except.pure, Except.ok.injEq] at hc
        subst hc
        exact (Table.mem_select.mp (List.mem_filter.mp hl).1).1

def sharedName : List Event :=
  openDesktop .empty ++
    [.call {} 100010 (.requestLease { legacyRequest 1 "maxwell" with projectName := "coil" }),
     .call {} 100010 (.requestLease { legacyRequest 2 "maxwell" with projectName := "coil" }),
     .call {} 100011 (.cancelLease 1 (clientToken 1) "done")]

theorem project_names_own_shared :
    let es := scriptExecutions sampleService sharedName {}
    let db := script sampleService sharedName {}
    (∀ a ∈ db.leases, ∀ b ∈ db.leases, a.id ≠ b.id → a.state.live = true → b.state.live = true →
      a.projectName = b.projectName → (a.protocolVersion < 2 ∨ b.protocolVersion < 2) ∧
        ∀ sid, a.holds sid = true → b.holds sid = true →
          a.protocolVersion < 2 ∧ b.protocolVersion < 2) ∧
    (∀ e ∈ es, ∀ l ∈ e.after.leases, ∀ name tokenHash, namedBy l.id e = some (name, tokenHash) →
      2 ≤ l.protocolVersion → e.before.nameFree name fun x ↦ x.id ≠ l.id) ∧
    ∀ env sid token c, sampleService.sessionCommands env db sid token = .ok c →
      ∀ l ∈ c.closeProjects,
        (es.filterMap (namedBy l.id)).getLast? = some (l.projectName, l.clientTokenHash) :=
  project_names_own sampleService (scriptExecutions sampleService sharedName {})
    (script sampleService sharedName {}) (history_script sound_empty (by decide))

/-- Both leases are live, the first one releasing, and have one name. -/
theorem shared_name_closed :
    ¬ ∀ (svc : Service) (db : Db), Reachable svc AnyWrite db → ∀ a ∈ db.leases, ∀ b ∈ db.leases,
      a.state.live = true → b.state.live = true → a.projectName = b.projectName → a.id = b.id := by
  intro h
  have hreachable : Reachable sampleService AnyWrite (script sampleService sharedName {}) :=
    reachable_script (by decide)
  have hids : ((script sampleService sharedName {}).leases.rows.map
      fun l ↦ (l.id, l.projectName, l.state)) = [(1, "coil", .releasing), (2, "coil", .leased)] := by
    decide +kernel
  obtain ⟨a, ha, hrow⟩ := List.mem_map.mp (hids ▸ List.mem_cons_self)
  obtain ⟨b, hb, hrow'⟩ := List.mem_map.mp
    (hids ▸ List.mem_cons_of_mem _ List.mem_cons_self :
      ((2, "coil", .leased) : ℕ × String × LeaseState) ∈ _)
  have hone := h _ _ hreachable a ha b hb (by simp_all; rfl) (by simp_all; rfl) (by simp_all)
  simp_all

end SlurmScheduler.Pool
