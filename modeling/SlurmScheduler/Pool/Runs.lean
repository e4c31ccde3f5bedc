import SlurmScheduler.Pool.GuardedCalls

namespace SlurmScheduler.Pool

open Relational

/-- `P` survives every guarded write that meets `C`, in states that satisfy `I`. -/
structure Stable (C : Db → Write → Prop) (I P : Db → Prop) : Prop where
  write : ∀ {db : Db} {w : Write}, I db → Guard db w → C db w → P db → P (w.exec db)
  scheduler : ∀ {db : Db} (tasks : Table Task) (allocations : Table Allocation)
    (settings : List (String × String)) (cursor : ℕ), P db →
      P { db with tasks, allocations, settings, placementCursor := cursor }

structure Invariant (C : Db → Write → Prop) (I : Db → Prop) : Prop where
  start : I {}
  stable : Stable C I I

variable {svc : Service} {C D : Db → Write → Prop} {I P Q : Db → Prop} {db db' : Db}

theorem Stable.mono (h : Stable C I P) (hI : ∀ db, Q db → I db)
    (hC : ∀ db w, D db w → C db w) : Stable D Q P :=
  ⟨fun hq hguard hD ↦ h.write (hI _ hq) hguard (hC _ _ hD), h.scheduler⟩

theorem Stable.and (hP : Stable C I P) (hQ : Stable C I Q) :
    Stable C I fun db ↦ P db ∧ Q db :=
  ⟨fun hI hguard hC h ↦ ⟨hP.write hI hguard hC h.1, hQ.write hI hguard hC h.2⟩,
    fun tasks allocations settings cursor h ↦
      ⟨hP.scheduler tasks allocations settings cursor h.1,
        hQ.scheduler tasks allocations settings cursor h.2⟩⟩

theorem Stable.with (hP : Stable C I P) (hQ : Stable C (fun db ↦ I db ∧ P db) Q) :
    Stable C I fun db ↦ P db ∧ Q db :=
  ⟨fun hI hguard hC h ↦ ⟨hP.write hI hguard hC h.1, hQ.write ⟨hI, h.1⟩ hguard hC h.2⟩,
    fun tasks allocations settings cursor h ↦
      ⟨hP.scheduler tasks allocations settings cursor h.1,
        hQ.scheduler tasks allocations settings cursor h.2⟩⟩

theorem Invariant.and (hI : Invariant C I) (hstart : P {}) (hP : Stable C (fun db ↦ I db ∧ P db) P) :
    Invariant C fun db ↦ I db ∧ P db :=
  ⟨⟨hI.start, hstart⟩, (hI.stable.mono (fun _ h ↦ h.1) fun _ _ h ↦ h).and hP⟩

def Committed (C : Db → Write → Prop) (db : Db) (ws : List Write) : Prop :=
  Journal (fun db w ↦ Guard db w ∧ C db w) db ws

theorem committed_transaction {call : Call} {env : Env} {m : PoolTx Unit}
    (hm : m ∈ call.transactions svc env) (hfresh : call.Fresh db) (hseen : env.Earlier db)
    (hC : Journal C db (m db).2) : Committed C db (m db).2 :=
  (transactions_guarded hm hfresh hseen).1.and hC

theorem Tx.commit_of_ok {α : Type} {m : PoolTx α} (h : (m db).1.isOk = true) :
    m.commit db = replay (m db).2 db := by
  unfold Tx.commit
  rcases hm : m db with ⟨r | a, ws⟩
  · rw [hm] at h
    cases h
  · rfl

theorem Tx.commit_of_error {α : Type} {m : PoolTx α} (h : (m db).1.isOk = false) :
    m.commit db = db := by
  unfold Tx.commit
  rcases hm : m db with ⟨r | a, ws⟩
  · rfl
  · rw [hm] at h
    cases h

theorem Committed.with_invariant (hI : Invariant C I) {ws : List Write} (h : Committed C db ws)
    (hdb : I db) : Journal (fun db w ↦ I db ∧ Guard db w ∧ C db w) db ws :=
  Journal.with_invariant h (fun _ _ hs hw ↦ hI.stable.write hs hw.1 hw.2 hs) hdb

theorem Committed.stable (hI : Invariant C I) (hP : Stable C I P) {ws : List Write}
    (h : Committed C db ws) (hdb : I db) (hpdb : P db) : P (replay ws db) :=
  (h.with_invariant hI hdb).preserves
    (fun _ _ hs hw ↦ hP.write hw.1 hw.2.1 hw.2.2 hs) hpdb

theorem Step.stable (hI : Invariant C I) (hP : Stable C I P) (h : Step svc C db db') (hdb : I db)
    (hpdb : P db) : P db' := by
  cases h with
  | scheduler tasks allocations settings cursor =>
      exact hP.scheduler tasks allocations settings cursor hpdb
  | transaction call env m hm hfresh hseen hC =>
      cases hok : (m db).1.isOk with
      | false => rwa [Tx.commit_of_error hok]
      | true =>
          rw [Tx.commit_of_ok hok]
          exact (committed_transaction hm hfresh hseen (hC hok)).stable hI hP hdb hpdb

theorem Run.stable (hI : Invariant C I) (hP : Stable C I P) (h : Run svc C db db') (hdb : I db)
    (hpdb : P db) : P db' := by
  suffices I db' ∧ P db' from this.2
  induction h with
  | refl => exact ⟨hdb, hpdb⟩
  | tail _ hstep ih =>
      exact ⟨hstep.stable hI hI.stable ih.1 ih.1, hstep.stable hI hP ih.1 ih.2⟩

theorem Reachable.holds (h : Reachable svc C db) (hI : Invariant C I) : I db :=
  Run.stable hI hI.stable h hI.start hI.start

abbrev PoolExecution := Execution Db Write

/-- A run and the writes of its committed transactions, in order. -/
inductive History (svc : Service) (C : Db → Write → Prop) (db : Db) :
    List PoolExecution → Db → Prop
  | nil : History svc C db [] db
  | transaction {es : List PoolExecution} {db' : Db} (h : History svc C db es db') (call : Call)
      (env : Env) (m : PoolTx Unit) (hm : m ∈ call.transactions svc env) (hfresh : call.Fresh db')
      (hseen : env.Earlier db') (hok : (m db').1.isOk = true) (hC : Journal C db' (m db').2) :
      History svc C db (es ++ executions db' (m db').2) (m.commit db')
  | scheduler {es : List PoolExecution} {db' : Db} (h : History svc C db es db')
      (tasks : Table Task) (allocations : Table Allocation) (settings : List (String × String))
      (cursor : ℕ) :
      History svc C db es { db' with tasks, allocations, settings, placementCursor := cursor }

namespace History

variable {es : List PoolExecution}

theorem run (h : History svc C db es db') : Run svc C db db' := by
  induction h with
  | nil => exact .refl
  | transaction _ call env m hm hfresh hseen hok hC ih =>
      exact ih.tail (.transaction call env m hm hfresh hseen fun _ ↦ hC)
  | scheduler _ tasks allocations settings cursor ih =>
      exact ih.tail (.scheduler tasks allocations settings cursor)

/-- Every write of a run was executed under the invariant, its guard and the run's condition. -/
theorem checked (hI : Invariant C I) (h : History svc C db es db') (hdb : I db) :
    ∀ e ∈ es, I e.before ∧ Guard e.before e.write ∧ C e.before e.write := by
  induction h with
  | nil => exact List.forall_mem_nil _
  | scheduler _ _ _ _ _ ih => exact ih
  | transaction h call env m hm hfresh hseen hok hC ih =>
      intro e he
      rcases List.mem_append.mp he with he | he
      · exact ih e he
      · have hjournal := (committed_transaction hm hfresh hseen hC).with_invariant hI
          (h.run.stable hI hI.stable hdb hdb)
        exact journal_iff.mp hjournal e he

end History

/-- The writes that lead from one state to another, each one guarded and under the condition.
The scheduler may change its own tables between them. -/
inductive Trace (C : Db → Write → Prop) (db : Db) : List PoolExecution → Db → Prop
  | nil : Trace C db [] db
  | scheduler {es : List PoolExecution} {db' : Db} (h : Trace C db es db') (tasks : Table Task)
      (allocations : Table Allocation) (settings : List (String × String)) (cursor : ℕ) :
      Trace C db es { db' with tasks, allocations, settings, placementCursor := cursor }
  | write {es : List PoolExecution} {db' : Db} {w : Write} (h : Trace C db es db')
      (hguard : Guard db' w) (hC : C db' w) : Trace C db (es ++ [⟨db', w⟩]) (w.exec db')

namespace Trace

variable {es es' : List PoolExecution} {e : PoolExecution} {db'' : Db}

theorem trans (h : Trace C db es db') (h' : Trace C db' es' db'') :
    Trace C db (es ++ es') db'' := by
  induction h' with
  | nil => rwa [List.append_nil]
  | scheduler _ tasks allocations settings cursor ih =>
      exact ih.scheduler tasks allocations settings cursor
  | write _ hguard hC ih =>
      rw [← List.append_assoc]
      exact ih.write hguard hC

theorem of_committed {ws : List Write} (h : Committed C db ws) :
    Trace C db (executions db ws) (replay ws db) := by
  induction ws generalizing db with
  | nil => exact .nil
  | cons w ws ih =>
      have hfirst : Trace C db [⟨db, w⟩] (w.exec db) := Trace.nil.write h.1.1 h.1.2
      exact hfirst.trans (ih h.2)

/-- What is stable holds at the end and before every write. -/
theorem along (hI : Invariant C I) (hP : Stable D I P) (h : Trace C db es db')
    (hD : ∀ e ∈ es, D e.before e.write) (hdb : I db) (hpdb : P db) :
    (I db' ∧ P db') ∧ ∀ e ∈ es, P e.before := by
  induction h with
  | nil => exact ⟨⟨hdb, hpdb⟩, List.forall_mem_nil _⟩
  | scheduler _ tasks allocations settings cursor ih =>
      obtain ⟨⟨hi, hp⟩, hes⟩ := ih hD
      exact ⟨⟨hI.stable.scheduler tasks allocations settings cursor hi,
        hP.scheduler tasks allocations settings cursor hp⟩, hes⟩
  | @write es d w _ hguard hC ih =>
      obtain ⟨⟨hi, hp⟩, hes⟩ := ih fun e he ↦ hD e (List.mem_append_left _ he)
      have hlast := hD ⟨d, w⟩ (List.mem_append_right _ (List.mem_singleton_self _))
      refine ⟨⟨hI.stable.write hi hguard hC hi, hP.write hi hguard hlast hp⟩, fun e he ↦ ?_⟩
      rcases List.mem_append.mp he with he | he
      · exact hes e he
      · rw [List.mem_singleton.mp he]
        exact hp

theorem cut (h : Trace C db (es ++ e :: es') db') : Trace C db es e.before ∧
    Guard e.before e.write ∧ C e.before e.write ∧ Trace C e.after es' db' := by
  generalize hall : es ++ e :: es' = all at h
  induction h generalizing es' with
  | nil => simp at hall
  | scheduler _ tasks allocations settings cursor ih =>
      obtain ⟨hbefore, hguard, hC, hafter⟩ := ih hall
      exact ⟨hbefore, hguard, hC, hafter.scheduler tasks allocations settings cursor⟩
  | @write init d w h hguard hC ih =>
      rcases List.eq_nil_or_concat es' with rfl | ⟨rest, last, rfl⟩
      · obtain ⟨rfl, hlast⟩ := List.append_inj' hall rfl
        cases hlast
        exact ⟨h, hguard, hC, .nil⟩
      · rw [List.concat_eq_append, ← List.cons_append, ← List.append_assoc] at hall
        obtain ⟨hinit, hlast⟩ := List.append_inj' hall rfl
        cases hlast
        obtain ⟨hbefore, hguard', hC', hafter⟩ := ih hinit
        rw [List.concat_eq_append]
        exact ⟨hbefore, hguard', hC', hafter.write hguard hC⟩

end Trace

namespace History

variable {es es' : List PoolExecution} {e : PoolExecution}

theorem trace (h : History svc C db es db') : Trace C db es db' := by
  induction h with
  | nil => exact .nil
  | scheduler _ tasks allocations settings cursor ih =>
      exact ih.scheduler tasks allocations settings cursor
  | transaction _ call env m hm hfresh hseen hok hC ih =>
      rw [Tx.commit_of_ok hok]
      exact ih.trans (.of_committed (committed_transaction hm hfresh hseen hC))

/-- What a write makes true and no later write destroys stays true. -/
theorem since (hI : Invariant C I) (hP : Stable D I P)
    (h : History svc C db (es ++ e :: es') db') (hdb : I db)
    (hD : ∀ x ∈ es', D x.before x.write)
    (hafter : I e.before → Guard e.before e.write → C e.before e.write → P e.after) :
    P db' ∧ ∀ x ∈ es', P x.before := by
  obtain ⟨hbefore, hguard, hC, htrace⟩ := h.trace.cut
  have hi := (hbefore.along hI hI.stable (fun x hx ↦ ?_) hdb hdb).1.1
  · have halong := htrace.along hI hP hD (hI.stable.write hi hguard hC hi) (hafter hi hguard hC)
    exact ⟨halong.1.2, halong.2⟩
  · exact (h.checked hI hdb x (List.mem_append_left _ hx)).2.2

end History

end SlurmScheduler.Pool
