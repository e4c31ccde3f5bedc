import SlurmScheduler.Host.Run

namespace SlurmScheduler.Host

open Relational Concurrent Discipline Statement
open Pool (Env)

def Write.native : Write → Option Helper
  | .enter h _ => some h
  | .leave h _ _ => some h
  | _ => none

def Write.plain : Write → Bool
  | .enter _ _ => false
  | .leave _ _ _ => false
  | .beginClose _ => false
  | .commands _ => false
  | .proof _ => false
  | _ => true

theorem Write.native_of_plain {w : Write} (hw : w.plain = true) : w.native = none := by
  cases w <;> simp_all [plain, native]

abbrev HostDiscipline : Type := Discipline State Write Lock Thread

/-- Under these locks plain writes are allowed, and they leave `F` alone. -/
structure Bystander (D : HostDiscipline) (held : Lock → Bool) (F : State → Prop) : Prop where
  steady : D.Steady held F
  keep : ∀ s w, D.inv s → D.may held s w → D.cond s w → D.inv (apply w s)
  plain : ∀ s w, D.inv s → F s → w.plain = true →
    D.may held s w ∧ (D.cond s w → F (apply w s))
  pre : ∀ s t, D.inv s → (∀ callable, t ≠ Thread.collectMessages callable) → D.pre t s

structure Enters (D : HostDiscipline) (held : Lock → Bool) (F : State → Prop) (h : Helper) : Prop
    extends Bystander D held F where
  native : ∀ s w, D.inv s → F s → w.native = some h →
    D.may held s w ∧ (D.cond s w → F (apply w s))

structure EntersGuarded (host : Setup) (D : HostDiscipline) (held : Lock → Bool)
    (F : State → Prop) (h : Helper) : Prop extends Bystander D held F where
  locked : Enters D (Function.update held .automation true) F h
  unlocked : host.hasLock = false → Enters D held F h

variable {host : Setup} {D : HostDiscipline} {held : Lock → Bool} {F : State → Prop} {α : Type}
  {h : Helper}
  {E : HostError → State → Prop}

theorem frames_ask {q : Question} : D.Frames held F E (ask q) := frames_query

theorem frames_fail {message : String} : D.Frames held F (fun _ ↦ F) (fail message : Action α) :=
  frames_throw fun _ hs ↦ hs

namespace Bystander

variable (hD : Bystander D held F)
include hD

theorem self {f : State → α} : D.Frames held F E (self f) := frames_read hD.steady

theorem record {w : Write} (hw : w.plain = true) : D.Frames held F E (record w) :=
  frames_write hD.steady fun s hinv hs ↦ hD.plain s w hinv hs hw

theorem spawn {t : Thread} (ht : ∀ callable, t ≠ .collectMessages callable) :
    D.Frames held F E (spawn t) :=
  Discipline.frames_spawn hD.steady fun s hinv _ ↦ hD.pre s t hinv ht

theorem transact {f : State → List Write × α} (hf : ∀ s, ∀ w ∈ (f s).1, w.plain = true) :
    D.Frames held F E (transact f) :=
  frames_transact hD.steady hD.keep fun s₀ w hw s hinv hs ↦ hD.plain s w hinv hs (hf s₀ w hw)

end Bystander

theorem frames_orRaise {r : NativeResult} : D.Frames held F (fun _ ↦ F) (orRaise r) := by
  cases r with
  | ok b => exact frames_pure
  | error e => exact frames_fail

theorem frames_offers {resolved : Bool} {c : NativeCall} : D.Frames held F E (offers resolved c) :=
  frames_ite (fun _ ↦ frames_ask) fun _ ↦ frames_pure

namespace Enters

section

variable (hD : Enters D held F h)
include hD

theorem call {c : NativeCall} : D.Frames held F E (call h c) := by
  have hwrite : ∀ w : Write, w.native = some h → D.Frames held F E (Host.record w) :=
    fun w hw ↦ frames_write hD.steady fun s hinv hs ↦ hD.native s w hinv hs hw
  exact frames_bind frames_ask fun r ↦ frames_bind (hwrite _ rfl) fun _ ↦
    frames_bind (hwrite _ rfl) fun _ ↦ frames_pure

theorem callEither {c : NativeCall} : D.Frames held F (fun _ ↦ F) (callEither h c) := by
  refine frames_bind hD.call fun r ↦ ?_
  cases r with
  | ok b => exact frames_pure
  | error e =>
      refine frames_ite (fun _ ↦ ?_) fun _ ↦ frames_fail
      exact frames_bind hD.call fun r ↦ frames_bind frames_orRaise fun _ ↦ frames_pure

theorem odesktop : D.Frames held F (fun _ ↦ F) (odesktop h) := by
  refine frames_bind hD.self fun desktop ↦ frames_ite (fun _ ↦ ?_) fun _ ↦ frames_pure
  exact frames_bind hD.call fun r ↦ frames_orRaise

end

theorem getVersion (hD : Enters D held F .probe) : D.Frames held F E getVersion := by
  refine frames_bind (frames_attempt ?_) fun r ↦ ?_
  · refine frames_bind hD.odesktop fun resolved ↦ frames_bind frames_offers fun callable ↦
      frames_ite (fun _ ↦ ?_) fun _ ↦ frames_fail
    exact frames_bind hD.call fun r ↦ frames_bind frames_orRaise fun _ ↦ frames_pure
  · cases r <;> exact frames_pure

theorem collectMessages (hD : Enters D held F .diagnostics) {callable : Bool} :
    D.Frames held F (fun _ ↦ F) (collectMessages callable) :=
  frames_ite (fun _ ↦ hD.callEither) fun _ ↦ frames_pure

theorem closeProjectUnlocked (hD : Enters D held F .projectClose) {projectName : String} :
    D.Frames held F (fun _ ↦ F) (closeProjectUnlocked projectName) := by
  have hopen : ∀ resolved, D.Frames held F (fun _ ↦ F) (mayBeOpen resolved) := by
    refine fun resolved ↦ frames_ite (fun _ ↦ frames_bind hD.call fun r ↦ ?_) fun _ ↦ frames_pure
    cases r <;> exact frames_pure
  refine frames_bind hD.odesktop fun resolved ↦ frames_bind (hopen resolved) fun listed ↦
    frames_ite (fun _ ↦ frames_pure) fun _ ↦ frames_bind frames_ask fun callable ↦ ?_
  refine frames_ite (fun _ ↦ hD.callEither) fun _ ↦ frames_ite (fun _ ↦ ?_) fun _ ↦ frames_fail
  exact frames_bind hD.call fun r ↦ frames_bind frames_orRaise fun _ ↦ frames_pure

theorem stopSimulations (hD : Enters D held F .globalStop) :
    D.Frames held F (fun _ ↦ F) stopSimulations := by
  refine frames_bind hD.odesktop fun resolved ↦ frames_ite (fun _ ↦ ?_) fun _ ↦ frames_fail
  exact frames_bind hD.call fun r ↦ frames_bind frames_orRaise fun _ ↦ frames_pure

theorem releaseDesktop (hD : Enters D held F .shutdown) :
    D.Frames held F (fun _ ↦ F) releaseDesktop := by
  refine frames_bind hD.self fun desktop ↦ frames_ite (fun _ ↦ frames_pure) fun _ ↦
    frames_bind frames_ask fun callable ↦ ?_
  exact frames_ite (fun _ ↦ frames_bind hD.callEither fun _ ↦ hD.record rfl) fun _ ↦ hD.record rfl

end Enters

namespace EntersGuarded

theorem guard {p : Action α} (hD : EntersGuarded host D held F h)
    (hlocked : D.Frames (Function.update held .automation true) F (fun _ ↦ F) p)
    (hunlocked : host.hasLock = false → D.Frames held F (fun _ ↦ F) p) :
    D.Frames held F (fun _ ↦ F) (automationGuard host p) := by
  refine frames_ite (fun _ ↦ frames_bind frames_ask fun acquisition ↦ ?_) fun hne ↦
    hunlocked (Bool.eq_false_of_not_eq_true hne)
  cases acquisition with
  | acquired => exact frames_locked hD.steady hlocked
  | timedOut => exact frames_fail
  | failed message => exact frames_fail

theorem probeCall (hD : EntersGuarded host D held F .probe) :
    D.Frames held F E (probeCall host) := by
  have hget : D.Frames held F E (getVersionUnlessBusy host) := by
    refine frames_ite (fun _ ↦ frames_bind frames_ask fun acquisition ↦ ?_) fun hne ↦
      (hD.unlocked (Bool.eq_false_of_not_eq_true hne)).getVersion
    cases acquisition with
    | acquired => exact frames_locked hD.steady hD.locked.getVersion
    | timedOut => exact frames_pure
    | failed message => exact frames_pure
  exact frames_bind hget fun outcome ↦ hD.record rfl

theorem closeAndPrepareProjectRelease (hD : EntersGuarded host D held F .projectClose)
    {lease : Pool.Lease} : D.Frames held F (fun _ ↦ F) (closeAndPrepareProjectRelease host lease) := by
  have hbounded : D.Frames held F (fun _ ↦ F) (closeProjectBounded host lease.projectName) := by
    refine frames_ite (fun _ ↦ frames_bind frames_ask fun acquisition ↦ ?_) fun hne ↦
      frames_bind (hD.unlocked (Bool.eq_false_of_not_eq_true hne)).closeProjectUnlocked fun _ ↦
        frames_pure
    cases acquisition with
    | acquired =>
        exact frames_bind (frames_locked hD.steady hD.locked.closeProjectUnlocked) fun _ ↦
          frames_pure
    | timedOut => exact frames_pure
    | failed message => exact frames_fail
  have hprepare : D.Frames held F (fun _ ↦ F) (prepareReleasedProjectWorkspace lease.id) := by
    refine frames_bind frames_ask fun r ↦ ?_
    cases r with
    | ok _ => exact frames_pure
    | error message => exact frames_fail
  exact frames_bind hbounded fun closed ↦ frames_ite
    (fun _ ↦ frames_bind hprepare fun _ ↦ frames_pure) fun _ ↦ frames_pure

theorem globalStop (hD : EntersGuarded host D held F .globalStop) :
    D.Frames held F (fun _ ↦ F) (globalStop host) :=
  hD.guard hD.locked.stopSimulations fun hne ↦ (hD.unlocked hne).stopSimulations

theorem closeDesktop (hD : EntersGuarded host D held F .shutdown) :
    D.Frames held F (fun _ ↦ F) (closeDesktop host) :=
  hD.guard hD.locked.releaseDesktop fun hne ↦ (hD.unlocked hne).releaseDesktop

theorem graceful (hstop : EntersGuarded host D held F .globalStop)
    (hclose : EntersGuarded host D held F .shutdown) {stop : Bool} {id : ℕ} :
    D.Frames held F E (graceful host stop id) := by
  refine frames_bind (frames_attempt ?_) fun r ↦ hclose.record rfl
  exact frames_ite (fun _ ↦ frames_bind hstop.globalStop fun _ ↦ hclose.closeDesktop)
    fun _ ↦ hclose.closeDesktop

end EntersGuarded

namespace Bystander

variable (hD : Bystander D held F)
include hD

theorem deliver {id : ℕ} : D.Frames held F E (deliver host id) := by
  refine frames_bind hD.self fun seen ↦ frames_bind frames_ask fun env ↦ hD.transact ?_
  intro s w hw
  cases hsent : s.requests[id]? with
  | none => simp [hsent] at hw
  | some sent =>
      rcases hserve : host.serve { env with seen } sent.request s.db with ⟨e | a, writes⟩
      · simp only [hsent, hserve, List.mem_singleton] at hw
        subst hw
        rfl
      · simp only [hsent, hserve, List.mem_cons, List.mem_map] at hw
        rcases hw with rfl | ⟨w, -, rfl⟩ <;> rfl

theorem request {r : Request} : D.Frames held F E (request host r) := by
  have hresponse : ∀ id, D.Frames held F E (response host r id) := by
    refine fun id ↦ hD.transact fun s w hw ↦ ?_
    cases hsent : (s.requests[id]?).bind (·.processed) with
    | none => simp [hsent] at hw
    | some found =>
        simp only [hsent, List.mem_singleton] at hw
        subst hw
        rfl
  have hsend : D.Frames held F E (Host.transact fun s ↦ ([.send r], s.requests.length)) :=
    hD.transact fun s w hw ↦ by rw [List.mem_singleton.mp hw]; rfl
  refine frames_bind hsend fun id ↦ frames_bind (hD.spawn (by rintro _ ⟨⟩)) fun _ ↦
    frames_bind frames_ask fun arrived ↦ ?_
  exact frames_ite (fun _ ↦ hresponse id) fun _ ↦ frames_pure

theorem reportClosed {closure : Pool.Closure} : D.Frames held F E (reportClosed host closure) :=
  frames_bind hD.request fun _ ↦ frames_pure

theorem nativeDesktopResponds : D.Frames held F E nativeDesktopResponds := by
  have hconsume : D.Frames held F E consumeProbe := by
    refine frames_bind hD.self fun thread ↦ ?_
    cases thread with
    | finished outcome => exact frames_bind (hD.record rfl) fun _ ↦ frames_pure
    | none => exact frames_pure
    | running => exact frames_pure
  refine frames_bind hD.self fun thread ↦ frames_ite (fun _ ↦ ?_) fun _ ↦ hconsume
  exact frames_bind (hD.record rfl) fun _ ↦ frames_bind (hD.spawn (by rintro _ ⟨⟩)) fun _ ↦ hconsume

theorem judgeProbe {outcome : NativeProbe} : D.Frames held F E (judgeProbe outcome) := by
  have hfailed : D.Frames held F E (do
      Host.record .probeFailed
      let failures ← Host.self (·.nativeProbeFailures)
      let elapsed ← ask .elapsed
      pure (.suspect (probeSuspect failures elapsed)) : Action Liveness) :=
    frames_bind (hD.record rfl) fun _ ↦ frames_bind hD.self fun failures ↦
      frames_bind frames_ask fun elapsed ↦ frames_pure
  refine frames_bind (hD.record rfl) fun _ ↦ ?_
  cases outcome with
  | deferredBusy => exact frames_pure
  | ok => exact frames_bind (hD.record rfl) fun _ ↦ frames_pure
  | failed => exact hfailed
  | notRun => exact hfailed

theorem killUnlessEnded {ended alive : Option Bool} :
    D.Frames held F E (killUnlessEnded ended alive) :=
  frames_ite (fun _ ↦ frames_pure) fun _ ↦ frames_bind (hD.record rfl) fun _ ↦ frames_ask

theorem poolCall {call : Pool.Call} {env : Env} {s : State} (hs : F s) :
    D.wp (poolCall host call env) (fun _ _ _ ↦ True) held s := by
  have htransaction : ∀ i, D.Frames held F (fun _ ↦ F) (poolTransaction host call env i) := by
    refine fun i ↦ hD.transact fun s w hw ↦ ?_
    cases hm : (call.transactions host.svc env)[i]? with
    | none => simp [hm] at hw
    | some m =>
        rcases hrun : m s.db with ⟨e | a, writes⟩
        · simp [hm, hrun] at hw
        · simp only [hm, hrun, List.mem_map] at hw
          obtain ⟨w, -, rfl⟩ := hw
          rfl
  refine wp_mono (wp_forEach (I := F) (fun i _ s hs ↦ ?_) hs) fun _ _ _ _ ↦ trivial
  refine wp_bind.mpr (wp_mono (htransaction i s hs) ?_)
  rintro r _ s' ⟨rfl, hr⟩
  cases r with
  | ok _ => exact ⟨rfl, hr⟩
  | error e => exact ⟨rfl, hr⟩

end Bystander

theorem Bystander.clientTransaction (hD : Bystander D held F)
    (hlocked : Bystander D (Function.update held .automation true) F) :
    D.Frames held F E clientTransaction :=
  frames_locked hD.steady (frames_bind (hlocked.record rfl) fun _ ↦ hlocked.record rfl)

end SlurmScheduler.Host
