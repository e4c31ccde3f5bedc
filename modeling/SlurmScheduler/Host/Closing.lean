import SlurmScheduler.Host.Automation

namespace SlurmScheduler.Host

open Relational Concurrent Discipline Statement
open Pool (Env Db SessionCommands Refusal)

/-- A stop was requested, the process or its listener is gone, or the last command is to stop or
to drain without siblings. -/
def State.mayClose (s : State) : Bool :=
  s.stopRequested || s.proofFailed ||
    s.lastCommands.any fun c ↦ c.globalStopAllowed || (c.drain && c.siblingLiveCount == 0)

/-- No answer refuses a request that is acceptable only in another state, and no capture of native
diagnostics fails to resolve the proxy, unless the host may close its Desktop anyway. -/
def NeverRefused (host : Setup) (s : State) : Write → Prop
  | .receive r env db => s.mayClose = true ∨ host.acceptable env db r = true
  | .leave .diagnostics .odesktop (.error _) => s.mayClose = true
  | _ => True

instance (host : Setup) (s : State) (w : Write) : Decidable (NeverRefused host s w) := by
  unfold NeverRefused
  split <;> infer_instance

def closeDiscipline (host : Setup) : HostDiscipline where
  inv _ := True
  cond := NeverRefused host
  may held s w :=
    match w with
    | .beginClose _ => s.mayClose = true
    | .commands _ => held .main = true
    | .proof _ => held .main = true
    | _ => True
  rely held s s' := (s.stopRequested = true → s'.stopRequested = true) ∧
    (held .main = true → s'.lastCommands = s.lastCommands ∧ s'.proofFailed = s.proofFailed)
  pre _ _ := True

structure Kept (s₀ s : State) : Prop where
  stopped : s₀.stopRequested = true → s.stopRequested = true
  commands : s.lastCommands = s₀.lastCommands
  proof : s.proofFailed = s₀.proofFailed

def Lasting (F : State → Prop) : Prop :=
  ∀ s s', Kept s s' → F s → F s'

variable {host : Setup} {held : Lock → Bool} {h : Helper} {s s' : State} {F : State → Prop}
  {E : HostError → State → Prop}

theorem Kept.mayClose (h : Kept s s') (hs : s.mayClose = true) : s'.mayClose = true := by
  simp only [State.mayClose, Bool.or_eq_true] at hs ⊢
  rw [h.commands, h.proof]
  rcases hs with (hs | hs) | hs
  · exact .inl (.inl (h.stopped hs))
  · exact .inl (.inr hs)
  · exact .inr hs

theorem lasting_true : Lasting fun _ ↦ True := fun _ _ _ _ ↦ trivial

theorem lasting_mayClose : Lasting fun s ↦ s.mayClose = true := fun _ _ h hs ↦ h.mayClose hs

theorem lasting_commands {c : SessionCommands} : Lasting fun s ↦ s.lastCommands = some c :=
  fun _ _ h hs ↦ h.commands.trans hs

/-- Every write but those of the main thread keeps what it has been told. -/
theorem Write.kept {w : Write} (hc : ∀ c, w ≠ .commands c) (hp : ∀ b, w ≠ .proof b) (s : State) :
    Kept s (w.exec s) := by
  cases w with
  | commands c => exact absurd rfl (hc c)
  | proof b => exact absurd rfl (hp b)
  | requestStop => exact ⟨fun _ ↦ rfl, rfl, rfl⟩
  | _ => exact ⟨id, rfl, rfl⟩

theorem Write.kept_of_plain {w : Write} (hw : w.plain = true) (s : State) : Kept s (w.exec s) := by
  refine Write.kept (fun c hc ↦ ?_) (fun b hb ↦ ?_) s
  · rw [hc] at hw
    cases hw
  · rw [hb] at hw
    cases hw

theorem Write.kept_of_native {w : Write} (hw : w.native = some h) (s : State) :
    Kept s (w.exec s) := by
  refine Write.kept (fun c hc ↦ ?_) (fun b hb ↦ ?_) s
  · rw [hc] at hw
    cases hw
  · rw [hb] at hw
    cases hw

theorem close_coherent : (closeDiscipline host).Coherent where
  refl _ _ := ⟨id, fun _ ↦ ⟨rfl, rfl⟩⟩
  trans _ _ _ _ h h' := ⟨fun hs ↦ h'.1 (h.1 hs),
    fun hm ↦ ⟨(h'.2 hm).1.trans (h.2 hm).1, (h'.2 hm).2.trans (h.2 hm).2⟩⟩
  anti _ _ _ _ hsub h := ⟨h.1, fun hm ↦ h.2 (hsub _ hm)⟩
  compatible held held' s w hdis _ hmay _ := by
    refine ⟨fun hs ↦ ?_, fun hm ↦ ?_⟩
    · cases w <;> first | exact hs | rfl
    · have hfree := hdis _ hm
      have hkept := Write.kept (w := w) (fun c hw ↦ ?_) (fun b hw ↦ ?_) s
      · exact ⟨hkept.commands, hkept.proof⟩
      · rw [hw] at hmay
        exact absurd (hfree.symm.trans hmay) (by simp)
      · rw [hw] at hmay
        exact absurd (hfree.symm.trans hmay) (by simp)
  keep _ _ _ _ _ _ := trivial

theorem Lasting.steady (hF : Lasting F) (hmain : held .main = true) :
    (closeDiscipline host).Steady held F :=
  fun s s' hr hs ↦ hF s s' ⟨hr.1, (hr.2 hmain).1, (hr.2 hmain).2⟩ hs

theorem close_bystander (hsteady : (closeDiscipline host).Steady held F) (hF : Lasting F) :
    Bystander (closeDiscipline host) held F where
  steady := hsteady
  keep _ _ _ _ _ := trivial
  plain s w _ hs hw := by
    refine ⟨?_, fun _ ↦ hF s _ (Write.kept_of_plain hw s) hs⟩
    cases w <;> trivial
  pre _ _ _ _ := trivial

theorem close_enters (hsteady : (closeDiscipline host).Steady held F) (hF : Lasting F) :
    Enters (closeDiscipline host) held F h where
  toBystander := close_bystander hsteady hF
  native s w _ hs hw := by
    refine ⟨?_, fun _ ↦ hF s _ (Write.kept_of_native hw s) hs⟩
    cases w <;> trivial

theorem close_guarded (hsteady : ∀ held', (∀ l, held l = true → held' l = true) →
      (closeDiscipline host).Steady held' F) (hF : Lasting F) :
    EntersGuarded host (closeDiscipline host) held F h where
  toBystander := close_bystander (hsteady held fun _ hl ↦ hl) hF
  locked := by
    refine close_enters (hsteady _ fun l hl ↦ ?_) hF
    rw [Function.update_apply]
    split
    · rfl
    · exact hl
  unlocked _ := close_enters (hsteady held fun _ hl ↦ hl) hF

def OutageOr (F : State → Prop) : HostError → State → Prop
  | .unavailable => F
  | .failed _ => fun s ↦ s.mayClose = true

/-- What is said to the host lets it close its Desktop, or it is a reply, or it will be asked
again. -/
theorem request_ends {r : Request} (hr : ∀ closure, r ≠ .closed closure)
    (hmain : held .main = true) (hF : Lasting F) :
    (closeDiscipline host).Ends held F (request host r)
      (fun outcome s ↦ F s ∧ ∀ e, outcome = some (.error e) → Refusal e → s.mayClose = true) E := by
  have hD : Bystander (closeDiscipline host) held F := close_bystander (hF.steady hmain) hF
  have hsend : (closeDiscipline host).Frames held F E
      (transact fun s ↦ ([.send r], s.requests.length)) :=
    hD.transact fun s w hw ↦ by rw [List.mem_singleton.mp hw]; rfl
  have hresponse : ∀ id, (closeDiscipline host).Ends held F (response host r id)
      (fun outcome s ↦ F s ∧ ∀ e, outcome = some (.error e) → Refusal e → s.mayClose = true) E := by
    refine fun id ↦ ends_lift fun s hs s' hrely hinv ↦ ?_
    have hs' := hF.steady hmain s s' hrely hs
    cases hsent : (s'.requests[id]?).bind (·.processed) with
    | none =>
        simp only [hsent]
        exact ⟨rfl, hs', by simp⟩
    | some found =>
        obtain ⟨env, db⟩ := found
        simp only [hsent]
        refine ⟨trivial, fun hcond ↦ ⟨rfl, hs', fun e he hrefusal ↦ ?_⟩⟩
        rcases hcond with hmay | hacceptable
        · exact hmay
        · have hraises : (host.serve env r).Raises Refusal db := by
            unfold Tx.Raises
            rw [Option.some.inj he]
            exact ⟨e, rfl, hrefusal⟩
          rw [Setup.refused_iff hr, hacceptable] at hraises
          cases hraises
  refine ends_bind hsend fun id ↦ ends_bind (hD.spawn (by rintro _ ⟨⟩)) fun _ ↦
    ends_bind frames_ask fun arrived ↦ ends_ite (fun _ ↦ hresponse id) fun _ ↦ ?_
  exact ends_pure fun s hs ↦ ⟨hs, by simp⟩

theorem controlPlaneRequest_ends {r : Request} (hr : ∀ closure, r ≠ .closed closure)
    (hmain : held .main = true) (hF : Lasting F) :
    (closeDiscipline host).Frames held F (OutageOr F) (controlPlaneRequest host r) := by
  have hattempts : ∀ attempts,
      (closeDiscipline host).Frames held F (OutageOr F) (requestAttempts host r attempts) := by
    intro attempts
    induction attempts with
    | zero => exact frames_throw fun _ hs ↦ hs
    | succ attempts ih =>
        refine ends_bind (ends_lift (triple_read (hF.steady hmain))) fun stopped ↦
          ends_ite (fun hstop ↦ ?_) fun _ ↦ ?_
        · refine ends_throw fun s hs ↦ ?_
          have hstopped : s.stopRequested = true := hs.1 ▸ hstop
          simp [OutageOr, State.mayClose, hstopped]
        · refine Ends.weaken (ends_bind (request_ends hr hmain hF) fun outcome ↦ ?_)
            fun s hs ↦ hs.2.1
          rcases outcome with _ | ⟨e | reply⟩
          · exact ih.weaken fun _ hs ↦ hs.1
          · refine ends_ite (fun _ ↦ ih.weaken fun _ hs ↦ hs.1) fun hretry ↦ ?_
            exact ends_throw fun s hs ↦ hs.2 e rfl (Bool.eq_false_of_not_eq_true hretry)
          · exact ends_pure fun _ hs ↦ hs.1
  exact frames_bind frames_ask fun attempts ↦ hattempts (attempts + 1)

/-- The commands are the last ones that the host has been told. -/
theorem requestCommands_ends (hmain : held .main = true) :
    (closeDiscipline host).Ends held (fun _ ↦ True) (requestCommands host)
      (fun commands s ↦ s.lastCommands = some commands) (OutageOr fun _ ↦ True) := by
  refine ends_bind (controlPlaneRequest_ends (by rintro _ ⟨⟩) hmain lasting_true) fun commands ↦ ?_
  refine ends_bind (T := fun _ s ↦ s.lastCommands = some commands) ?_ fun _ ↦ ends_pure fun _ hs ↦ hs
  exact ends_lift (triple_write (lasting_true.steady hmain) fun s _ _ ↦ ⟨hmain, fun _ ↦ rfl⟩)

theorem proofFailed_mayClose {s : State} (hs : s.proofFailed = true) : s.mayClose = true := by
  simp [State.mayClose, hs]

theorem lasting_proofFailed : Lasting fun s ↦ s.proofFailed = true :=
  fun _ _ h hs ↦ h.proof.trans hs

theorem true_bystander (hmain : held .main = true) :
    Bystander (closeDiscipline host) held fun _ ↦ True :=
  close_bystander (lasting_true.steady hmain) lasting_true

theorem proof_ends {proved : Bool} (hmain : held .main = true) :
    (closeDiscipline host).Ends held (fun _ ↦ True) (record (.proof proved))
      (fun _ s ↦ proved = false → s.proofFailed = true) E :=
  ends_lift (triple_write (lasting_true.steady hmain) fun s _ _ ↦
    ⟨hmain, fun _ hproved ↦ by simp [apply, Write.exec, hproved]⟩)

theorem processListenerLivenessProof_ends (hmain : held .main = true) :
    (closeDiscipline host).Ends held (fun _ ↦ True) (processListenerLivenessProof host)
      (fun error s ↦ error ≠ none → s.proofFailed = true) E := by
  have hD : Bystander (closeDiscipline host) held fun _ ↦ True := true_bystander hmain
  have hunproved : ∀ error, (closeDiscipline host).Ends held (fun _ ↦ True) (unproved error)
      (fun error s ↦ error ≠ none → s.proofFailed = true) E :=
    fun error ↦ ends_bind (proof_ends hmain) fun _ ↦ ends_pure fun _ hs _ ↦ hs rfl
  have hpid : (closeDiscipline host).Frames held (fun _ ↦ True) E (processId host) :=
    frames_ite (fun _ ↦ frames_pure) fun _ ↦ frames_ask
  refine ends_bind (hD.record rfl) fun _ ↦ ends_bind hD.self fun desktop ↦
    ends_ite (fun _ ↦ hunproved _) fun _ ↦ ends_bind hpid fun pid ↦
    ends_ite (fun _ ↦ hunproved _) fun _ ↦ ends_bind frames_ask fun alive ↦
    ends_ite (fun _ ↦ hunproved _) fun _ ↦ ends_bind frames_ask fun listening ↦
    ends_ite (fun _ ↦ hunproved _) fun _ ↦ ?_
  exact ends_bind (proof_ends hmain) fun _ ↦ ends_pure fun _ _ h ↦ absurd rfl h

def Judged (l : Liveness) (s : State) : Prop := ∀ error, l = .dead error → s.proofFailed = true

theorem judgeProbe_ends {outcome : NativeProbe} (hmain : held .main = true) :
    (closeDiscipline host).Ends held (fun _ ↦ True) (judgeProbe outcome) Judged E := by
  have hD : Bystander (closeDiscipline host) held fun _ ↦ True := true_bystander hmain
  have hfailed : (closeDiscipline host).Ends held (fun _ ↦ True) (do
      record .probeFailed
      let failures ← self (·.nativeProbeFailures)
      let elapsed ← ask .elapsed
      pure (.suspect (probeSuspect failures elapsed)) : Action Liveness) Judged E :=
    ends_bind (hD.record rfl) fun _ ↦ ends_bind hD.self fun failures ↦
      ends_bind frames_ask fun elapsed ↦ ends_pure fun _ _ _ h ↦ by cases h
  refine ends_bind (hD.record rfl) fun _ ↦ ?_
  cases outcome with
  | deferredBusy => exact ends_pure fun _ _ _ h ↦ by cases h
  | ok => exact ends_bind (hD.record rfl) fun _ ↦ ends_pure fun _ _ _ h ↦ by cases h
  | failed => exact hfailed
  | notRun => exact hfailed

/-- What follows the proof of the process and its listener. -/
theorem afterProof_ends {p : Action Liveness} (hmain : held .main = true)
    (hp : (closeDiscipline host).Ends held (fun _ ↦ True) p Judged E) :
    (closeDiscipline host).Ends held (fun _ ↦ True) (do
      match ← processListenerLivenessProof host with
      | some error => pure (.dead error)
      | none => p : Action Liveness) Judged E := by
  refine ends_bind (processListenerLivenessProof_ends hmain) fun error ↦ ?_
  cases error with
  | some error => exact ends_pure fun _ hs _ _ ↦ hs (by simp)
  | none => exact hp.anywhere

theorem livenessProof_ends (hmain : held .main = true) :
    (closeDiscipline host).Ends held (fun _ ↦ True) (livenessProof host) Judged E := by
  have hjudge : (closeDiscipline host).Ends held (fun _ ↦ True) (do
      let outcome ← nativeDesktopResponds
      judgeProbe outcome) Judged E :=
    ends_bind (true_bystander hmain).nativeDesktopResponds fun _ ↦ judgeProbe_ends hmain
  exact afterProof_ends hmain hjudge

theorem checkLiveness_ends {commands : SessionCommands} (hmain : held .main = true) :
    (closeDiscipline host).Ends held (fun _ ↦ True) (checkLiveness host commands) Judged E := by
  have hD : Bystander (closeDiscipline host) held fun _ ↦ True := true_bystander hmain
  have hdeferred : (closeDiscipline host).Ends held (fun _ ↦ True) (do
      record (.probeOutcome .deferredBusy)
      pure .healthy : Action Liveness) Judged E :=
    ends_bind (hD.record rfl) fun _ ↦ ends_pure fun _ _ _ h ↦ by cases h
  have hproof : (closeDiscipline host).Ends held (fun _ ↦ True)
      (livenessProofForCommands host commands) Judged E :=
    ends_ite (fun _ ↦ livenessProof_ends hmain) fun _ ↦ afterProof_ends hmain hdeferred
  refine ends_bind hproof fun l ↦ ?_
  have hlasting : Lasting (Judged l) := fun s s' h hs error hl ↦ h.proof.trans (hs error hl)
  exact ends_bind ((close_bystander (hlasting.steady hmain) hlasting).record rfl) fun _ ↦
    ends_pure fun _ hs ↦ hs

theorem captureNativeDiagnostics_ends (hmain : held .main = true) (hF : Lasting F) :
    (closeDiscipline host).Frames held F (OutageOr F) (captureNativeDiagnostics host) := by
  have hD : Enters (closeDiscipline host) held F .diagnostics :=
    close_enters (hF.steady hmain) hF
  have hkept : (closeDiscipline host).Frames held F (OutageOr F) keptSnapshot :=
    frames_bind hD.self fun path ↦ frames_ite (fun _ ↦ frames_pure) fun _ ↦ frames_ask
  have hcall : (closeDiscipline host).Ends held F (call .diagnostics .odesktop)
      (fun r s ↦ F s ∧ ∀ e, r = .error e → s.mayClose = true) (OutageOr F) := by
    refine ends_bind frames_ask fun r ↦ ends_bind (T := fun _ ↦ F) ?_ fun _ ↦
      ends_bind (T := fun _ s ↦ F s ∧ ∀ e, r = .error e → s.mayClose = true) ?_ fun _ ↦
      ends_pure fun _ hs ↦ hs
    · exact ends_lift (triple_write (hF.steady hmain) fun s hinv hs ↦ hD.native s _ hinv hs rfl)
    · refine ends_lift (triple_write (hF.steady hmain) fun s _ hs ↦ ⟨trivial, fun hcond ↦ ?_⟩)
      refine ⟨hF s _ (Write.kept_of_native rfl s) hs, ?_⟩
      rintro e rfl
      exact hcond
  have hresolve : (closeDiscipline host).Frames held F (OutageOr F) (odesktop .diagnostics) := by
    refine frames_bind hD.self fun desktop ↦ ends_ite (fun _ ↦ ends_bind hcall fun r ↦ ?_) fun _ ↦
      frames_pure
    cases r with
    | ok b => exact ends_pure fun _ hs ↦ hs.1
    | error e => exact ends_throw fun _ hs ↦ hs.2 e rfl
  have hspawn : ∀ callable, (closeDiscipline host).Frames held F (OutageOr F)
      (spawn (.collectMessages callable)) :=
    fun callable ↦ frames_spawn hD.steady fun _ _ _ ↦ trivial
  refine frames_ite (fun _ ↦ frames_pure) fun _ ↦ frames_bind hkept fun kept ↦
    frames_ite (fun _ ↦ hD.self) fun _ ↦ frames_bind hresolve fun resolved ↦
    frames_bind frames_offers fun callable ↦ frames_bind (hspawn callable) fun _ ↦
    frames_bind frames_ask fun path ↦ ?_
  cases path with
  | none => exact frames_pure
  | some path => exact frames_bind (hD.record rfl) fun _ ↦ frames_pure

theorem reportFault_ends {kind error : String} {evidence : ℕ → String → Pool.Evidence}
    (hmain : held .main = true) (hF : Lasting F) :
    (closeDiscipline host).Frames held F (OutageOr F) (reportFault host kind error evidence) :=
  frames_bind (captureNativeDiagnostics_ends hmain hF) fun _ ↦
    frames_bind (close_bystander (hF.steady hmain) hF).self fun _ ↦
    controlPlaneRequest_ends (by rintro _ ⟨⟩) hmain hF

abbrev Fatal : HostError → State → Prop := fun _ s ↦ s.mayClose = true

theorem heartbeat_ends (hmain : held .main = true) :
    (closeDiscipline host).Ends held (fun _ ↦ True) (heartbeat host)
      (fun outcome s ↦ ∀ commands, outcome = some commands → s.lastCommands = some commands)
      (OutageOr fun _ ↦ True) := by
  refine ends_bind (requestCommands_ends hmain) fun livenessCommands ↦
    ends_bind (checkLiveness_ends hmain).anywhere fun l ↦ ?_
  cases l with
  | dead error =>
      refine ends_bind (T := fun _ s ↦ s.proofFailed = true) ?_ fun _ ↦
        ends_throw fun s hs ↦ proofFailed_mayClose hs
      refine (reportFault_ends hmain lasting_proofFailed).mono (fun _ hs ↦ hs error rfl)
        (fun _ _ hs ↦ hs) fun e _ hs ↦ ?_
      cases e with
      | unavailable => trivial
      | failed message => exact hs
  | suspect error =>
      exact ends_bind (reportFault_ends hmain lasting_true).anywhere fun _ ↦
        ends_pure fun _ _ _ h ↦ by cases h
  | healthy =>
      exact ends_bind (true_bystander hmain).self.anywhere fun outcome ↦
        ends_bind (controlPlaneRequest_ends (by rintro _ ⟨⟩) hmain lasting_true) fun _ ↦
        ends_bind (requestCommands_ends hmain) fun commands ↦
        ends_pure fun s hs c hc ↦ Option.some.inj hc ▸ hs

theorem heartbeatOrOffline_ends (hmain : held .main = true) :
    (closeDiscipline host).Ends held (fun _ ↦ True) (heartbeatOrOffline host)
      (fun outcome s ↦ ∀ commands, outcome = some commands → s.lastCommands = some commands)
      Fatal := by
  have hoffline : (closeDiscipline host).Ends held (fun _ ↦ True) (offline host)
      (fun outcome s ↦ ∀ commands, outcome = some commands → s.lastCommands = some commands)
      Fatal := by
    refine ends_bind (processListenerLivenessProof_ends hmain) fun error ↦ ?_
    cases error with
    | some error => exact ends_throw fun s hs ↦ proofFailed_mayClose (hs (by simp))
    | none => exact ends_pure fun _ _ _ h ↦ by cases h
  refine ends_bind (ends_attempt (heartbeat_ends hmain)) fun r ↦ ?_
  rcases r with ⟨_ | message⟩ | commands
  · exact hoffline.anywhere
  · exact ends_throw fun _ hs ↦ hs
  · exact ends_pure fun _ hs ↦ hs

theorem closeProjects_ends {leases : List Pool.Lease} (hmain : held .main = true)
    (hF : Lasting F) : (closeDiscipline host).Frames held F Fatal (closeProjects host leases) := by
  have hacknowledge : ∀ leaseId success failure, (closeDiscipline host).Frames held F Fatal
      (acknowledgeRelease host leaseId success failure) := by
    refine fun leaseId success failure ↦ ends_bind
      (ends_attempt (controlPlaneRequest_ends (by rintro _ ⟨⟩) hmain hF)) fun r ↦ ?_
    rcases r with ⟨_ | message⟩ | reply
    · exact ends_pure fun _ hs ↦ hs
    · exact ends_throw fun _ hs ↦ hs
    · exact ends_pure fun _ hs ↦ hs
  have hclose : EntersGuarded host (closeDiscipline host) held F .projectClose :=
    close_guarded (fun held' hsub ↦ hF.steady (hsub _ hmain)) hF
  induction leases with
  | nil => exact frames_pure
  | cons lease leases ih =>
      refine frames_bind (frames_attempt hclose.closeAndPrepareProjectRelease) fun r ↦ ?_
      rcases r with e | _ | _
      · exact frames_bind (hacknowledge _ _ _) fun _ ↦ ih
      · exact frames_pure
      · exact frames_bind (hacknowledge _ _ _) fun _ ↦ ih

theorem mayClose_bystander (hmain : held .main = true) :
    Bystander (closeDiscipline host) held fun s ↦ s.mayClose = true :=
  close_bystander (lasting_mayClose.steady hmain) lasting_mayClose

theorem boundedCloseDesktop_ends {stop : Bool} (hmain : held .main = true) :
    (closeDiscipline host).Frames held (fun s ↦ s.mayClose = true) Fatal
      (boundedCloseDesktop stop) := by
  have hD : Bystander (closeDiscipline host) held fun s ↦ s.mayClose = true :=
    mayClose_bystander hmain
  have hbegin : (closeDiscipline host).Frames held (fun s ↦ s.mayClose = true) Fatal
      (transact fun s ↦ ([.beginClose stop], s.closers.length)) :=
    ends_lift (triple_transact_single hD.steady fun s _ hs ↦
      ⟨hs, fun _ ↦ lasting_mayClose s _ (Write.kept (by rintro _ ⟨⟩) (by rintro _ ⟨⟩) s) hs⟩)
  refine frames_bind hbegin fun id ↦ frames_bind (hD.spawn (by rintro _ ⟨⟩)) fun _ ↦
    frames_bind hD.self fun ended ↦ frames_bind frames_ask fun alive ↦
    frames_bind hD.killUnlessEnded fun alive ↦ frames_bind hD.self fun ended ↦ ?_
  cases alive <;> exact frames_pure

/-- A close from a state that allows it, and the report of it. -/
theorem closeAndReport_ends {stop : Bool} {k : Bool → Action α} {Q : α → State → Prop}
    (hmain : held .main = true) (hF : ∀ s, F s → s.mayClose = true)
    (hk : ∀ confirmed, (closeDiscipline host).Ends held (fun s ↦ s.mayClose = true) (k confirmed)
      Q Fatal) :
    (closeDiscipline host).Ends held F (boundedCloseDesktop stop >>= k) Q Fatal :=
  ends_bind ((boundedCloseDesktop_ends hmain).weaken hF) hk

theorem obey_ends {commands : SessionCommands} (hmain : held .main = true) :
    (closeDiscipline host).Ends held (fun s ↦ s.lastCommands = some commands) (obey host commands)
      (fun _ _ ↦ True) Fatal := by
  have hD : Bystander (closeDiscipline host) held fun s ↦ s.mayClose = true :=
    mayClose_bystander hmain
  have hreport : ∀ (confirmed : Bool) (closure : Pool.Closure) (code : ℕ),
      (closeDiscipline host).Ends held (fun s ↦ s.mayClose = true) (do
        if confirmed then reportClosed host closure
        pure (some code) : Action (Option ℕ)) (fun _ _ ↦ True) Fatal :=
    fun confirmed closure code ↦ ends_ite
      (fun _ ↦ ends_bind hD.reportClosed fun _ ↦ ends_pure fun _ _ ↦ trivial)
      fun _ ↦ ends_pure fun _ _ ↦ trivial
  have hdone : ∀ code : Option ℕ, (closeDiscipline host).Ends held
      (fun s ↦ s.lastCommands = some commands) (pure code : Action (Option ℕ)) (fun _ _ ↦ True)
      Fatal := fun code ↦ ends_pure fun _ _ ↦ trivial
  refine ends_bind (closeProjects_ends hmain lasting_commands) fun deferred ↦
    ends_ite (fun _ ↦ hdone _) fun _ ↦ ends_ite (fun hstop ↦ ?_) fun _ ↦
    ends_ite (fun hdrain ↦ ?_) fun _ ↦ hdone _
  · refine closeAndReport_ends hmain (fun s hs ↦ ?_) fun confirmed ↦ hreport _ _ _
    simp [State.mayClose, hs, hstop]
  · refine closeAndReport_ends hmain (fun s hs ↦ ?_) fun confirmed ↦ hreport _ _ _
    simp only [State.mayClose, hs, Option.any_some, hdrain, Bool.or_true]

theorem loop_ends {rounds : ℕ} (hmain : held .main = true) :
    (closeDiscipline host).Ends held (fun _ ↦ True) (loop host rounds) (fun _ _ ↦ True) Fatal := by
  have hround : (closeDiscipline host).Ends held (fun _ ↦ True) (round host) (fun _ _ ↦ True)
      Fatal := by
    refine ends_bind (heartbeatOrOffline_ends hmain) fun outcome ↦ ?_
    cases outcome with
    | none => exact ends_pure fun _ _ ↦ trivial
    | some commands =>
        exact (obey_ends hmain).weaken fun _ hs ↦ hs commands rfl
  induction rounds with
  | zero => exact frames_pure
  | succ rounds ih =>
      refine frames_bind (true_bystander hmain).self fun stopped ↦
        frames_ite (fun _ ↦ frames_pure) fun _ ↦ frames_bind hround fun code ↦ ?_
      cases code with
      | none => exact ih
      | some code => exact frames_pure

theorem run_ends {deferrals rounds : ℕ} (hmain : held .main = true) :
    (closeDiscipline host).Ends held (fun _ ↦ True) (run host deferrals rounds) (fun _ _ ↦ True)
      Fatal := by
  have hmay : Bystander (closeDiscipline host) held fun s ↦ s.mayClose = true :=
    mayClose_bystander hmain
  have hdefer : ∀ n, (closeDiscipline host).Frames held (fun _ ↦ True) Fatal
      (deferRegistration host n) := by
    intro n
    induction n with
    | zero => exact frames_pure
    | succ n ih =>
        refine ends_bind (livenessProof_ends hmain) fun l ↦ ?_
        cases l with
        | dead error => exact ends_pure fun _ _ ↦ trivial
        | healthy => exact ih.anywhere
        | suspect error => exact ih.anywhere
  have hloop : (closeDiscipline host).Ends held (fun _ ↦ True) (mainLoop host deferrals rounds)
      (fun _ _ ↦ True) Fatal :=
    frames_bind (hdefer deferrals) fun registered ↦
      frames_ite (fun _ ↦ loop_ends hmain) fun _ ↦ frames_pure
  have hreport : ∀ (confirmed : Bool) (closure : Pool.Closure),
      (closeDiscipline host).Ends held (fun s ↦ s.mayClose = true)
        (if confirmed then reportClosed host closure else pure ()) (fun _ _ ↦ True) Fatal :=
    fun confirmed closure ↦ ends_ite (fun _ ↦ hmay.reportClosed.mono (fun _ hs ↦ hs)
      (fun _ _ _ ↦ trivial) fun _ _ hs ↦ hs) fun _ ↦ ends_pure fun _ _ ↦ trivial
  have hstopped : (closeDiscipline host).Ends held (fun _ ↦ True) (closeIfStopped host)
      (fun _ _ ↦ True) Fatal := by
    refine ends_bind (ends_lift (triple_read (lasting_true.steady hmain))) fun stopped ↦
      ends_ite (fun hstop ↦ ?_) fun _ ↦ ends_pure fun _ _ ↦ trivial
    refine closeAndReport_ends hmain (fun s hs ↦ ?_) fun confirmed ↦ hreport _ _
    have hstopped : s.stopRequested = true := (Bool.and_eq_true_iff.mp (hs.1 ▸ hstop)).1
    simp [State.mayClose, hstopped]
  refine ends_bind (ends_attempt hloop) fun r ↦ ?_
  rcases r with e | _ | code
  · refine closeAndReport_ends hmain (fun s hs ↦ hs) fun confirmed ↦ ?_
    exact ends_ite (fun _ ↦ ends_bind hmay.reportClosed fun _ ↦ hstopped.anywhere)
      fun _ ↦ hstopped.anywhere
  · exact ends_pure fun _ _ ↦ trivial
  · exact hstopped

theorem anywhere_steady : (closeDiscipline host).Steady held fun _ ↦ True := fun _ _ _ hs ↦ hs

theorem anywhere_guarded : EntersGuarded host (closeDiscipline host) held (fun _ ↦ True) h :=
  close_guarded (fun _ _ ↦ anywhere_steady) lasting_true

theorem program_closes (t : Thread) (s : State) :
    (closeDiscipline host).wp (program host t) (fun _ _ _ ↦ True) noLocks s := by
  have hD : ∀ held', Bystander (closeDiscipline host) held' fun _ ↦ True :=
    fun _ ↦ close_bystander anywhere_steady lasting_true
  have hthread : ∀ {p : Action Unit} {Q E},
      (closeDiscipline host).Ends noLocks (fun _ ↦ True) p Q E →
      (closeDiscipline host).wp (thread p) (fun _ _ _ ↦ True) noLocks s :=
    fun hp ↦ wp_bind.mpr (wp_mono (hp s trivial) fun _ _ _ _ ↦ trivial)
  cases t with
  | run deferrals rounds =>
      refine hthread (Q := fun _ _ ↦ True) (E := Fatal) (ends_locked anywhere_steady fun _ ↦ ?_)
      have hmain : Function.update noLocks Lock.main true .main = true := by simp
      exact ends_bind (hD _).self fun started ↦ ends_ite (fun _ ↦ frames_pure) fun _ ↦
        ends_bind ((hD _).record rfl) fun _ ↦ run_ends hmain
  | requestStop => exact wp_write.mpr fun _ _ _ ↦ ⟨trivial, fun _ ↦ trivial⟩
  | client => exact hthread (E := Fatal) ((hD _).clientTransaction (hD _))
  | poolCall call env => exact (hD _).poolCall trivial
  | deliver id => exact hthread (E := Fatal) (hD _).deliver
  | probe => exact hthread (E := Fatal) anywhere_guarded.probeCall
  | collectMessages callable =>
      exact hthread (close_enters anywhere_steady lasting_true).collectMessages
  | graceful stop id =>
      exact hthread (E := Fatal) (EntersGuarded.graceful anywhere_guarded anywhere_guarded)

theorem close_governs : (closeDiscipline host).Governs (system host) where
  toCoherent := close_coherent
  reboot _ _ := trivial
  external _ _ _ _ := trivial
  call t s _ _ := program_closes t s

/-- The host closes its Desktop only after a stop, a failed proof or a command, as long as the
control plane refuses no request that it would accept in another state. -/
theorem closed_on_command (host : Setup) (s : State)
    (ms : List (Move Thread Question Question.Answer))
    (hC : (system host).Meets (NeverRefused host) { state := s } ms) :
    ∀ e ∈ (system host).trace { state := s } ms, ∀ stop, e.write = .beginClose stop →
      e.before.mayClose = true := by
  obtain ⟨htrace, -⟩ := close_governs.run (Safe.idle trivial) ms hC
  intro e he stop hw
  have hmay := (htrace e he).2
  rw [hw] at hmay
  exact hmay

def drainedHost : State where
  db := Pool.script Pool.sampleService
    (Pool.openDesktop .empty ++ [.call {} 100003 (.requestAllSessionsDrain "maintenance")]) {}

def drainLegs : List (ℕ × ℕ) :=
  [(0, 8), (1, 15), (0, 11), (2, 15), (0, 10), (3, 15), (0, 6), (4, 15), (0, 5), (5, 15), (0, 60)]

theorem closed_on_command_drain :
    let es := (system sampleHost).trace { state := drainedHost }
      (idleRun sampleAnswers drainLegs drainedHost)
    (∃ e ∈ es, e.write matches .beginClose _) ∧
      ∀ e ∈ es, ∀ stop, e.write = .beginClose stop → e.before.mayClose = true := by
  have hquiet : (system sampleHost).Meets (NeverRefused sampleHost) { state := drainedHost }
      (idleRun sampleAnswers drainLegs drainedHost) := by
    unfold System.Meets
    decide
  exact ⟨by decide, closed_on_command sampleHost drainedHost _ hquiet⟩

def siblingHost : State where
  db := Pool.script Pool.sampleService
    (Pool.openDesktop .empty ++
      [.call {} 100003 (.requestLease (Pool.sampleRequest 1 0)),
       .call {} 100003 (.requestLease (Pool.sampleRequest 2 0))] ++
      Pool.attach 1 100004 ++ Pool.attach 2 100004 ++
      [.call {} 100005 (.cancelLease 1 (Pool.clientToken 1) "")]) {}

def answersOneRetry : (q : Question) → q.Answer
  | .attempts => (1 : ℕ)
  | q => sampleAnswers q

def answersLost : (q : Question) → q.Answer
  | .arrived => false
  | q => answersOneRetry q

def lateFault : Thread :=
  .poolCall (.reportProjectFault 1 (Pool.clientToken 1)
    { faultKind := "script_error", failureMessage := "late" })
    { cfg := {}, now := 100021, clock := 100021, seen := siblingHost.db }

/-- The response to the first release-complete is lost, and the error is reported before it is
sent again. -/
def rewrittenRelease : List (Move Thread Question Question.Answer) :=
  let release := idleRun answersOneRetry
    [(0, 8), (1, 6), (0, 15), (2, 6), (0, 6), (3, 6), (0, 22), (4, 6)] siblingHost
  let released := (system sampleHost).after { state := siblingHost } release
  let lost := (system sampleHost).turns answersLost [(0, 4)] released
  let reported := (system sampleHost).after released (lost ++ [.call lateFault])
  release ++ lost ++ [.call lateFault] ++
    (system sampleHost).turns answersOneRetry [(6, 2), (5, 6), (0, 20)] reported

/-- A client that rewrites the failure of its released lease makes the host close the Desktop in
which another one works. -/
theorem closed_over_sibling :
    ¬ ∀ (host : Setup) (s : State) (ms : List (Move Thread Question Question.Answer)),
      ∀ e ∈ (system host).trace { state := s } ms, ∀ stop, e.write = .beginClose stop →
        e.before.mayClose = true := by
  intro h
  have hclosed : ∃ e ∈ (system sampleHost).trace { state := siblingHost } rewrittenRelease,
      (e.write matches .beginClose _) ∧ e.before.mayClose = false ∧
        (e.before.db.leases.find? 2).any (·.state == .active) = true := by decide +kernel
  obtain ⟨e, he, hclose, hmay, -⟩ := hclosed
  split at hclose
  · rename_i stop hw
    have hcommand := h sampleHost siblingHost rewrittenRelease e he stop hw
    rw [hmay] at hcommand
    cases hcommand
  · cases hclose

end SlurmScheduler.Host
