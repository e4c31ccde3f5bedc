import SlurmScheduler.Host.Pieces

namespace SlurmScheduler.Host

open Relational Concurrent Discipline
open Pool (Env SessionCommands)

def ChecksHealthy (_ : State) : Write → Prop
  | .checked l => l = .healthy
  | _ => True

instance (s : State) (w : Write) : Decidable (ChecksHealthy s w) := by
  unfold ChecksHealthy
  split <;> infer_instance

/-- A call of the Desktop under the lock; a probe is none of the main thread's. -/
def EntersUnderLock (held : Lock → Bool) (w : Write) : Prop :=
  ∀ h, w.native = some h → held .automation = true ∧ (h = .probe → held .main = false)

def lockDiscipline : HostDiscipline where
  inv _ := True
  cond := ChecksHealthy
  may held _ w := EntersUnderLock held w
  rely _ _ _ := True
  pre
    | .collectMessages _, _ => False
    | _, _ => True

variable {host : Setup} {held : Lock → Bool} {h : Helper}

theorem lock_bystander : Bystander lockDiscipline held fun _ ↦ True where
  steady _ _ _ hs := hs
  keep _ _ _ _ _ := trivial
  plain s w _ _ hw := by
    refine ⟨fun h hh ↦ ?_, fun _ ↦ trivial⟩
    rw [Write.native_of_plain hw] at hh
    cases hh
  pre s t _ ht := by
    cases t with
    | collectMessages callable => exact ht callable rfl
    | _ => trivial

theorem lock_enters (hheld : held .automation = true) (hmain : h = .probe → held .main = false) :
    Enters lockDiscipline held (fun _ ↦ True) h where
  toBystander := lock_bystander
  native s w _ _ hw := by
    refine ⟨fun h' hh ↦ ?_, fun _ ↦ trivial⟩
    rw [hw, Option.some.injEq] at hh
    exact hh ▸ ⟨hheld, hmain⟩

theorem lock_guarded (hlock : host.hasLock = true) (hmain : h = .probe → held .main = false) :
    EntersGuarded host lockDiscipline held (fun _ ↦ True) h where
  toBystander := lock_bystander
  locked := lock_enters (by simp) (by simpa using hmain)
  unlocked hne := by simp [hlock] at hne

abbrev Locked {α : Type} (held : Lock → Bool) (p : Action α) : Prop :=
  lockDiscipline.Frames held (fun _ ↦ True) (fun _ _ ↦ True) p

theorem locked_record {w : Write} (hw : w.native = none) : Locked held (record w) := by
  refine frames_write (fun _ _ _ hs ↦ hs) fun s _ _ ↦ ⟨fun h hh ↦ ?_, fun _ ↦ trivial⟩
  rw [hw] at hh
  cases hh

theorem locked_self {α : Type} {f : State → α} : Locked held (self f) := lock_bystander.self

theorem controlPlaneRequest_locked {r : Request} : Locked held (controlPlaneRequest host r) := by
  have hattempts : ∀ attempts, Locked held (requestAttempts host r attempts) := by
    intro attempts
    induction attempts with
    | zero => exact frames_throw fun _ _ ↦ trivial
    | succ attempts ih =>
        refine frames_bind locked_self fun stopped ↦ frames_ite (fun _ ↦ frames_fail) fun _ ↦
          frames_bind lock_bystander.request fun outcome ↦ ?_
        rcases outcome with _ | ⟨e | reply⟩
        · exact ih
        · exact frames_ite (fun _ ↦ ih) fun _ ↦ frames_fail
        · exact frames_pure
  exact frames_bind frames_ask fun attempts ↦ hattempts (attempts + 1)

theorem requestCommands_locked : Locked held (requestCommands host) :=
  frames_bind controlPlaneRequest_locked fun _ ↦ frames_bind (locked_record rfl) fun _ ↦ frames_pure

theorem processListenerLivenessProof_locked : Locked held (processListenerLivenessProof host) := by
  have hunproved : ∀ error, Locked held (unproved error) :=
    fun error ↦ frames_bind (locked_record rfl) fun _ ↦ frames_pure
  have hpid : Locked held (processId host) :=
    frames_ite (fun _ ↦ frames_pure) fun _ ↦ frames_ask
  refine frames_bind (locked_record rfl) fun _ ↦ frames_bind locked_self fun desktop ↦
    frames_ite (fun _ ↦ hunproved _) fun _ ↦ frames_bind hpid fun pid ↦
    frames_ite (fun _ ↦ hunproved _) fun _ ↦ frames_bind frames_ask fun alive ↦
    frames_ite (fun _ ↦ hunproved _) fun _ ↦ frames_bind frames_ask fun listening ↦
    frames_ite (fun _ ↦ hunproved _) fun _ ↦ ?_
  exact frames_bind (locked_record rfl) fun _ ↦ frames_pure

theorem livenessProof_locked : Locked held (livenessProof host) := by
  refine frames_bind processListenerLivenessProof_locked fun error ↦ ?_
  cases error with
  | some error => exact frames_pure
  | none => exact frames_bind lock_bystander.nativeDesktopResponds fun _ ↦ lock_bystander.judgeProbe

theorem checkLiveness_healthy {commands : SessionCommands} :
    lockDiscipline.Ends held (fun _ ↦ True) (checkLiveness host commands)
      (fun l _ ↦ l = .healthy) fun _ _ ↦ True := by
  have hproof : Locked held (livenessProofForCommands host commands) := by
    refine frames_ite (fun _ ↦ livenessProof_locked) fun _ ↦
      frames_bind processListenerLivenessProof_locked fun error ↦ ?_
    cases error with
    | some error => exact frames_pure
    | none => exact frames_bind (locked_record rfl) fun _ ↦ frames_pure
  refine ends_bind hproof fun l ↦ ends_bind (T := fun _ _ ↦ l = .healthy)
    (ends_lift (triple_write (fun _ _ _ hs ↦ hs) fun s _ _ ↦ ⟨?_, id⟩)) fun _ ↦ ends_pure fun _ hl ↦ hl
  rintro h ⟨⟩

theorem heartbeatOrOffline_locked : Locked held (heartbeatOrOffline host) := by
  have hheartbeat : Locked held (heartbeat host) := by
    refine frames_bind requestCommands_locked fun livenessCommands ↦
      ends_bind checkLiveness_healthy fun l ↦ ?_
    rintro s rfl
    refine frames_bind locked_self (fun outcome ↦ ?_) s trivial
    exact frames_bind controlPlaneRequest_locked fun _ ↦
      frames_bind requestCommands_locked fun commands ↦ frames_pure
  have hoffline : Locked held (offline host) := by
    refine frames_bind processListenerLivenessProof_locked fun error ↦ ?_
    cases error with
    | some error => exact frames_fail
    | none => exact frames_pure
  refine frames_bind (frames_attempt hheartbeat) fun r ↦ ?_
  rcases r with ⟨_ | message⟩ | commands
  · exact hoffline
  · exact frames_throw fun _ _ ↦ trivial
  · exact frames_pure

theorem closeProjects_locked {leases : List Pool.Lease} (hlock : host.hasLock = true) :
    Locked held (closeProjects host leases) := by
  have hacknowledge : ∀ leaseId success failure,
      Locked held (acknowledgeRelease host leaseId success failure) := by
    refine fun leaseId success failure ↦
      frames_bind (frames_attempt controlPlaneRequest_locked) fun r ↦ ?_
    rcases r with ⟨_ | message⟩ | reply
    · exact frames_pure
    · exact frames_throw fun _ _ ↦ trivial
    · exact frames_pure
  induction leases with
  | nil => exact frames_pure
  | cons lease leases ih =>
      have hclose : EntersGuarded host lockDiscipline held (fun _ ↦ True) .projectClose :=
        lock_guarded hlock (by rintro ⟨⟩)
      refine frames_bind (frames_attempt hclose.closeAndPrepareProjectRelease) fun r ↦ ?_
      rcases r with e | _ | _
      · exact frames_bind (hacknowledge _ _ _) fun _ ↦ ih
      · exact frames_pure
      · exact frames_bind (hacknowledge _ _ _) fun _ ↦ ih

theorem boundedCloseDesktop_locked {stop : Bool} : Locked held (boundedCloseDesktop stop) := by
  have hbegin : Locked held (transact fun s ↦ ([.beginClose stop], s.closers.length)) := by
    refine frames_transact (fun _ _ _ hs ↦ hs) (fun _ _ _ _ _ ↦ trivial) fun s₀ w hw s _ _ ↦
      ⟨?_, fun _ ↦ trivial⟩
    rw [List.mem_singleton.mp hw]
    rintro h ⟨⟩
  refine frames_bind hbegin fun id ↦ frames_bind (lock_bystander.spawn (by rintro _ ⟨⟩)) fun _ ↦
    frames_bind locked_self fun ended ↦ frames_bind frames_ask fun alive ↦
    frames_bind lock_bystander.killUnlessEnded fun alive ↦ frames_bind locked_self fun ended ↦ ?_
  cases alive <;> exact frames_pure

theorem loop_locked {rounds : ℕ} (hlock : host.hasLock = true) : Locked held (loop host rounds) := by
  have hreport : ∀ (confirmed : Bool) (closure : Pool.Closure) (code : ℕ), Locked held (do
      if confirmed then reportClosed host closure
      pure (some code) : Action (Option ℕ)) :=
    fun confirmed closure code ↦ frames_ite
      (fun _ ↦ frames_bind lock_bystander.reportClosed fun _ ↦ frames_pure) fun _ ↦ frames_pure
  have hobey : ∀ commands, Locked held (obey host commands) := by
    refine fun commands ↦ frames_bind (closeProjects_locked hlock) fun deferred ↦
      frames_ite (fun _ ↦ frames_pure) fun _ ↦ frames_ite (fun _ ↦ ?_) fun _ ↦
      frames_ite (fun _ ↦ ?_) fun _ ↦ frames_pure
    · exact frames_bind boundedCloseDesktop_locked fun confirmed ↦ hreport _ _ _
    · exact frames_bind boundedCloseDesktop_locked fun confirmed ↦ hreport _ _ _
  have hround : Locked held (round host) := by
    refine frames_bind heartbeatOrOffline_locked fun commands ↦ ?_
    cases commands with
    | none => exact frames_pure
    | some commands => exact hobey commands
  induction rounds with
  | zero => exact frames_pure
  | succ rounds ih =>
      refine frames_bind locked_self fun stopped ↦ frames_ite (fun _ ↦ frames_pure) fun _ ↦
        frames_bind hround fun code ↦ ?_
      cases code with
      | none => exact ih
      | some code => exact frames_pure

theorem run_locked {deferrals rounds : ℕ} (hlock : host.hasLock = true) :
    Locked held (run host deferrals rounds) := by
  have hdefer : ∀ n, Locked held (deferRegistration host n) := by
    intro n
    induction n with
    | zero => exact frames_pure
    | succ n ih =>
        refine frames_bind livenessProof_locked fun l ↦ ?_
        cases l with
        | dead error => exact frames_pure
        | healthy => exact ih
        | suspect error => exact ih
  have hreport : ∀ (confirmed : Bool) (closure : Pool.Closure),
      Locked held (if confirmed then reportClosed host closure else pure ()) :=
    fun confirmed closure ↦ frames_ite (fun _ ↦ lock_bystander.reportClosed) fun _ ↦ frames_pure
  have hstopped : Locked held (closeIfStopped host) :=
    frames_bind locked_self fun stopped ↦ frames_ite
      (fun _ ↦ frames_bind boundedCloseDesktop_locked fun confirmed ↦ hreport _ _) fun _ ↦ frames_pure
  have hmain : Locked held (mainLoop host deferrals rounds) :=
    frames_bind (hdefer deferrals) fun registered ↦
      frames_ite (fun _ ↦ loop_locked hlock) fun _ ↦ frames_pure
  refine frames_bind (frames_attempt hmain) fun r ↦ ?_
  rcases r with e | _ | code
  · refine frames_bind boundedCloseDesktop_locked fun confirmed ↦ ?_
    exact frames_ite (fun _ ↦ frames_bind lock_bystander.reportClosed fun _ ↦ hstopped)
      fun _ ↦ hstopped
  · exact frames_pure
  · exact hstopped

theorem program_locked (hlock : host.hasLock = true) (t : Thread) (s : State)
    (ht : lockDiscipline.pre t s) :
    lockDiscipline.wp (program host t) (fun _ _ _ ↦ True) noLocks s := by
  have hthread : ∀ {p : Action Unit}, Locked noLocks p →
      lockDiscipline.wp (thread p) (fun _ _ _ ↦ True) noLocks s :=
    fun hp ↦ wp_bind.mpr (wp_mono (hp.wp trivial) fun _ _ _ _ ↦ trivial)
  cases t with
  | run deferrals rounds =>
      refine hthread (frames_locked (fun _ _ _ hs ↦ hs) (frames_bind locked_self fun started ↦ ?_))
      exact frames_ite (fun _ ↦ frames_pure) fun _ ↦
        frames_bind (locked_record rfl) fun _ ↦ run_locked hlock
  | requestStop =>
      refine wp_write.mpr fun s' _ _ ↦ ⟨?_, fun _ ↦ trivial⟩
      rintro h ⟨⟩
  | client => exact hthread (lock_bystander.clientTransaction lock_bystander)
  | poolCall call env => exact lock_bystander.poolCall trivial
  | deliver id => exact hthread lock_bystander.deliver
  | probe => exact hthread (lock_guarded hlock fun _ ↦ rfl).probeCall
  | collectMessages callable => exact ht.elim
  | graceful stop id =>
      exact hthread (EntersGuarded.graceful (lock_guarded hlock (by rintro ⟨⟩))
        (lock_guarded hlock (by rintro ⟨⟩)))

theorem lock_governs (hlock : host.hasLock = true) : lockDiscipline.Governs (system host) where
  refl _ _ := trivial
  trans _ _ _ _ _ _ := trivial
  anti _ _ _ _ _ _ := trivial
  compatible _ _ _ _ _ _ _ _ := trivial
  keep _ _ _ _ _ _ := trivial
  reboot _ _ := trivial
  external t s ht _ := by
    cases t with
    | collectMessages callable => cases ht
    | _ => trivial
  call t s _ ht := program_locked hlock t s ht

/-- The thread is in a call of the Desktop that its next step ends. -/
def InsideDesktop (c : Config State Write Lock Thread Question Question.Answer) (i : ℕ) : Prop :=
  ∃ e h call r, c.runEvents i = [e] ∧ e.write = .leave h call r

theorem held_of_mem_runEvents {c : Config State Write Lock Thread Question Question.Answer} {i : ℕ}
    {e : Concurrent.Event State Write Lock} (he : e ∈ c.runEvents i) : e.held = c.heldBy i := by
  unfold Config.runEvents at he
  split at he
  · obtain ⟨x, -, rfl⟩ := List.mem_map.mp he
    rfl
  · cases he

/-- The host of a session with an artifact directory enters the Desktop only under the automation
lock, its probes outside its main thread, and at most one of its threads is in the Desktop at any
time, as long as none of its liveness checks fails. -/
theorem native_calls_locked (host : Setup) (hroot : host.artifactRoot ≠ "") (s : State)
    (ms : List (Move Thread Question Question.Answer))
    (hC : (system host).Meets ChecksHealthy { state := s } ms) :
    (∀ e ∈ (system host).trace { state := s } ms, EntersUnderLock e.held e.write) ∧
      ∀ i j, InsideDesktop ((system host).after { state := s } ms) i →
        InsideDesktop ((system host).after { state := s } ms) j → i = j := by
  have hlock : host.hasLock = true := by simpa [Setup.hasLock] using hroot
  obtain ⟨htrace, hsafe⟩ := (lock_governs hlock).run (Safe.idle trivial) ms hC
  refine ⟨fun e he ↦ (htrace e he).2, fun i j hi hj ↦ ?_⟩
  have hholds : ∀ k, InsideDesktop ((system host).after { state := s } ms) k →
      ((system host).after { state := s } ms).holder .automation = some k := by
    rintro k ⟨e, h, call, r, hrun, hleave⟩
    have he : e ∈ ((system host).after { state := s } ms).runEvents k := by simp [hrun]
    have hquiet : ∀ x ∈ ((system host).after { state := s } ms).runEvents k,
        ChecksHealthy x.before x.write := by
      intro x hx
      rw [hrun, List.mem_singleton] at hx
      rw [hx, hleave]
      trivial
    have hunder := ((hsafe.run (lock_governs hlock) hquiet).1 e he).2
    have hheld := (hunder h (by rw [hleave]; rfl)).1
    rw [held_of_mem_runEvents he] at hheld
    simpa [Config.heldBy] using hheld
  have hboth := (hholds i hi).symm.trans (hholds j hj)
  exact Option.some.inj hboth

def idleRun (answers : (q : Question) → q.Answer) (legs : List (ℕ × ℕ)) (s : State) :
    List (Move Thread Question Question.Answer) :=
  .call (.run 0 1) :: (system sampleHost).turns answers legs
    ((system sampleHost).after { state := s } [.call (.run 0 1)])

def idleHost : State where
  db := Pool.script Pool.sampleService (Pool.openDesktop .empty) {}

def probedLegs : List (ℕ × ℕ) := [(0, 9), (1, 5), (0, 10), (2, 15), (0, 20)]

theorem native_calls_locked_probed :
    let es := (system sampleHost).trace { state := idleHost } (idleRun sampleAnswers probedLegs idleHost)
    (∃ e ∈ es, e.write.native = some .probe) ∧ ∀ e ∈ es, EntersUnderLock e.held e.write := by
  have hquiet : (system sampleHost).Meets ChecksHealthy { state := idleHost }
      (idleRun sampleAnswers probedLegs idleHost) := by
    unfold System.Meets
    decide
  exact ⟨by decide, (native_calls_locked sampleHost (by decide) idleHost _ hquiet).1⟩

/-- A probe that is late makes the host read the native messages without the lock. -/
theorem diagnostics_unlocked :
    ¬ ∀ (host : Setup) (s : State) (ms : List (Move Thread Question Question.Answer)),
      host.artifactRoot ≠ "" →
        ∀ e ∈ (system host).trace { state := s } ms, EntersUnderLock e.held e.write := by
  intro h
  have hunlocked : ∃ e ∈ (system sampleHost).trace { state := idleHost }
      (idleRun sampleAnswers [(0, 9), (1, 5), (0, 30)] idleHost),
      e.write.native = some .diagnostics ∧ e.held .automation = false := by decide
  obtain ⟨e, he, hnative, hfree⟩ := hunlocked
  have hheld := (h sampleHost idleHost _ (by decide) e he .diagnostics hnative).1
  rw [hfree] at hheld
  cases hheld

end SlurmScheduler.Host
