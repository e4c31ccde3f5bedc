import SlurmScheduler.EnvSync.Rows
import SlurmScheduler.EnvSync.Sound

namespace SlurmScheduler.EnvSync

open Concurrent

/-- A target of the account has finished its installation.  Its thread has completed the row, or
its next write does. -/
def Installing (env : String) (id : ℕ) (w : World) (account : String) : Prop :=
  ∃ (i : ℕ) (t : Target), w.targets[i]? = some t ∧ t.account = account ∧ t.Finished ∧
    (t.phase = .completed ∨ ∀ ok, ∃ w', step env id w (.target i ok) = some w' ∧
      ∃ t' : Target, w'.targets[i]? = some t' ∧ t'.status = .completed)

/-- Where a target has failed or is cancelled, the account has the environment that it had. -/
def KeptWhenEnded (homes : String → Home) (w : World) : Prop :=
  ∀ t ∈ w.targets, t.status = .failed ∨ t.status = .cancelled →
    ∀ path, (homes t.account).completeAt path = true → (w.homes t.account).completeAt path = true

structure AllOrNothing (env : String) (id : ℕ) (homes : String → Home)
    (overlays : String → Option Overlay) (w : World) : Prop where
  completed : w.job = .completed → ∀ t ∈ w.targets, t.status = .completed
  overlay : ∀ account, w.overlays account ≠ overlays account → Installing env id w account
  kept : KeptWhenEnded homes w

structure Stays (w w' : World) : Prop where
  job : w.job = .cancelled → w'.job = .cancelled
  targets : ∀ (i : ℕ) (t : Target), w.targets[i]? = some t → t.status = .cancelled →
    ∃ t' : Target, w'.targets[i]? = some t' ∧ t'.account = t.account ∧ t'.status = .cancelled

theorem Stays.refl (w : World) : Stays w w := ⟨id, fun _ t ht h ↦ ⟨t, ht, rfl, h⟩⟩

theorem Stays.trans {w w' w'' : World} (h : Stays w w') (h' : Stays w' w'') : Stays w w'' := by
  refine ⟨fun hjob ↦ h'.job (h.job hjob), ?_⟩
  intro i t ht hcancelled
  obtain ⟨t', ht', haccount, hcancelled'⟩ := h.targets i t ht hcancelled
  obtain ⟨t'', ht'', haccount', hcancelled''⟩ := h'.targets i t' ht' hcancelled'
  exact ⟨t'', ht'', haccount'.trans haccount, hcancelled''⟩

structure World.Settled (id : ℕ) (names : List String) (homes : String → Home)
    (overlays : String → Option Overlay) (w : World) : Prop where
  rows : w.Keeps (fun t home overlay ↦
    t.Settled id w.job (homes t.account) home (overlays t.account) overlay) names overlays
  writes : w.jobPhase.writes = true → w.job ≠ .cancelled
  marking : ∀ c ∈ w.cancels, c ≠ .seen → w.job = .cancelled
  counted : w.job = .completed ∨ w.jobPhase = .finishing false →
    ∀ t ∈ w.targets, t.status = .completed

structure World.Sound (id : ℕ) (names : List String) (homes : String → Home)
    (overlays : String → Option Overlay) (w : World) : Prop
    extends w.Settled id names homes overlays where
  kept : w.Keeps (fun t home overlay ↦
    t.Sound id w.job (homes t.account) home (overlays t.account) overlay) names overlays

structure JobStep (w w' : World) : Prop where
  cancelled : w.job = .cancelled → w'.job = .cancelled
  writes : w'.jobPhase.writes = true → w'.job ≠ .cancelled
  marking : ∀ c ∈ w'.cancels, c ≠ .seen → w'.job = .cancelled
  counted : w'.job = .completed ∨ w'.jobPhase = .finishing false →
    ∀ t ∈ w.targets, t.status = .completed

section Steps

variable {env : String} {id : ℕ} {names : List String} {homes : String → Home}
variable {overlays : String → Option Overlay} {w w' : World} {m : Move}

theorem World.settled_started :
    (World.started names homes overlays).Settled id names homes overlays where
  rows := World.keeps_started fun account ↦ Target.settled_waiting account
  writes _ := nofun
  marking _ hc := by cases hc
  counted h := h.elim nofun nofun

theorem World.sound_started :
    (World.started names homes overlays).Sound id names homes overlays :=
  { World.settled_started with
    kept := World.keeps_started fun account ↦ Target.sound_waiting account }

/-- The job is written by its thread, which has not seen it cancelled. -/
theorem World.Settled.moveJob (hs : w.Settled id names homes overlays) {job : SyncStatus}
    {phase : JobPhase} (hjob : w.job = .cancelled → job = .cancelled)
    (hwrites : phase.writes = true → job ≠ .cancelled)
    (hcounted : job = .completed ∨ phase = .finishing false →
      ∀ t ∈ w.targets, t.status = .completed) :
    JobStep w { w with job, jobPhase := phase } where
  cancelled := hjob
  writes := hwrites
  marking c hc hne := hjob (hs.marking c hc hne)
  counted := hcounted

theorem World.Settled.stayJob (hs : w.Settled id names homes overlays) {phase : JobPhase}
    (hwrites : phase.writes = true → w.job ≠ .cancelled) (hopen : phase ≠ .finishing false) :
    JobStep w { w with jobPhase := phase } :=
  hs.moveJob (fun h ↦ h) hwrites
    fun h ↦ hs.counted (h.imp_right fun hphase ↦ absurd hphase hopen)

/-- The thread of the job writes nothing next. -/
theorem World.Settled.quietJob (hs : w.Settled id names homes overlays) {phase : JobPhase}
    (hquiet : phase.writes = false) : JobStep w { w with jobPhase := phase } := by
  refine hs.stayJob ?_ ?_
  · intro hwrites
    rw [hquiet] at hwrites
    cases hwrites
  · rintro rfl
    cases hquiet

theorem jobNext_job {ok : Bool} (hs : w.Settled id names homes overlays)
    (hstep : jobNext w ok = some w') : JobStep w w' := by
  have hwrites := hs.writes
  have hcounted := hs.counted
  cases hphase : w.jobPhase
  all_goals
    rw [jobNext, hphase] at hstep
    rw [hphase] at hwrites hcounted
  case begun =>
    cases hstep
    exact hs.moveJob (fun h ↦ absurd h (hwrites rfl)) (fun h ↦ by cases h)
      fun h ↦ h.elim (fun h ↦ by cases h) (fun h ↦ by cases h)
  case packing =>
    cases hstep
    exact hs.quietJob (by cases ok <;> rfl)
  case packed =>
    cases hstep
    exact hs.quietJob (by split <;> rfl)
  case launching next =>
    dsimp only at hstep
    split at hstep
    · cases hstep
      exact ⟨fun h ↦ h, (fun h ↦ by cases h), hs.marking,
        fun h ↦ hcounted (h.imp_right (fun h ↦ by cases h))⟩
    · cases hstep
      exact hs.quietJob rfl
  case joining =>
    dsimp only at hstep
    split at hstep
    · cases hstep
      exact hs.quietJob rfl
    · cases hstep
  case joined =>
    cases hstep
    by_cases hjob : w.job = .cancelled
    · rw [if_pos hjob]
      exact hs.quietJob rfl
    · rw [if_neg hjob]
      exact hs.stayJob (fun _ ↦ hjob) (fun h ↦ by cases h)
  case counting =>
    cases hstep
    refine hs.moveJob (fun h ↦ h) (fun _ ↦ hwrites rfl) ?_
    intro h t ht
    obtain hjob | hany := h
    · exact hcounted (.inl hjob) t ht
    · injection hany with hany
      simpa using List.any_eq_false.mp hany t ht
  case finishing failures =>
    cases hstep
    refine hs.moveJob (fun h ↦ absurd h (hwrites rfl)) (fun h ↦ by cases h) ?_
    intro h
    cases failures with
    | true => exact h.elim (fun h ↦ by cases h) (fun h ↦ by cases h)
    | false => exact hcounted (.inr rfl)
  case raised =>
    cases hstep
    by_cases hjob : w.job = .cancelled
    · rw [if_pos hjob]
      exact hs.quietJob rfl
    · rw [if_neg hjob]
      exact hs.stayJob (fun _ ↦ hjob) (fun h ↦ by cases h)
  case failing =>
    cases hstep
    exact hs.moveJob (fun h ↦ absurd h (hwrites rfl)) (fun h ↦ by cases h)
      fun h ↦ h.elim (fun h ↦ by cases h) (fun h ↦ by cases h)
  case ended => cases hstep

theorem cancelNext_job {call : ℕ} (hs : w.Settled id names homes overlays)
    (hheeded : heeded w (.cancelNext call) = true) (hstep : cancelNext w call = some w') :
    JobStep w w' := by
  have hallowed := hheeded
  simp only [heeded] at hallowed
  unfold cancelNext at hstep
  split at hstep
  · rename_i hcall
    rw [hcall] at hallowed
    cases hstep
    refine ⟨fun _ ↦ rfl, ?_, fun _ _ _ ↦ rfl, ?_⟩
    · intro hwrites
      change w.jobPhase.writes = true at hwrites
      rw [hwrites] at hallowed
      cases hallowed
    · intro hcounted
      obtain hjob | hphase := hcounted
      · cases hjob
      · change w.jobPhase = _ at hphase
        rw [hphase] at hallowed
        cases hallowed
  · rename_i hcall
    cases hstep
    have hjob := hs.marking _ (List.mem_of_getElem? hcall) (fun h ↦ by cases h)
    exact ⟨fun h ↦ h, hs.writes, fun _ _ _ ↦ hjob, hs.counted⟩
  · rename_i i rest hcall
    cases hstep
    have hjob := hs.marking _ (List.mem_of_getElem? hcall) (fun h ↦ by cases h)
    exact ⟨fun h ↦ h, hs.writes, fun _ _ _ ↦ hjob, hs.counted⟩
  · cases hstep

theorem step_job (hs : w.Settled id names homes overlays) (hheeded : heeded w m = true)
    (hstep : step env id w m = some w') : JobStep w w' := by
  cases m with
  | cancel =>
    obtain ⟨-, hw⟩ := Option.ite_none_left_eq_some.mp hstep
    cases hw
    refine ⟨fun h ↦ h, hs.writes, ?_, hs.counted⟩
    intro c hc hne
    obtain hc | hc := List.mem_append.mp hc
    · exact hs.marking c hc hne
    · exact absurd (List.mem_singleton.mp hc) hne
  | cancelNext call => exact cancelNext_job hs hheeded hstep
  | job ok => exact jobNext_job hs hstep
  | target i ok =>
    obtain ⟨t, -, hstep⟩ := Option.bind_eq_some_iff.mp hstep
    obtain ⟨⟨t', overlay⟩, -, hw⟩ := Option.bind_eq_some_iff.mp hstep
    cases hw
    exact ⟨fun h ↦ h, hs.writes, hs.marking, hs.counted⟩
  | script i o =>
    obtain ⟨t, -, hstep⟩ := Option.bind_eq_some_iff.mp hstep
    obtain ⟨s, -, hstep⟩ := Option.bind_eq_some_iff.mp hstep
    obtain ⟨⟨s', home⟩, -, hw⟩ := Option.bind_eq_some_iff.mp hstep
    cases hw
    exact ⟨fun h ↦ h, hs.writes, hs.marking, hs.counted⟩

section Change

variable {i : ℕ} {t t' : Target} {home : Home} {overlay : Option Overlay}

theorem World.Settled.change (hs : w.Settled id names homes overlays) (ht : w.targets[i]? = some t)
    (hheeded : heeded w m = true) (h : RowChange env id w i t m t' home overlay) :
    t'.Settled id w.job (homes t.account) home (overlays t.account) overlay := by
  have hsettled := hs.rows.each i t ht
  have hallowed := hheeded
  cases h with
  | launched hphase => exact hsettled.launch hphase
  | cancelled hcall =>
    simp only [heeded, hcall, ht, Option.all_some, Bool.not_eq_true'] at hallowed
    exact hsettled.cancel (hs.marking _ (List.mem_of_getElem? hcall) (fun h ↦ by cases h)) hallowed
  | thread hnext =>
    simp only [heeded, ht, Option.all_some] at hallowed
    exact hsettled.next hallowed hnext
  | script hscript hnext => exact hsettled.scriptNext hscript hnext

theorem World.Sound.change (hs : w.Sound id names homes overlays) (ht : w.targets[i]? = some t)
    (hcareful : careful homes w m = true) (h : RowChange env id w i t m t' home overlay) :
    t'.Sound id w.job (homes t.account) home (overlays t.account) overlay := by
  have hsound := hs.kept.each i t ht
  have hallowed := hcareful
  cases h with
  | launched hphase => exact hsound.launch hphase
  | cancelled hcall =>
    simp only [careful, hcall, ht, Option.all_some, Bool.and_eq_true,
      Bool.not_eq_true'] at hallowed
    have hjob := hs.marking _ (List.mem_of_getElem? hcall) (fun h ↦ by cases h)
    exact hsound.cancel hjob hallowed.1 hallowed.2
  | thread hnext =>
    simp only [careful, ht, Option.all_some] at hallowed
    exact hsound.next hallowed hnext
  | script hscript hnext =>
    simp only [careful, ht, hscript, Option.all_some] at hallowed
    exact hsound.scriptNext hscript hallowed hnext

theorem World.Settled.change_cancelled (hs : w.Settled id names homes overlays)
    (ht : w.targets[i]? = some t) (h : RowChange env id w i t m t' home overlay)
    (hcancelled : t.status = .cancelled) : t'.status = .cancelled := by
  cases h with
  | launched _ => exact hcancelled
  | cancelled _ => rfl
  | thread hnext => exact (hs.rows.each i t ht).cancelled_next hnext hcancelled
  | script _ _ => exact hcancelled

/-- A completed row stays completed, if the job is not cancelled. -/
theorem World.Settled.change_completed (hs : w.Settled id names homes overlays)
    (hjob : w.job ≠ .cancelled) (ht : w.targets[i]? = some t)
    (h : RowChange env id w i t m t' home overlay) (hcompleted : t.status = .completed) :
    t'.status = .completed := by
  have hphase := (hs.rows.each i t ht).completed hcompleted
  cases h with
  | launched _ => exact hcompleted
  | cancelled hcall =>
    exact absurd (hs.marking _ (List.mem_of_getElem? hcall) (fun h ↦ by cases h)) hjob
  | thread hnext =>
    rw [Target.next, hphase] at hnext
    cases hnext
  | script _ _ => exact hcompleted

end Change

theorem World.Settled.step (hs : w.Settled id names homes overlays) (hnames : names.Nodup)
    (hheeded : heeded w m = true) (hstep : EnvSync.step env id w m = some w') :
    w'.Settled id names homes overlays ∧ Stays w w' := by
  have hjob := step_job hs hheeded hstep
  obtain hsame | ⟨i, t, t', home, overlay, hset, hrow⟩ := step_rows hs.rows.waiting hstep
  · refine ⟨⟨?_, hjob.writes, hjob.marking, ?_⟩, hjob.cancelled, ?_⟩
    · exact (hs.rows.same hsame).imp fun i t _ h ↦ h.ofJob hjob.cancelled
    · intro hcounted u hu
      rw [hsame.targets] at hu
      exact hjob.counted hcounted u hu
    · intro j u hu h
      exact ⟨u, by rw [hsame.targets, hu], rfl, h⟩
  · have haccount := hrow.account
    refine ⟨⟨?_, hjob.writes, hjob.marking, ?_⟩, hjob.cancelled, ?_⟩
    · rw [hset.job]
      apply hs.rows.set hnames hset haccount
      rw [haccount]
      exact hs.change hset.at_i hheeded hrow
    · intro hcounted u hu
      have hall := hjob.counted hcounted
      rw [hset.targets] at hu
      obtain ⟨j, hu⟩ := List.mem_iff_getElem?.mp hu
      obtain ⟨rfl, rfl⟩ | ⟨-, hu⟩ := getElem?_set_cases hu
      · refine hs.change_completed ?_ hset.at_i hrow (hall t (List.mem_of_getElem? hset.at_i))
        rw [← hset.job]
        obtain hcompleted | hphase := hcounted
        · rw [hcompleted]
          nofun
        · exact hjob.writes (by rw [hphase]; rfl)
      · exact hall u (List.mem_of_getElem? hu)
    · intro j u hu h
      by_cases hji : j = i
      · subst hji
        cases hset.at_i.symm.trans hu
        refine ⟨t', ?_, haccount, hs.change_cancelled hset.at_i hrow h⟩
        rw [hset.targets]
        exact getElem?_set_self_of hu
      · refine ⟨u, ?_, rfl, h⟩
        rw [hset.targets, List.getElem?_set_ne (Ne.symm hji), hu]

theorem World.Sound.step (hs : w.Sound id names homes overlays) (hnames : names.Nodup)
    (hcareful : careful homes w m = true) (hstep : EnvSync.step env id w m = some w') :
    w'.Sound id names homes overlays ∧ Stays w w' := by
  have hheeded := heeded_of_careful hcareful
  have hjob := step_job hs.toSettled hheeded hstep
  obtain ⟨hsettled, hstays⟩ := hs.toSettled.step hnames hheeded hstep
  refine ⟨⟨hsettled, ?_⟩, hstays⟩
  obtain hsame | ⟨i, t, t', home, overlay, hset, hrow⟩ := step_rows hs.kept.waiting hstep
  · exact (hs.kept.same hsame).imp fun i t _ h ↦ h.ofJob hjob.cancelled
  · rw [hset.job]
    apply hs.kept.set hnames hset hrow.account
    rw [hrow.account]
    exact hs.change hset.at_i hcareful hrow

end Steps

section Runs

variable {env : String} {id : ℕ} {names : List String} {homes : String → Home}
variable {overlays : String → Option Overlay} {w w' : World}

theorem step_of_recorded {i : ℕ} {t : Target} (ht : w.targets[i]? = some t)
    (hphase : t.phase = .recorded) (ok : Bool) :
    ∃ w', step env id w (.target i ok) = some w' ∧
      ∃ t' : Target, w'.targets[i]? = some t' ∧ t'.status = .completed := by
  have hnext : t.next id w.job ok (w.overlays t.account) =
      some ({ t with status := .completed, phase := .completed }, w.overlays t.account) := by
    rw [Target.next, hphase]
  refine ⟨{ w with
    targets := w.targets.set i { t with status := .completed, phase := .completed }
    overlays := Function.update w.overlays t.account (w.overlays t.account) }, ?_, _,
    getElem?_set_self_of ht, rfl⟩
  rw [step, targetNext, ht]
  simp only [Option.bind_eq_bind, Option.bind_some, hnext]
  rfl

theorem World.Settled.run (hs : w.Settled id names homes overlays) (hnames : names.Nodup)
    (h : Reached (EnvSync.step env id) (fun w m ↦ heeded w m = true) w w') :
    w'.Settled id names homes overlays ∧ Stays w w' := by
  refine Reached.keeps (P := fun v ↦ v.Settled id names homes overlays ∧ Stays w v) h
    ⟨hs, Stays.refl w⟩ ?_
  intro v m v' hv hheeded hstep
  obtain ⟨hv', hstays⟩ := hv.1.step hnames hheeded hstep
  exact ⟨hv', hv.2.trans hstays⟩

theorem World.Sound.run (hs : w.Sound id names homes overlays) (hnames : names.Nodup)
    (h : Reached (EnvSync.step env id) (fun w m ↦ careful homes w m = true) w w') :
    w'.Sound id names homes overlays ∧ Stays w w' := by
  refine Reached.keeps (P := fun v ↦ v.Sound id names homes overlays ∧ Stays w v) h
    ⟨hs, Stays.refl w⟩ ?_
  intro v m v' hv hcareful hstep
  obtain ⟨hv', hstays⟩ := hv.1.step hnames hcareful hstep
  exact ⟨hv', hv.2.trans hstays⟩

theorem World.Settled.overlay (hs : w.Settled id names homes overlays) {account : String}
    (hne : w.overlays account ≠ overlays account) : Installing env id w account := by
  have hmem : account ∈ names := by
    by_contra hnot
    exact hne (hs.rows.others account hnot)
  rw [← hs.rows.accounts] at hmem
  obtain ⟨t, ht, rfl⟩ := List.mem_map.mp hmem
  obtain ⟨i, ht⟩ := List.mem_iff_getElem?.mp ht
  have hsettled := hs.rows.each i t ht
  have hrecorded := hsettled.changed hne
  refine ⟨i, t, ht, rfl, hsettled.late (t.phase.late_of_hasRecorded hrecorded), ?_⟩
  cases hphase : t.phase
  case completed => exact .inl rfl
  case recorded =>
    exact .inr (step_of_recorded ht hphase)
  all_goals
    rw [hphase] at hrecorded
    cases hrecorded

theorem World.Sound.ended (hs : w.Sound id names homes overlays) : KeptWhenEnded homes w := by
  intro t ht hended path hcomplete
  obtain ⟨i, ht⟩ := List.mem_iff_getElem?.mp ht
  have hsound := hs.kept.each i t ht
  rw [Home.completeAt, Bool.and_eq_true, beq_iff_eq, beq_iff_eq] at hcomplete ⊢
  refine ⟨by rw [hsound.registered, hcomplete.1], ?_⟩
  apply hsound.kept path hcomplete.1 hcomplete.2
  by_contra h
  obtain ⟨⟨hphase, hnot⟩, -⟩ := hsound.replaces (by simpa using h)
  have hstatus := hsound.status
  rw [hended.resolve_right hnot] at hstatus
  obtain hphase | hlate := hphase
  · rw [hphase] at hstatus
    exact absurd hstatus (by decide)
  · revert hlate hstatus
    cases t.phase
    all_goals simp [TargetPhase.late, TargetPhase.statuses]

theorem World.Sound.allOrNothing (hs : w.Sound id names homes overlays) :
    AllOrNothing env id homes overlays w where
  completed h := hs.counted (.inl h)
  overlay _ hne := hs.toSettled.overlay hne
  kept := hs.ended

end Runs

/-- Where every move is careful, the synchronisation of an environment is all or nothing in each
account, and what is cancelled takes no other status. -/
theorem sync_all_or_nothing {accounts targetAccounts names : List String}
    {reference sourceEnvName env : String} {id : ℕ} {homes : String → Home}
    {overlays : String → Option Overlay} {w : World}
    (hstart : start accounts reference sourceEnvName targetAccounts = .ok (env, names))
    (h : Reached (step env id) (fun w m ↦ careful homes w m = true)
      (World.started names homes overlays) w) :
    AllOrNothing env id homes overlays w ∧
      ∀ w', Reached (step env id) (fun w m ↦ careful homes w m = true) w w' → Stays w w' := by
  have hnames := start_nodup hstart
  have hs := (World.sound_started.run hnames h).1
  exact ⟨hs.allOrNothing, fun w' h' ↦ (hs.run hnames h').2⟩

theorem sync_all_or_nothing_smooth : ∃ w : World, w.job = .completed ∧
    AllOrNothing "aedt" 7 (fun _ ↦ furnished) (fun _ ↦ none) w := by
  have hrun : (afterMoves (fun w m ↦
      if careful (fun _ ↦ furnished) w m then step "aedt" 7 w m else none)
      (World.started ["ann"] (fun _ ↦ furnished) fun _ ↦ none) smooth).any
        (fun w ↦ w.job == .completed) = true := by decide
  obtain ⟨w, h, hjob⟩ := exists_reached hrun
  have hstart : start ["bob", "ann"] "bob" " aedt " ["ann", "ann "] = .ok ("aedt", ["ann"]) := rfl
  exact ⟨w, by simpa using hjob, (sync_all_or_nothing hstart h).1⟩

/-- Where every cancellation is heeded, what is cancelled stays so, a job is completed with all its
targets and an overlay is written for a finished installation; where every move is careful too, an
account whose target has not come through has the environment that it had. -/
theorem environments_all_or_nothing {accounts targetAccounts names : List String}
    {reference sourceEnvName env : String} {id : ℕ} {homes : String → Home}
    {overlays : String → Option Overlay}
    (hstart : start accounts reference sourceEnvName targetAccounts = .ok (env, names)) :
    (∀ w, Reached (step env id) (fun w m ↦ heeded w m = true)
        (World.started names homes overlays) w →
      (w.job = .completed → ∀ t ∈ w.targets, t.status = .completed) ∧
      (∀ account, w.overlays account ≠ overlays account → Installing env id w account) ∧
      ∀ w', Reached (step env id) (fun w m ↦ heeded w m = true) w w' → Stays w w') ∧
    ∀ w, Reached (step env id) (fun w m ↦ careful homes w m = true)
      (World.started names homes overlays) w → KeptWhenEnded homes w := by
  have hnames := start_nodup hstart
  refine ⟨fun w h ↦ ?_, fun w h ↦ (World.sound_started.run hnames h).1.ended⟩
  have hs := (World.settled_started.run hnames h).1
  exact ⟨fun hjob ↦ hs.counted (.inl hjob), fun _ hne ↦ hs.overlay hne,
    fun w' h' ↦ (hs.run hnames h').2⟩

def failing : List Move :=
  [.job true, .job true, .job true, .job true, .target 0 true, .target 0 true, .target 0 true,
    .target 0 false, .cancel, .cancelNext 0, .cancelNext 0, .cancelNext 0, .target 0 true]

theorem environments_all_or_nothing_cancelled : ∃ w : World, w.job = .cancelled ∧
    KeptWhenEnded (fun _ ↦ furnished) w ∧
    ∀ w', Reached (step "aedt" 7) (fun w m ↦ heeded w m = true) w w' → w'.job = .cancelled := by
  have hrun : (afterMoves (fun w m ↦
      if careful (fun _ ↦ furnished) w m then step "aedt" 7 w m else none)
      (World.started ["ann"] (fun _ ↦ furnished) fun _ ↦ none) failing).any
        (fun w ↦ w.job == .cancelled) = true := by decide
  obtain ⟨w, h, hjob⟩ := exists_reached hrun
  have hjob : w.job = .cancelled := by simpa using hjob
  have hstart : start ["bob", "ann"] "bob" " aedt " ["ann", "ann "] = .ok ("aedt", ["ann"]) := rfl
  obtain ⟨hheeded, hcareful⟩ := @environments_all_or_nothing _ _ _ _ _ _ 7 (fun _ ↦ furnished)
    (fun _ ↦ none) hstart
  refine ⟨w, hjob, hcareful w h, fun w' h' ↦ ?_⟩
  exact ((hheeded w (h.mono fun _ _ ↦ heeded_of_careful)).2.2 w' h').job hjob

/-- A cancellation right after `start` is overwritten by the first write of the thread. -/
theorem cancelled_job_runs : ¬∀ w w' : World,
    Reached (step "aedt" 7) (fun _ _ ↦ True)
      (World.started ["ann"] (fun _ ↦ furnished) fun _ ↦ none) w →
    Reached (step "aedt" 7) (fun _ _ ↦ True) w w' → Stays w w' := by
  intro hstays
  have hrun : (afterMoves (step "aedt" 7) (World.started ["ann"] (fun _ ↦ furnished) fun _ ↦ none)
      [.cancel, .cancelNext 0]).any (fun w ↦ w.job == .cancelled &&
        (step "aedt" 7 w (.job true)).any fun w' ↦ w'.job == .running) = true := by decide
  obtain ⟨w, hw, hrun⟩ := (Option.any_eq_true _ _).mp hrun
  rw [Bool.and_eq_true, beq_iff_eq] at hrun
  obtain ⟨w', hw', hrunning⟩ := (Option.any_eq_true _ _).mp hrun.2
  have hkept := (hstays w w' (reached_of_afterMoves hw fun _ _ _ ↦ trivial)
    (.step .start trivial hw')).job hrun.1
  rw [hkept] at hrunning
  cases hrunning

end SlurmScheduler.EnvSync
