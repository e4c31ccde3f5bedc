import SlurmScheduler.Lock.Exclusion

namespace SlurmScheduler.Lock

open Concurrent

/-- The call that a thread is in, or has ended last, and what it had of the instance before. -/
def Stage.made : Stage → Option (ℕ × Call × Holding)
  | .idle none => none
  | .idle (some r) => some (r.lock, r.call, r.before)
  | .acquiring i _ (.back before) => some (i, .acquire, before)
  | .acquiring i _ (.restore _ depth before) => some (i, .restore depth, before)
  | .releasing i _ (.back before) => some (i, .release, before)
  | .releasing i _ (.suspend _ _ before) => some (i, .suspend, before)

/-- The block of `suspended` that the call has begun -/
def Stage.begun : Stage → List (ℕ × ℕ)
  | .idle (some ⟨i, .suspend, false, before⟩) => [(i, before.depth)]
  | _ => []

def AcquireNext.made (i : ℕ) : AcquireNext → ℕ × Call × Holding
  | .back before => (i, .acquire, before)
  | .restore _ depth before => (i, .restore depth, before)

def ReleaseNext.made (i : ℕ) : ReleaseNext → ℕ × Call × Holding
  | .back before => (i, .release, before)
  | .suspend _ _ before => (i, .suspend, before)

section Stages

variable {i : ℕ} {raised : Bool}

theorem Stage.made_acquiring (phase : AcquirePhase) (next : AcquireNext) :
    (Stage.acquiring i phase next).made = some (next.made i) := by
  cases next <;> rfl

theorem Stage.made_releasing (phase : ReleasePhase) (next : ReleaseNext) :
    (Stage.releasing i phase next).made = some (next.made i) := by
  cases next <;> rfl

theorem AcquireNext.made_stage (next : AcquireNext) :
    (next.stage i raised).made = some (next.made i) ∧ (next.stage i raised).begun = [] := by
  cases next with
  | back before => exact ⟨rfl, rfl⟩
  | restore left depth before =>
    unfold AcquireNext.stage
    dsimp only
    split
    · exact ⟨rfl, rfl⟩
    · exact ⟨rfl, rfl⟩

theorem ReleaseNext.made_stage (next : ReleaseNext) :
    (next.stage i raised).made = some (next.made i) := by
  cases next with
  | back before => rfl
  | suspend left depth before =>
    unfold ReleaseNext.stage
    dsimp only
    split
    · rfl
    · rfl

end Stages

structure CallStep (t : ℕ) (P P' : Proc) : Prop where
  made : (P'.threads t).made = (P.threads t).made
  regions : P'.regions t = (P'.threads t).begun ++ P.regions t
  others : ∀ u, u ≠ t → P'.threads u = P.threads u ∧ P'.regions u = P.regions u

section Steps

variable {key : String} {node : ℕ → ℕ} {f f' : FileLocks} {P P' : Proc} {p t i : ℕ}
  {l : SessionLock} {outcome : Outcome}

theorem callStep_of_setStage {stage : Stage} (hmade : stage.made = (P.threads t).made)
    (hbegun : stage.begun = []) (hthreads : P'.threads = Function.update P.threads t stage)
    (hregions : P'.regions = P.regions) : CallStep t P P' := by
  refine ⟨?_, ?_, ?_⟩
  · rw [hthreads, Function.update_self]
    exact hmade
  · rw [hthreads, Function.update_self, hbegun, hregions]
    rfl
  · intro u hu
    rw [hthreads, Function.update_of_ne hu, hregions]
    exact ⟨rfl, rfl⟩

theorem callStep_acquire {phase : AcquirePhase} {next : AcquireNext}
    (hstage : P.threads t = .acquiring i phase next)
    (hstep : acquireStep node f P p t i l next phase outcome = some (f', P')) :
    CallStep t P P' := by
  have hmade : (P.threads t).made = some (next.made i) := by
    rw [hstage]
    exact Stage.made_acquiring phase next
  have hstay {Q : Proc} (phase' : AcquirePhase)
      (hthreads : Q.threads = Function.update P.threads t (.acquiring i phase' next))
      (hregions : Q.regions = P.regions) : CallStep t P Q :=
    callStep_of_setStage ((Stage.made_acquiring phase' next).trans hmade.symm) rfl hthreads hregions
  have hended {Q : Proc} (raised : Bool)
      (hthreads : Q.threads = Function.update P.threads t (next.stage i raised))
      (hregions : Q.regions = P.regions) : CallStep t P Q :=
    callStep_of_setStage (next.made_stage.1.trans hmade.symm) next.made_stage.2 hthreads hregions
  unfold acquireStep at hstep
  split at hstep
  · -- `entering` is granted
    split at hstep
    · cases hstep
      exact hstay .depth rfl rfl
    · cases hstep
  · split at hstep
    · cases hstep
    · cases hstep
      exact hended true rfl rfl
  · -- `depth`
    split at hstep
    · cases hstep
      exact hended false rfl rfl
    · cases hstep
      exact hstay .gate rfl rfl
  · -- the gate is free
    split at hstep
    · cases hstep
    · cases hstep
      exact hstay .opening rfl rfl
  · cases hstep
    exact hstay .undoGate rfl rfl
  · obtain ⟨f₁, -, hstep⟩ := Option.bind_eq_some_iff.mp hstep
    cases hstep
    exact hstay _ rfl rfl
  · cases hstep
    exact hstay _ rfl rfl
  · cases hstep
    exact hstay _ rfl rfl
  · cases hstep
    exact hstay _ rfl rfl
  · cases hstep
    exact hstay _ rfl rfl
  · obtain ⟨f₁, -, hstep⟩ := Option.bind_eq_some_iff.mp hstep
    cases hstep
    exact hstay _ rfl rfl
  · cases hstep
    exact hstay _ rfl rfl
  · cases hstep
    exact hstay _ rfl rfl
  · obtain ⟨f₁, -, hstep⟩ := Option.bind_eq_some_iff.mp hstep
    cases hstep
    exact hstay _ rfl rfl
  · cases hstep
    exact hstay _ rfl rfl
  · cases hstep
    exact hstay _ rfl rfl
  · cases hstep
    exact hstay _ rfl rfl
  · cases hstep
    exact hstay _ rfl rfl
  · cases hstep
    exact hstay _ rfl rfl
  · cases hstep
    exact hstay _ rfl rfl
  · -- the instance is held from here on
    cases hstep
    exact hended false rfl rfl
  · cases hstep
    exact hstay _ rfl rfl
  · -- the gate is given back where it was taken
    split at hstep
    · cases hstep
      exact hstay .undoLocal rfl rfl
    · cases hstep
      exact hstay .undoLocal rfl rfl
  · cases hstep
    exact hended true rfl rfl
  · cases hstep

theorem regions_endRelease {raised : Bool} {next : ReleaseNext} {n : ℕ} (hnext : next.Fits n) :
    (P.endRelease t i raised next).regions t = (next.stage i raised).begun ++ P.regions t ∧
      ∀ u, u ≠ t → (P.endRelease t i raised next).regions u = P.regions u := by
  cases next with
  | back before => exact ⟨rfl, fun u _ ↦ rfl⟩
  | suspend left depth before =>
    obtain ⟨rfl, -⟩ := hnext
    cases raised with
    | true => cases left <;> exact ⟨rfl, fun u _ ↦ rfl⟩
    | false =>
      cases left with
      | succ left => exact ⟨rfl, fun u _ ↦ rfl⟩
      | zero =>
        refine ⟨Function.update_self .., fun u hu ↦ ?_⟩
        exact Function.update_of_ne hu _ _

theorem callStep_release {phase : ReleasePhase} {next : ReleaseNext} {n : ℕ}
    (hnext : next.Fits n) (hstage : P.threads t = .releasing i phase next)
    (hstep : releaseStep f P p t i l next phase outcome = some (f', P')) : CallStep t P P' := by
  have hmade : (P.threads t).made = some (next.made i) := by
    rw [hstage]
    exact Stage.made_releasing phase next
  have hstay {Q : Proc} (phase' : ReleasePhase)
      (hthreads : Q.threads = Function.update P.threads t (.releasing i phase' next))
      (hregions : Q.regions = P.regions) : CallStep t P Q :=
    callStep_of_setStage ((Stage.made_releasing phase' next).trans hmade.symm) rfl hthreads hregions
  have hended {Q : Proc} (raised : Bool) (hthreads : Q.threads = P.threads)
      (hregions : Q.regions = P.regions) : CallStep t P (Q.endRelease t i raised next) := by
    obtain ⟨hmine, hothers⟩ := regions_endRelease hnext
    refine ⟨?_, ?_, fun u hu ↦ ⟨?_, (hothers u hu).trans (by rw [hregions])⟩⟩
    · rw [threads_endRelease, Function.update_self]
      exact next.made_stage.trans hmade.symm
    · rw [hmine, threads_endRelease, Function.update_self, hregions]
    · rw [threads_endRelease, Function.update_of_ne hu, hthreads]
  unfold releaseStep at hstep
  split at hstep
  · split at hstep
    · cases hstep
      exact hended true rfl rfl
    · cases hstep
      exact hstay .checkOwner rfl rfl
  · split at hstep
    · cases hstep
      exact hstay .lowering rfl rfl
    · cases hstep
      exact hended true rfl rfl
  · -- `lowering`
    split at hstep
    · cases hstep
      exact hstay _ rfl rfl
    · cases hstep
      exact hstay _ rfl rfl
  · cases hstep
    exact hstay _ rfl rfl
  · cases hstep
    exact hstay _ rfl rfl
  · cases hstep
    exact hstay _ rfl rfl
  · cases hstep
    exact hstay _ rfl rfl
  · cases hstep
    exact hstay _ rfl rfl
  · cases hstep
    exact hstay _ rfl rfl
  · -- the gate is given back
    split at hstep
    · cases hstep
      exact hstay _ rfl rfl
    · cases hstep
      exact hstay _ rfl rfl
  · -- the thread leaves
    cases hstep
    exact hended _ rfl rfl
  · cases hstep

end Steps

def NoCall (p t : ℕ) (_ : World) (m : LockMove) : Prop := ∀ request, m ≠ .call p t request

/-- The thread is in a call, or has just ended it; `blocks` are those of `suspended` around it. -/
structure World.InCall (w : World) (p t : ℕ) (made : ℕ × Call × Holding)
    (blocks : List (ℕ × ℕ)) : Prop where
  made : ((w.procs p).threads t).made = some made
  regions : (w.procs p).regions t = ((w.procs p).threads t).begun ++ blocks

section Runs

variable {key : String} {node : ℕ → ℕ} {w w' : World} {m : LockMove} {P P' : Proc} {p t i : ℕ}
  {made : ℕ × Call × Holding} {blocks : List (ℕ × ℕ)}

theorem startCall_others {request : Request} (h : startCall P t request = some P') {u : ℕ}
    (hu : u ≠ t) : P'.threads u = P.threads u ∧ P'.regions u = P.regions u := by
  have hstay (stage : Stage) : (P.setStage t stage).threads u = P.threads u :=
    Function.update_of_ne hu _ _
  cases request with
  | acquire i =>
    obtain ⟨l, -, h⟩ := Option.bind_eq_some_iff.mp h
    cases h
    exact ⟨hstay _, rfl⟩
  | release i =>
    obtain ⟨l, -, h⟩ := Option.bind_eq_some_iff.mp h
    cases h
    exact ⟨hstay _, rfl⟩
  | suspend i =>
    obtain ⟨l, -, h⟩ := Option.bind_eq_some_iff.mp h
    split at h
    · cases h
      exact ⟨hstay _, rfl⟩
    · cases h
      exact ⟨hstay _, rfl⟩
  | resume =>
    simp only [startCall] at h
    split at h
    · cases h
    · rename_i i depth regions hregions
      obtain ⟨l, -, h⟩ := Option.bind_eq_some_iff.mp h
      cases depth with
      | zero =>
        cases h
        exact ⟨Function.update_of_ne hu _ _, Function.update_of_ne hu _ _⟩
      | succ left =>
        cases h
        exact ⟨Function.update_of_ne hu _ _, Function.update_of_ne hu _ _⟩

theorem threadStep_call {f f' : FileLocks} {outcome : Outcome} (h : P.Sound key)
    (hstep : threadStep node f P p t outcome = some (f', P')) :
    (P.threads t).begun = [] ∧ CallStep t P P' := by
  unfold threadStep at hstep
  split at hstep
  · cases hstep
  · rename_i i phase next hstage
    obtain ⟨l, -, hstep⟩ := Option.bind_eq_some_iff.mp hstep
    exact ⟨by rw [hstage]; rfl, callStep_acquire hstage hstep⟩
  · rename_i i phase next hstage
    obtain ⟨l, hl, hstep⟩ := Option.bind_eq_some_iff.mp hstep
    have hfits := h.fits t i l hl
    rw [hstage] at hfits
    obtain ⟨n, -, hnext⟩ := Stage.fits_releasing.mp hfits
    exact ⟨by rw [hstage]; rfl, callStep_release hnext hstage hstep⟩

theorem World.InCall.congr (h : w.InCall p t made blocks)
    (hthreads : (w'.procs p).threads t = (w.procs p).threads t)
    (hregions : (w'.procs p).regions t = (w.procs p).regions t) : w'.InCall p t made blocks :=
  ⟨by rw [hthreads]; exact h.made, by rw [hthreads, hregions]; exact h.regions⟩

/-- One process has moved; in it, thread `t` is where it was. -/
theorem World.InCall.advance {q : ℕ} {f : FileLocks} (h : w.InCall p t made blocks)
    (hsame : q = p → P.threads t = (w.procs p).threads t ∧ P.regions t = (w.procs p).regions t) :
    World.InCall { w.setProc q P with file := f } p t made blocks := by
  by_cases hqp : q = p
  · obtain ⟨hthreads, hregions⟩ := hsame hqp
    subst hqp
    refine h.congr ?_ ?_
    · change (Function.update w.procs q P q).threads t = _
      rw [Function.update_self, hthreads]
    · change (Function.update w.procs q P q).regions t = _
      rw [Function.update_self, hregions]
  · have hproc : ({ w.setProc q P with file := f } : World).procs p = w.procs p :=
      Function.update_of_ne (Ne.symm hqp) _ _
    exact h.congr (by rw [hproc]) (by rw [hproc])

/-- A thread stays in its call until it makes the next one. -/
theorem World.InCall.step (h : w.InCall p t made blocks) (hs : w.Sound key) (hno : NoCall p t w m)
    (hstep : Lock.step node key w m = some w') : w'.InCall p t made blocks := by
  cases m with
  | construct q =>
    cases hstep
    exact h.advance fun hq ↦ by subst hq; exact ⟨rfl, rfl⟩
  | constructOther q other =>
    cases hstep
    exact h.advance fun hq ↦ by subst hq; exact ⟨rfl, rfl⟩
  | call q u request =>
    simp only [Lock.step] at hstep
    split at hstep
    · obtain ⟨P, hstart, hw⟩ := Option.bind_eq_some_iff.mp hstep
      cases hw
      refine h.advance fun hq ↦ ?_
      subst hq
      have hne : t ≠ u := by
        rintro rfl
        exact hno request rfl
      exact startCall_others hstart hne
    · cases hstep
  | advance q u outcome =>
    obtain ⟨⟨f, P⟩, hthread, hw⟩ := Option.bind_eq_some_iff.mp hstep
    cases hw
    obtain ⟨hbegun, hcall⟩ := threadStep_call (hs.procs q) hthread
    by_cases hmine : q = p ∧ u = t
    · obtain ⟨rfl, rfl⟩ := hmine
      have hproc : ({ w.setProc q P with file := f } : World).procs q = P :=
        Function.update_self ..
      refine ⟨?_, ?_⟩
      · rw [hproc, hcall.made]
        exact h.made
      · rw [hproc, hcall.regions, h.regions, hbegun]
        rfl
    · refine h.advance fun hq ↦ ?_
      subst hq
      exact hcall.others t fun htu ↦ hmine ⟨rfl, htu.symm⟩

/-- A request makes a call of instance `i` inside the blocks that `left` lists. -/
def Request.Makes (regions : List (ℕ × ℕ)) (i : ℕ) (call : Call) (left : List (ℕ × ℕ)) :
    Request → Prop
  | .acquire j => i = j ∧ call = .acquire ∧ left = regions
  | .release j => i = j ∧ call = .release ∧ left = regions
  | .suspend j => i = j ∧ call = .suspend ∧ left = regions
  | .resume => ∃ depth, regions = (i, depth) :: left ∧ call = .restore depth

theorem inCall_of_call {request : Request}
    (hstep : Lock.step node key w (.call p t request) = some w') :
    ∃ (i : ℕ) (call : Call) (l : SessionLock) (left : List (ℕ × ℕ)),
      (w.procs p).locks[i]? = some l ∧ request.Makes ((w.procs p).regions t) i call left ∧
        w'.InCall p t (i, call, l.holding t) left := by
  simp only [Lock.step] at hstep
  split at hstep
  · obtain ⟨P, hstart, hw⟩ := Option.bind_eq_some_iff.mp hstep
    cases hw
    have hproc : (w.setProc p P).procs p = P := Function.update_self ..
    have hin {i : ℕ} {call : Call} {l : SessionLock} {left : List (ℕ × ℕ)} {stage : Stage}
        (hthreads : P.threads = Function.update (w.procs p).threads t stage)
        (hmade : stage.made = some (i, call, l.holding t)) (hbegun : stage.begun = [])
        (hregions : P.regions t = left) :
        (w.setProc p P).InCall p t (i, call, l.holding t) left := by
      refine ⟨?_, ?_⟩
      · rw [hproc, hthreads, Function.update_self, hmade]
      · rw [hproc, hthreads, Function.update_self, hbegun, hregions]
        rfl
    cases request with
    | acquire i =>
      obtain ⟨l, hl, hstart⟩ := Option.bind_eq_some_iff.mp hstart
      cases hstart
      exact ⟨i, .acquire, l, _, hl, ⟨rfl, rfl, rfl⟩, hin rfl rfl rfl rfl⟩
    | release i =>
      obtain ⟨l, hl, hstart⟩ := Option.bind_eq_some_iff.mp hstart
      cases hstart
      exact ⟨i, .release, l, _, hl, ⟨rfl, rfl, rfl⟩, hin rfl rfl rfl rfl⟩
    | suspend i =>
      obtain ⟨l, hl, hstart⟩ := Option.bind_eq_some_iff.mp hstart
      refine ⟨i, .suspend, l, _, hl, ⟨rfl, rfl, rfl⟩, ?_⟩
      split at hstart
      · cases hstart
        exact hin rfl rfl rfl rfl
      · cases hstart
        exact hin rfl rfl rfl rfl
    | resume =>
      simp only [startCall] at hstart
      split at hstart
      · cases hstart
      · rename_i i depth left hregions
        obtain ⟨l, hl, hstart⟩ := Option.bind_eq_some_iff.mp hstart
        refine ⟨i, .restore depth, l, left, hl, ⟨depth, hregions, rfl⟩, ?_⟩
        cases depth with
        | zero =>
          cases hstart
          exact hin rfl rfl rfl (Function.update_self ..)
        | succ left =>
          cases hstart
          exact hin rfl rfl rfl (Function.update_self ..)
  · cases hstep

def Call.Leaves (before after : Holding) : Call → Bool → Prop
  | .acquire, true => after = before
  | .acquire, false => after = .deep (before.depth + 1)
  | .release, true | .suspend, true => after = before ∨ after = ⟨0, false, 0⟩
  | .release, false => before = .deep (after.depth + 1) ∧ after = .deep after.depth
  | .suspend, false | .restore _, true => after = ⟨0, false, 0⟩
  | .restore depth, false => after = .deep (before.depth + depth)

theorem leaves_of_fits {n : ℕ} {r : Report} (h : r.Fits n) :
    r.call.Leaves r.before (.deep n) r.raised := by
  obtain ⟨i, call, raised, before⟩ := r
  cases call with
  | acquire =>
    cases raised with
    | true => exact Eq.symm h
    | false =>
      obtain ⟨b, hb, rfl⟩ := h
      dsimp only at hb
      rw [hb]
      rfl
  | release =>
    cases raised with
    | true =>
      obtain hsame | hzero := h
      · exact .inl (Eq.symm hsame)
      · exact .inr (by rw [hzero]; rfl)
    | false => exact ⟨h, rfl⟩
  | suspend =>
    cases raised with
    | true =>
      obtain hsame | hzero := h
      · exact .inl (Eq.symm hsame)
      · exact .inr (by rw [hzero]; rfl)
    | false =>
      have hzero : n = 0 := h
      rw [hzero]
      rfl
  | restore depth =>
    cases raised with
    | true =>
      have hzero : n = 0 := h
      rw [hzero]
      rfl
    | false =>
      obtain ⟨b, hb, rfl⟩ := h
      dsimp only at hb
      rw [hb]
      rfl

/-- A call that was made in `w` has ended in `w'`: what it leaves is by the call itself, and a block
of `suspended` that it has begun remembers the depth. -/
structure Ended (w w' : World) (p t : ℕ) (request : Request) (report : Report) : Prop where
  holding : ∃ l l', (w.procs p).locks[report.lock]? = some l ∧
    (w'.procs p).locks[report.lock]? = some l' ∧ report.before = l.holding t ∧
    report.call.Leaves (l.holding t) (l'.holding t) report.raised
  regions : ∃ left, request.Makes ((w.procs p).regions t) report.lock report.call left ∧
    (w'.procs p).regions t = if report.call = .suspend ∧ report.raised = false then
      (report.lock, report.before.depth) :: left else left

theorem World.InCall.ended {i : ℕ} {call : Call} {l : SessionLock} {left : List (ℕ × ℕ)}
    {request : Request} {report : Report} (hs : w'.Sound key)
    (h : w'.InCall p t (i, call, l.holding t) left) (hl : (w.procs p).locks[i]? = some l)
    (hmakes : request.Makes ((w.procs p).regions t) i call left)
    (hidle : (w'.procs p).threads t = .idle (some report)) : Ended w w' p t request report := by
  have hmade := h.made
  have hregions := h.regions
  rw [hidle] at hmade hregions
  obtain ⟨rfl, hrest⟩ := Prod.mk.inj (Option.some.inj hmade)
  obtain ⟨rfl, hbefore⟩ := Prod.mk.inj hrest
  have hbelow := (hs.procs p).below t
  rw [hidle] at hbelow
  have hl' := List.getElem?_eq_getElem (hbelow report rfl)
  have hfits := (hs.procs p).fits t report.lock _ hl'
  rw [hidle] at hfits
  obtain ⟨n, hn, hreport⟩ := hfits
  refine ⟨⟨l, _, hl, hl', hbefore, ?_⟩, left, hmakes, ?_⟩
  · rw [hn, ← hbefore]
    exact leaves_of_fits (hreport report rfl rfl)
  · rw [hregions]
    obtain ⟨i, call, raised, before⟩ := report
    cases call <;> cases raised <;> rfl

end Runs

/-- However the steps of threads and processes interleave and whichever of them fail, one thread at
most is between an outermost `acquire` and its `release`, nobody in its process touches the file
meanwhile, and every call leaves of an instance what its own outcome says. -/
theorem desktop_driven_by_one {node : ℕ → ℕ} {key : String} {w : World}
    (h : Reached (step node key) (fun _ _ ↦ True) World.initial w) :
    (∀ p t q u, w.Inside p t → w.Inside q u → q = p ∧ u = t) ∧
      (∀ p t, w.Inside p t → ∀ m w', step node key w m = some w' →
        w'.file.opened p = w.file.opened p) ∧
      (∀ p, key ∈ (w.procs p).gates →
        (w.procs p).locked ((w.procs p).gates.idxOf key) = true →
          ∃ (j : ℕ) (l : SessionLock) (t : ℕ), (w.procs p).locks[j]? = some l ∧
            l.gateHeld = true ∧ l.owner = some t) ∧
      ∀ p t request w₁ w₂ report, step node key w (.call p t request) = some w₁ →
        Reached (step node key) (NoCall p t) w₁ w₂ →
          (w₂.procs p).threads t = .idle (some report) → Ended w w₂ p t request report := by
  have hs : w.Sound key := h.keeps World.sound_initial fun _ _ _ hv _ hstep ↦ hv.step hstep
  have hexclusive : Exclusive node key w := hs.exclusive
  refine ⟨hexclusive.one, hexclusive.quiet, hexclusive.gate, ?_⟩
  intro p t request w₁ w₂ report hcall hrun hidle
  obtain ⟨i, call, l, left, hl, hmakes, hin⟩ := inCall_of_call hcall
  obtain ⟨hs₂, hin₂⟩ := hrun.keeps (P := fun v ↦ v.Sound key ∧
    v.InCall p t (i, call, l.holding t) left) ⟨hs.step hcall, hin⟩
    fun v m v' hv hno hstep ↦ ⟨hv.1.step hstep, hv.2.step hv.1 hno hstep⟩
  exact hin₂.ended hs₂ hl hmakes hidle

/-- A thread acquires twice, and begins a block of `suspended`. -/
def suspendedMoves : List LockMove :=
  [.construct 0, .call 0 1 (.acquire 0)] ++
    ([.ok, .ok, .ok, .got 5, .ok, .ok, .ok, .ok] : List Outcome).map (.advance 0 1) ++
    [.call 0 1 (.acquire 0), .advance 0 1 .ok, .advance 0 1 .ok, .call 0 1 (.suspend 0)] ++
    List.replicate 12 (.advance 0 1 .ok)

def resumedMoves : List LockMove :=
  ([.ok, .ok, .ok, .got 5, .ok, .ok, .ok, .ok, .ok, .ok] : List Outcome).map (.advance 0 1)

def Stage.reports (report : Report) : Stage → Bool
  | .idle (some r) => r.lock == report.lock && r.call == report.call &&
      r.raised == report.raised && decide (r.before = report.before)
  | _ => false

theorem desktop_driven_by_one_suspended : ∃ (w : World) (l : SessionLock),
    (w.procs 0).locks[0]? = some l ∧ l.holding 1 = .deep 2 := by
  have hrun : ((afterMoves (step (fun _ ↦ 0) "/gpfs/lock") World.initial suspendedMoves).any fun w ↦
      (step (fun _ ↦ 0) "/gpfs/lock" w (.call 0 1 .resume)).any fun w₁ ↦
        (afterMoves (step (fun _ ↦ 0) "/gpfs/lock") w₁ resumedMoves).any fun w₂ ↦
          ((w₂.procs 0).threads 1).reports ⟨0, .restore 2, false, ⟨0, false, 0⟩⟩) = true := by
    decide
  obtain ⟨w, hw, hrun⟩ := (Option.any_eq_true _ _).mp hrun
  obtain ⟨w₁, hcall, hrun⟩ := (Option.any_eq_true _ _).mp hrun
  obtain ⟨w₂, hw₂, hends⟩ := (Option.any_eq_true _ _).mp hrun
  unfold Stage.reports at hends
  split at hends
  · rename_i report hidle
    simp only [Bool.and_eq_true, beq_iff_eq, decide_eq_true_eq] at hends
    obtain ⟨⟨⟨hlock, hmade⟩, hraised⟩, hbefore⟩ := hends
    have hno : ∀ m ∈ resumedMoves, ∀ v, NoCall 0 1 v m := by
      intro m hm v request heq
      obtain ⟨outcome, -, rfl⟩ := List.mem_map.mp hm
      cases heq
    obtain ⟨hin, -⟩ := (desktop_driven_by_one
      (reached_of_afterMoves hw fun _ _ _ ↦ trivial)).2.2.2 0 1 .resume w₁ w₂ report hcall
      (reached_of_afterMoves hw₂ hno) hidle
    obtain ⟨l, l', -, hl', hheld, hleaves⟩ := hin
    rw [hmade, hraised, ← hheld, hbefore] at hleaves
    rw [hlock] at hl'
    exact ⟨w₂, l', hl', hleaves⟩
  · cases hends

end SlurmScheduler.Lock
