import SlurmScheduler.Lock.Holdings

namespace SlurmScheduler.Lock

open Concurrent

section Calls

variable {key other : String} {P P' : Proc} {t : ℕ}

theorem startCall_sound {request : Request} (h : P.Sound key) {last : Option Report}
    (hidle : P.threads t = .idle last) (hstart : startCall P t request = some P') :
    P'.Sound key := by
  have hrests : ∀ i, (P.threads t).Rests i := by
    intro i
    rw [hidle]
    exact Stage.rests_idle
  have hdeep : ∀ {i : ℕ} {l : SessionLock}, P.locks[i]? = some l →
      ∃ n, l.holding t = .deep n := by
    intro i l hl
    have hfits := h.fits t i l hl
    rw [hidle] at hfits
    exact Stage.fits_idle hfits
  cases request with
  | acquire i =>
    obtain ⟨l, hl, hstart⟩ := Option.bind_eq_some_iff.mp hstart
    cases hstart
    obtain ⟨n, hn⟩ := hdeep hl
    exact h.stay hl (hrests i) rfl (Stage.fits_acquiring.mpr ⟨n, hn, hn⟩)
  | release i =>
    obtain ⟨l, hl, hstart⟩ := Option.bind_eq_some_iff.mp hstart
    cases hstart
    obtain ⟨n, hn⟩ := hdeep hl
    exact h.stay hl (hrests i) rfl (Stage.fits_releasing.mpr ⟨n, hn, hn⟩)
  | suspend i =>
    obtain ⟨l, hl, hstart⟩ := Option.bind_eq_some_iff.mp hstart
    obtain ⟨n, hn⟩ := hdeep hl
    split at hstart
    · cases hstart
      refine h.stay hl (hrests i) ?_ ⟨n, hn, ?_⟩
      · intro r hr
        cases hr
        rfl
      · intro r hr _
        cases hr
        exact .inl hn
    · rename_i howned
      cases hstart
      push Not at howned
      obtain ⟨hthread, hdepth⟩ := howned
      rw [(h.sound i l hl).ownerThread, if_neg hdepth] at hthread
      have hheld := hn
      rw [holding_of_owner hthread] at hheld
      have hn' : l.depth = n := congrArg Holding.depth hheld
      refine h.stay hl (hrests i) rfl (Stage.fits_releasing.mpr ⟨n, hn, ?_, ?_⟩)
      · rw [hn, hn']
      · omega
  | resume =>
    simp only [startCall] at hstart
    split at hstart
    · cases hstart
    · rename_i i depth regions hregions
      obtain ⟨l, hl, hstart⟩ := Option.bind_eq_some_iff.mp hstart
      obtain ⟨n, hn⟩ := hdeep hl
      have hregion := h.regions (Function.update P.regions t regions)
      cases depth with
      | zero =>
        cases hstart
        refine hregion.stay hl (hrests i) ?_ ⟨n, hn, ?_⟩
        · intro r hr
          cases hr
          rfl
        · intro r hr _
          cases hr
          exact ⟨n, hn, rfl⟩
      | succ left =>
        cases hstart
        refine hregion.stay hl (hrests i) rfl (Stage.fits_acquiring.mpr ⟨n, hn, n, hn, ?_, ?_⟩)
        · exact Nat.lt_succ_self left
        · omega

theorem processPathGate_eq (gates : List String) (key : String) :
    key ∈ (processPathGate gates key).2 ∧
      (processPathGate gates key).1 = (processPathGate gates key).2.idxOf key := by
  unfold processPathGate
  split
  · rename_i hmem
    exact ⟨hmem, rfl⟩
  · rename_i hnew
    refine ⟨List.mem_append_right _ (List.mem_singleton_self key), ?_⟩
    rw [List.idxOf_append_of_notMem hnew, List.idxOf_cons_self]
    rfl

theorem Proc.Sound.register (h : P.Sound key) (other : String) :
    Proc.Sound key { P with gates := (processPathGate P.gates other).2 } := by
  unfold processPathGate
  split
  · exact h
  · have hidx : key ∈ P.gates → (P.gates ++ [other]).idxOf key = P.gates.idxOf key :=
      fun hmem ↦ List.idxOf_append_of_mem hmem
    constructor
    · intro j l hl
      obtain ⟨hmem, hgate⟩ := h.keyed j l hl
      exact ⟨List.mem_append_left _ hmem, hgate.trans (hidx hmem).symm⟩
    · exact h.sound
    · exact h.fits
    · intro j l hl hheld
      change P.locked ((P.gates ++ [other]).idxOf key) = true
      rw [hidx (h.keyed j l hl).1]
      exact h.gate j l hl hheld
    · exact h.one
    · intro _ hlocked
      by_cases hmem : key ∈ P.gates
      · refine h.held hmem ?_
        change P.locked ((P.gates ++ [other]).idxOf key) = true at hlocked
        rw [hidx hmem] at hlocked
        exact hlocked
      · change P.locked ((P.gates ++ [other]).idxOf key) = true at hlocked
        rw [List.idxOf_append_of_notMem hmem, h.fresh _ (Nat.le_add_right _ _)] at hlocked
        cases hlocked
    · intro g hle
      refine h.fresh g (Nat.le_trans ?_ hle)
      rw [List.length_append]
      exact Nat.le_add_right _ _
    · exact h.below

theorem Proc.Sound.append (h : P.Sound key) (hmem : key ∈ P.gates) :
    Proc.Sound key { P with locks := P.locks ++ [{ gate := P.gates.idxOf key }] } := by
  constructor
  · intro j l hl
    rcases getElem?_concat_cases hl with ⟨-, rfl⟩ | hj
    · exact ⟨hmem, rfl⟩
    · exact h.keyed j l hj
  · intro j l hl
    rcases getElem?_concat_cases hl with ⟨-, rfl⟩ | hj
    · exact ⟨fun _ ↦ ⟨rfl, rfl, rfl⟩, fun hne ↦ absurd rfl hne, rfl⟩
    · exact h.sound j l hj
  · intro u j l hl
    rcases getElem?_concat_cases hl with ⟨rfl, rfl⟩ | hj
    · -- no thread has anything to do with an instance that is new
      have hbelow := h.below u
      cases hstage : P.threads u with
      | idle last =>
        rw [hstage] at hbelow
        refine ⟨0, rfl, fun r hr hlock ↦ ?_⟩
        exact absurd (hlock ▸ hbelow r hr) (Nat.lt_irrefl _)
      | acquiring i phase next =>
        rw [hstage] at hbelow
        exact (Stage.fits_acquiring_ne (Nat.ne_of_lt hbelow)).mpr ⟨0, rfl⟩
      | releasing i phase next =>
        rw [hstage] at hbelow
        exact (Stage.fits_releasing_ne (Nat.ne_of_lt hbelow)).mpr ⟨0, rfl⟩
    · exact h.fits u j l hj
  · intro j l hl hheld
    rcases getElem?_concat_cases hl with ⟨-, rfl⟩ | hj
    · cases hheld
    · exact h.gate j l hj hheld
  · intro i j l l' hl hl' hheld hheld'
    rcases getElem?_concat_cases hl with ⟨-, rfl⟩ | hi
    · cases hheld
    · rcases getElem?_concat_cases hl' with ⟨-, rfl⟩ | hj
      · cases hheld'
      · exact h.one i j l l' hi hj hheld hheld'
  · intro hkey hlocked
    obtain ⟨j, l, hl, hheld⟩ := h.held hkey hlocked
    exact ⟨j, l, getElem?_concat_of hl, hheld⟩
  · exact h.fresh
  · intro u
    have hle : P.locks.length ≤ (P.locks ++ [({ gate := P.gates.idxOf key } : SessionLock)]).length := by
      rw [List.length_append]
      exact Nat.le_add_right _ _
    have hbelow := h.below u
    change (P.threads u).Below _
    cases hstage : P.threads u with
    | idle last =>
      rw [hstage] at hbelow
      exact fun r hr ↦ Nat.lt_of_lt_of_le (hbelow r hr) hle
    | acquiring i phase next =>
      rw [hstage] at hbelow
      exact Nat.lt_of_lt_of_le hbelow hle
    | releasing i phase next =>
      rw [hstage] at hbelow
      exact Nat.lt_of_lt_of_le hbelow hle

theorem construct_sound (h : P.Sound key) : (construct key P).Sound key := by
  obtain ⟨hmem, hgate⟩ := processPathGate_eq P.gates key
  unfold construct
  rw [hgate]
  exact (h.register key).append hmem

end Calls

def Proc.Taken (P : Proc) : Prop :=
  ∃ (j : ℕ) (l : SessionLock), P.locks[j]? = some l ∧ (0 < l.depth ∨ ∃ (t fd : ℕ) (next : AcquireNext),
    l.owner = some t ∧ P.threads t = .acquiring j (.publishing fd) next)

def Proc.Entered (P : Proc) : Prop := ∃ (j : ℕ) (l : SessionLock), P.locks[j]? = some l ∧ 0 < l.depth

section Records

variable {key : String} {node : ℕ → ℕ} {f f' : FileLocks} {P P' : Proc} {p t i : ℕ}
  {l l' : SessionLock} {outcome : Outcome}

theorem Proc.Sound.gate_of_entered (h : P.Sound key) (hl : P.locks[i]? = some l)
    (hdepth : 0 < l.depth) : l.gateHeld = true := by
  cases howner : l.owner with
  | none =>
    have hzero := ((h.sound i l hl).unowned howner).2.1
    omega
  | some u =>
    have hfits := h.fits u i l hl
    rw [holding_of_owner howner] at hfits
    exact Stage.gate_of_depth hfits hdepth

/-- While a thread has the gate and is not in, no thread of the process is. -/
theorem Proc.Sound.not_entered (h : P.Sound key) (hl : P.locks[i]? = some l)
    (hheld : l.gateHeld = true) (hdepth : l.depth = 0) : ¬P.Entered := by
  intro hentered
  obtain ⟨j, m, hm, hin⟩ := hentered
  have hji := h.one j i m l hm hl (h.gate_of_entered hm hin) hheld
  subst hji
  rw [hl] at hm
  cases hm
  omega

theorem Proc.Sound.not_taken (h : P.Sound key) (hl : P.locks[i]? = some l)
    (howner : l.owner = some t) (hheld : l.gateHeld = true) (hdepth : l.depth = 0)
    (hpublish : ∀ fd next, P.threads t ≠ .acquiring i (.publishing fd) next) : ¬P.Taken := by
  intro htaken
  obtain ⟨j, m, hm, hin | ⟨u, fd, next, howner', hstage⟩⟩ := htaken
  · exact h.not_entered hl hheld hdepth ⟨j, m, hm, hin⟩
  · have hfits := h.fits u j m hm
    rw [hstage] at hfits
    obtain ⟨n, ⟨-, hholding⟩, -⟩ := Stage.fits_acquiring.mp hfits
    obtain ⟨-, -, hgate, -⟩ := owner_of_holding hholding
    have hji := h.one j i m l hm hl hgate hheld
    subst hji
    rw [hl] at hm
    cases hm
    rw [howner] at howner'
    cases howner'
    exact hpublish fd next hstage

/-- A step that leads no thread in leaves the process taken only where it was. -/
theorem taken_of_step (hlocks : P'.locks = P.locks.set i l') (hl : P.locks[i]? = some l)
    (hthreads : ∀ u, u ≠ t → P'.threads u = P.threads u)
    (howner : ∀ u, u ≠ t → l'.owner = some u → l.owner = some u)
    (hpublish : ∀ j fd next, P'.threads t ≠ .acquiring j (.publishing fd) next)
    (hdepth : 0 < l'.depth → P.Taken) (h : P'.Taken) : P.Taken := by
  obtain ⟨j, m, hm, hin⟩ := h
  rcases getElem?_set_cases (hlocks ▸ hm) with ⟨rfl, rfl⟩ | ⟨-, hj⟩
  · rcases hin with hin | ⟨u, fd, next, hu, hstage⟩
    · exact hdepth hin
    · have hne : u ≠ t := by
        intro heq
        exact hpublish j fd next (heq ▸ hstage)
      exact ⟨j, l, hl, .inr ⟨u, fd, next, howner u hne hu, hthreads u hne ▸ hstage⟩⟩
  · rcases hin with hin | ⟨u, fd, next, hu, hstage⟩
    · exact ⟨j, m, hj, .inl hin⟩
    · have hne : u ≠ t := by
        intro heq
        exact hpublish j fd next (heq ▸ hstage)
      exact ⟨j, m, hj, .inr ⟨u, fd, next, hu, hthreads u hne ▸ hstage⟩⟩

structure FileStep (p : ℕ) (f f' : FileLocks) (P P' : Proc) : Prop where
  mine : (P.Taken → f.record = some p) → P'.Taken → f'.record = some p
  others : ∀ q, q ≠ p → f.record = some q → f'.record = some q
  opened : ∀ q, q ≠ p → f'.opened q = f.opened q
  quiet : P.Entered → f'.opened p = f.opened p

theorem FileStep.same (h : P'.Taken → P.Taken) (hrecord : f'.record = f.record)
    (hopened : ∀ q, q ≠ p → f'.opened q = f.opened q)
    (hquiet : P.Entered → f'.opened p = f.opened p) : FileStep p f f' P P' where
  mine htaken hnow := hrecord.trans (htaken (h hnow))
  others _ _ hq := hrecord.trans hq
  opened := hopened
  quiet := hquiet

theorem FileStep.idle (h : P'.Taken → P.Taken) : FileStep p f f P P' :=
  .same h rfl (fun _ _ ↦ rfl) fun _ ↦ rfl

theorem FileStep.drop (hrecord : f'.record = (f.dropRecord p).record) (h : ¬P'.Taken)
    (hopened : ∀ q, q ≠ p → f'.opened q = f.opened q)
    (hquiet : P.Entered → f'.opened p = f.opened p) : FileStep p f f' P P' where
  mine _ hnow := absurd hnow h
  others _ hq hrec := hrecord.trans (FileLocks.record_dropRecord hq hrec)
  opened := hopened
  quiet := hquiet

theorem AcquireNext.not_publishing {next : AcquireNext} {raised : Bool} (j fd : ℕ)
    (after : AcquireNext) : next.stage i raised ≠ .acquiring j (.publishing fd) after := by
  cases next with
  | back before =>
    change Stage.idle _ ≠ _
    nofun
  | restore left depth before =>
    change (if _ then _ else _) ≠ _
    split
    all_goals nofun

theorem ReleaseNext.not_publishing {next : ReleaseNext} {raised : Bool} (j fd : ℕ)
    (after : AcquireNext) : next.stage i raised ≠ .acquiring j (.publishing fd) after := by
  cases next with
  | back before =>
    change Stage.idle _ ≠ _
    nofun
  | suspend left depth before =>
    change (if _ then _ else _) ≠ _
    split
    all_goals nofun

/-- A thread that goes to another stage takes nothing, if it does not publish next. -/
theorem taken_of_setStage {stage : Stage} (hl : P.locks[i]? = some l)
    (hlocks : P'.locks = P.locks.set i l') (hthreads : P'.threads = Function.update P.threads t stage)
    (howner : ∀ u, u ≠ t → l'.owner = some u → l.owner = some u)
    (hpublish : ∀ j fd next, stage ≠ .acquiring j (.publishing fd) next)
    (hdepth : 0 < l'.depth → 0 < l.depth) : P'.Taken → P.Taken := by
  refine taken_of_step hlocks hl ?_ howner ?_ fun h ↦ ⟨i, l, hl, .inl (hdepth h)⟩
  · intro u hu
    rw [hthreads, Function.update_of_ne hu]
  · intro j fd next
    rw [hthreads, Function.update_self]
    exact hpublish j fd next

/-- Every step of an `acquire` leaves the record lock with a process that is taken. -/
theorem acquireStep_file {phase : AcquirePhase} {next : AcquireNext} (h : P.Sound key)
    (hl : P.locks[i]? = some l) (hstage : P.threads t = .acquiring i phase next)
    (hstep : acquireStep node f P p t i l next phase outcome = some (f', P')) :
    FileStep p f f' P P' := by
  have hfits := h.fits t i l hl
  rw [hstage] at hfits
  obtain ⟨n, hphase, -⟩ := Stage.fits_acquiring.mp hfits
  have hsame : P.locks = P.locks.set i l := (set_of_getElem? hl).symm
  -- only the stage of the thread changes
  have hstay (stage : Stage) (hpublish : ∀ j fd next, stage ≠ .acquiring j (.publishing fd) next) :
      (P.setStage t stage).Taken → P.Taken :=
    taken_of_setStage hl hsame rfl (fun _ _ hu ↦ hu) hpublish fun hd ↦ hd
  -- before it has the record lock, a thread with the gate is alone and not in
  have hout (hheld : n = 0 ∧ l.holding t = ⟨1, true, 0⟩) : ¬P.Entered := by
    obtain ⟨-, -, hgate, hdepth⟩ := owner_of_holding hheld.2
    exact h.not_entered hl hgate hdepth
  have hmoved (l' : SessionLock) (howner : l'.owner = some t ∨ l'.owner = none)
      (stage : Stage) (hpublish : ∀ j fd next, stage ≠ .acquiring j (.publishing fd) next)
      (hdepth : 0 < l'.depth → 0 < l.depth) (hlocks : P'.locks = P.locks.set i l')
      (hthreads : P'.threads = Function.update P.threads t stage) : P'.Taken → P.Taken := by
    refine taken_of_setStage hl hlocks hthreads ?_ hpublish hdepth
    intro u hu heq
    obtain hsome | hnone := howner
    · rw [hsome] at heq
      exact absurd (Option.some.inj heq).symm hu
    · rw [hnone] at heq
      cases heq
  unfold acquireStep at hstep
  split at hstep
  · -- `entering` is granted
    split at hstep
    · cases hstep
      exact .idle (hmoved (l.enter t) (.inl rfl) (.acquiring i .depth next) nofun (fun hd ↦ hd) rfl rfl)
    · cases hstep
  · split at hstep
    · cases hstep
    · cases hstep
      exact .idle (hstay _ AcquireNext.not_publishing)
  · -- `depth`
    obtain ⟨howner, -⟩ := owner_of_holding hphase
    split at hstep
    · rename_i hnested
      cases hstep
      exact .idle (hmoved { l with depth := l.depth + 1 } (.inl howner) _
        AcquireNext.not_publishing (fun _ ↦ Nat.pos_of_ne_zero hnested) rfl rfl)
    · cases hstep
      exact .idle (hstay _ nofun)
  · -- the gate is free
    obtain ⟨howner, -⟩ := owner_of_holding hphase.2
    split at hstep
    · cases hstep
    · cases hstep
      exact .idle (hmoved { l with gateHeld := true } (.inl howner) (.acquiring i .opening next)
        nofun (fun hd ↦ hd) rfl rfl)
  · cases hstep
    exact .idle (hstay _ nofun)
  · -- the file is opened
    obtain ⟨f₁, hopen, hstep⟩ := Option.bind_eq_some_iff.mp hstep
    cases hstep
    exact .same (hstay _ nofun) (FileLocks.record_openFile hopen)
      (fun _ hq ↦ FileLocks.opened_openFile hopen hq) fun hin ↦ absurd hin (hout hphase)
  · cases hstep
    exact .idle (hstay _ nofun)
  · cases hstep
    exact .idle (hstay _ nofun)
  · cases hstep
    exact .idle (hstay _ nofun)
  · cases hstep
    exact .idle (hstay _ nofun)
  · -- `flock` is granted
    obtain ⟨f₁, hflock, hstep⟩ := Option.bind_eq_some_iff.mp hstep
    cases hstep
    obtain ⟨hrecord, hopened⟩ := FileLocks.flock_frame hflock
    exact .same (hstay _ nofun) hrecord (fun q _ ↦ congrFun hopened q) fun _ ↦ congrFun hopened p
  · cases hstep
    exact .idle (hstay _ nofun)
  · cases hstep
    exact .idle (hstay _ nofun)
  · -- `lockf` is granted
    obtain ⟨f₁, hlockf, hstep⟩ := Option.bind_eq_some_iff.mp hstep
    cases hstep
    obtain ⟨hfree, hrecord, hopened⟩ := FileLocks.lockf_frame hlockf
    refine ⟨fun _ _ ↦ hrecord, ?_, fun q _ ↦ congrFun hopened q, fun _ ↦ congrFun hopened p⟩
    intro q hq hother
    rw [hother] at hfree
    obtain hnone | hmine := hfree
    · cases hnone
    · exact absurd (Option.some.inj hmine) hq
  · cases hstep
    exact .idle (hstay _ nofun)
  · cases hstep
    exact .idle (hstay _ nofun)
  · -- `flock` is given back
    rename_i fd again
    cases hstep
    refine .same (hstay _ ?_) rfl (fun _ _ ↦ rfl) fun _ ↦ rfl
    cases again
    all_goals nofun
  · cases hstep
    exact .idle (hstay _ nofun)
  · cases hstep
    exact .idle (hstay _ nofun)
  · cases hstep
    exact .idle (hstay _ nofun)
  · -- the instance is held from here on
    rename_i fd
    cases hstep
    obtain ⟨howner, -⟩ := owner_of_holding hphase.2
    exact .idle fun _ ↦ ⟨i, l, hl, .inr ⟨t, fd, next, howner, hstage⟩⟩
  · -- the file is closed
    cases hstep
    obtain ⟨howner, -, hgate, hdepth⟩ := owner_of_holding hphase.2
    have hnot : ¬P.Taken := h.not_taken hl howner hgate hdepth (by rw [hstage]; nofun)
    have hleft := hstay (.acquiring i .undoGate next) nofun
    exact .drop FileLocks.record_closeFile (fun ht ↦ hnot (hleft ht))
      (fun _ hq ↦ FileLocks.opened_closeFile hq) fun hin ↦ absurd hin (hout hphase)
  · -- the gate is given back where it was taken
    obtain ⟨-, hcount, -⟩ := hphase
    have howner : l.owner = some t := owner_of_count (by rw [hcount]; exact Nat.one_pos)
    split at hstep
    · cases hstep
      exact .idle (hmoved { l with gateHeld := false } (.inl howner) (.acquiring i .undoLocal next)
        nofun (fun hd ↦ hd) rfl rfl)
    · cases hstep
      exact .idle (hstay _ nofun)
  · -- the thread leaves with an error
    cases hstep
    obtain ⟨howner, hcount, -⟩ := owner_of_holding hphase.2
    exact .idle (hmoved l.leave (.inr (if_pos hcount)) _ AcquireNext.not_publishing
      (fun hd ↦ hd) rfl rfl)
  · cases hstep

theorem threads_endRelease {raised : Bool} {next : ReleaseNext} :
    (P.endRelease t i raised next).threads = Function.update P.threads t (next.stage i raised) := by
  obtain ⟨regions, heq⟩ := endRelease_eq P t i raised next
  rw [heq]
  rfl

theorem locks_endRelease {raised : Bool} {next : ReleaseNext} :
    (P.endRelease t i raised next).locks = P.locks := by
  obtain ⟨regions, heq⟩ := endRelease_eq P t i raised next
  rw [heq]
  rfl

/-- Every step of a `release` leaves the record lock with a process that is taken. -/
theorem releaseStep_file {phase : ReleasePhase} {next : ReleaseNext} (h : P.Sound key)
    (hl : P.locks[i]? = some l) (hstage : P.threads t = .releasing i phase next)
    (hstep : releaseStep f P p t i l next phase outcome = some (f', P')) :
    FileStep p f f' P P' := by
  have hfits := h.fits t i l hl
  rw [hstage] at hfits
  obtain ⟨n, hphase, -⟩ := Stage.fits_releasing.mp hfits
  have hsame : P.locks = P.locks.set i l := (set_of_getElem? hl).symm
  have hstay (stage : Stage) (hpublish : ∀ j fd next, stage ≠ .acquiring j (.publishing fd) next) :
      (P.setStage t stage).Taken → P.Taken :=
    taken_of_setStage hl hsame rfl (fun _ _ hu ↦ hu) hpublish fun hd ↦ hd
  have hended (raised : Bool) : (P.endRelease t i raised next).Taken → P.Taken :=
    taken_of_setStage hl (locks_endRelease.trans hsame) threads_endRelease (fun _ _ hu ↦ hu)
      ReleaseNext.not_publishing fun hd ↦ hd
  -- after the last one is lowered, the thread has the gate and is not in
  have hout (hheld : n = 1 ∧ l.holding t = ⟨1, true, 0⟩) : ¬P.Taken ∧ ¬P.Entered := by
    obtain ⟨howner, -, hgate, hdepth⟩ := owner_of_holding hheld.2
    exact ⟨h.not_taken hl howner hgate hdepth (by rw [hstage]; nofun),
      h.not_entered hl hgate hdepth⟩
  have hmoved (l' : SessionLock) (howner : l.owner = some t) (howner' : l'.owner = some t ∨
      l'.owner = none) (stage : Stage)
      (hpublish : ∀ j fd next, stage ≠ .acquiring j (.publishing fd) next)
      (hdepth : 0 < l'.depth → 0 < l.depth) (hlocks : P'.locks = P.locks.set i l')
      (hthreads : P'.threads = Function.update P.threads t stage) : P'.Taken → P.Taken := by
    refine taken_of_setStage hl hlocks hthreads ?_ hpublish hdepth
    intro u hu heq
    obtain hsome | hnone := howner'
    · rw [hsome] at heq
      exact absurd (Option.some.inj heq).symm hu
    · rw [hnone] at heq
      cases heq
  unfold releaseStep at hstep
  split at hstep
  · split at hstep
    · cases hstep
      exact .idle (hended true)
    · cases hstep
      exact .idle (hstay _ nofun)
  · split at hstep
    · cases hstep
      exact .idle (hstay _ nofun)
    · cases hstep
      exact .idle (hended true)
  · -- `lowering`
    obtain ⟨hpos, hheld⟩ := hphase
    have howner : l.owner = some t := owner_of_count (by rw [hheld]; exact hpos)
    split at hstep
    · cases hstep
      refine .idle (hmoved
        { l with depth := l.depth - 1, descriptor := none, ownerThread := none } howner
        (.inl howner) _ ?_ (fun hd ↦ ?_) rfl rfl)
      · nofun
      · change 0 < l.depth - 1 at hd
        omega
    · cases hstep
      refine .idle (hmoved { l with depth := l.depth - 1 } howner (.inl howner) _ ?_
        (fun hd ↦ ?_) rfl rfl)
      · nofun
      · change 0 < l.depth - 1 at hd
        omega
  · -- the record lock is dropped
    rename_i fd
    cases hstep
    have hleft := hstay (.releasing i (.unflocking fd false) next) nofun
    exact .drop rfl (fun ht ↦ (hout hphase).1 (hleft ht)) (fun _ _ ↦ rfl) fun _ ↦ rfl
  · cases hstep
    exact .idle (hstay _ nofun)
  · -- `flock` is given back
    cases hstep
    exact .same (hstay _ nofun) rfl (fun _ _ ↦ rfl) fun _ ↦ rfl
  · cases hstep
    exact .idle (hstay _ nofun)
  · -- the file is closed
    rename_i fd failed
    cases hstep
    have hleft := hstay (.releasing i (.gate failed) next) nofun
    exact .drop FileLocks.record_closeFile (fun ht ↦ (hout hphase).1 (hleft ht))
      (fun _ hq ↦ FileLocks.opened_closeFile hq) fun hin ↦ absurd hin (hout hphase).2
  · cases hstep
    have hleft := hstay (.releasing i (.gate true) next) nofun
    exact .drop FileLocks.record_closeFile (fun ht ↦ (hout hphase).1 (hleft ht))
      (fun _ hq ↦ FileLocks.opened_closeFile hq) fun hin ↦ absurd hin (hout hphase).2
  · -- the gate is given back
    obtain ⟨howner, -⟩ := owner_of_holding hphase.2
    split at hstep
    · cases hstep
      exact .idle (hmoved { l with gateHeld := false } howner (.inl howner)
        (.releasing i (.leaving _) next) nofun (fun hd ↦ hd) rfl rfl)
    · cases hstep
      exact .idle (hstay _ nofun)
  · -- the thread leaves
    rename_i failed
    cases hstep
    obtain ⟨hpos, -, hheld⟩ := hphase
    have howner : l.owner = some t := owner_of_count (by rw [hheld]; exact hpos)
    refine .idle (hmoved l.leave howner ?_ (next.stage i failed) ReleaseNext.not_publishing
      (fun hd ↦ hd) locks_endRelease threads_endRelease)
    by_cases hlast : l.count = 1
    · exact .inr (if_pos hlast)
    · exact .inl ((if_neg hlast).trans howner)
  · cases hstep

end Records

theorem construct_taken {key : String} {P : Proc} (h : (construct key P).Taken) : P.Taken := by
  obtain ⟨j, l, hl, hin⟩ := h
  obtain ⟨-, rfl⟩ | hj := getElem?_concat_cases hl
  · obtain hdepth | ⟨u, fd, next, howner, -⟩ := hin
    · exact absurd hdepth (Nat.lt_irrefl 0)
    · cases howner
  · exact ⟨j, l, hj, hin⟩

theorem startCall_taken {P P' : Proc} {t : ℕ} {request : Request}
    (hstart : startCall P t request = some P') (h : P'.Taken) : P.Taken := by
  have hstage : ∃ stage : Stage, P'.locks = P.locks ∧
      P'.threads = Function.update P.threads t stage ∧
        ∀ j fd next, stage ≠ .acquiring j (.publishing fd) next := by
    cases request with
    | acquire i =>
      obtain ⟨l, -, hstart⟩ := Option.bind_eq_some_iff.mp hstart
      cases hstart
      exact ⟨.acquiring i .entering (.back (l.holding t)), rfl, rfl, nofun⟩
    | release i =>
      obtain ⟨l, -, hstart⟩ := Option.bind_eq_some_iff.mp hstart
      cases hstart
      exact ⟨.releasing i .checkDepth (.back (l.holding t)), rfl, rfl, nofun⟩
    | suspend i =>
      obtain ⟨l, -, hstart⟩ := Option.bind_eq_some_iff.mp hstart
      split at hstart
      · cases hstart
        exact ⟨.idle _, rfl, rfl, nofun⟩
      · cases hstart
        exact ⟨.releasing i .checkDepth _, rfl, rfl, nofun⟩
    | resume =>
      simp only [startCall] at hstart
      split at hstart
      · cases hstart
      · rename_i i depth regions hregions
        obtain ⟨l, -, hstart⟩ := Option.bind_eq_some_iff.mp hstart
        cases depth with
        | zero =>
          cases hstart
          exact ⟨.idle _, rfl, rfl, nofun⟩
        | succ left =>
          cases hstart
          exact ⟨.acquiring i .entering _, rfl, rfl, nofun⟩
  obtain ⟨stage, hlocks, hthreads, hpublish⟩ := hstage
  obtain ⟨j, l, hl, hin⟩ := h
  rw [hlocks] at hl
  refine ⟨j, l, hl, hin.imp_right ?_⟩
  intro hin
  obtain ⟨u, fd, next, howner, hu⟩ := hin
  rw [hthreads] at hu
  by_cases hut : u = t
  · subst hut
    rw [Function.update_self] at hu
    exact absurd hu (hpublish j fd next)
  · rw [Function.update_of_ne hut] at hu
    exact ⟨u, fd, next, howner, hu⟩

theorem threadStep_sound {key : String} {node : ℕ → ℕ} {f f' : FileLocks} {P P' : Proc}
    {p t : ℕ} {outcome : Outcome} (h : P.Sound key)
    (hstep : threadStep node f P p t outcome = some (f', P')) :
    P'.Sound key ∧ FileStep p f f' P P' := by
  unfold threadStep at hstep
  split at hstep
  · cases hstep
  · rename_i i phase next hstage
    obtain ⟨l, hl, hstep⟩ := Option.bind_eq_some_iff.mp hstep
    exact ⟨acquireStep_sound h hl hstage hstep, acquireStep_file h hl hstage hstep⟩
  · rename_i i phase next hstage
    obtain ⟨l, hl, hstep⟩ := Option.bind_eq_some_iff.mp hstep
    exact ⟨releaseStep_sound h hl hstage hstep, releaseStep_file h hl hstage hstep⟩

structure World.Sound (key : String) (w : World) : Prop where
  procs : ∀ p, (w.procs p).Sound key
  record : ∀ p, (w.procs p).Taken → w.file.record = some p

theorem World.sound_initial {key : String} : World.initial.Sound key where
  procs p := by
    constructor
    · nofun
    · nofun
    · nofun
    · nofun
    · nofun
    · nofun
    · exact fun _ _ ↦ rfl
    · nofun
  record p h := by
    obtain ⟨j, l, hl, -⟩ := h
    cases hl

section Runs

variable {key : String} {node : ℕ → ℕ} {w w' : World} {m : LockMove} {p t : ℕ}

/-- A process has made a step, and the others are as they were. -/
theorem World.Sound.advance {f : FileLocks} {P : Proc} (hs : w.Sound key) (hP : P.Sound key)
    (hfile : FileStep p w.file f (w.procs p) P) :
    World.Sound key { w.setProc p P with file := f } := by
  constructor
  · intro q
    by_cases hq : q = p
    · subst hq
      change (Function.update w.procs q P q).Sound key
      rw [Function.update_self]
      exact hP
    · change (Function.update w.procs p P q).Sound key
      rw [Function.update_of_ne hq]
      exact hs.procs q
  · intro q htaken
    change (Function.update w.procs p P q).Taken at htaken
    by_cases hq : q = p
    · subst hq
      rw [Function.update_self] at htaken
      exact hfile.mine (hs.record q) htaken
    · rw [Function.update_of_ne hq] at htaken
      exact hfile.others q hq (hs.record q htaken)

theorem World.Sound.step (hs : w.Sound key) (hstep : Lock.step node key w m = some w') :
    w'.Sound key := by
  cases m with
  | construct p =>
    cases hstep
    exact hs.advance (construct_sound (hs.procs p)) (.idle construct_taken)
  | constructOther p other =>
    cases hstep
    exact hs.advance ((hs.procs p).register other) (.idle fun h ↦ h)
  | call p t request =>
    simp only [Lock.step] at hstep
    split at hstep
    · rename_i last hidle
      obtain ⟨P, hstart, hw⟩ := Option.bind_eq_some_iff.mp hstep
      cases hw
      exact hs.advance (startCall_sound (hs.procs p) hidle hstart) (.idle (startCall_taken hstart))
    · cases hstep
  | advance p t outcome =>
    obtain ⟨⟨f, P⟩, hthread, hw⟩ := Option.bind_eq_some_iff.mp hstep
    cases hw
    obtain ⟨hP, hfile⟩ := threadStep_sound (hs.procs p) hthread
    exact hs.advance hP hfile

/-- The thread is between an outermost `acquire` that has returned and its `release`. -/
def World.Inside (w : World) (p t : ℕ) : Prop :=
  ∃ (j : ℕ) (l : SessionLock), (w.procs p).locks[j]? = some l ∧ 0 < (l.holding t).depth

theorem owner_of_inside {l : SessionLock} (h : 0 < (l.holding t).depth) :
    l.owner = some t ∧ 0 < l.depth := by
  have howner : l.owner = some t := by
    by_contra hne
    rw [holding_of_other hne] at h
    exact absurd h (Nat.lt_irrefl 0)
  rw [holding_of_owner howner] at h
  exact ⟨howner, h⟩

structure Exclusive (node : ℕ → ℕ) (key : String) (w : World) : Prop where
  one : ∀ p t q u, w.Inside p t → w.Inside q u → q = p ∧ u = t
  /-- While a thread is inside, its process opens and closes no descriptor of the file. -/
  quiet : ∀ p t, w.Inside p t → ∀ m w', step node key w m = some w' →
    w'.file.opened p = w.file.opened p
  /-- The gate is locked only while an instance that a thread owns has it. -/
  gate : ∀ p, key ∈ (w.procs p).gates →
    (w.procs p).locked ((w.procs p).gates.idxOf key) = true →
      ∃ (j : ℕ) (l : SessionLock) (t : ℕ), (w.procs p).locks[j]? = some l ∧ l.gateHeld = true ∧
        l.owner = some t
  /-- An `acquire` that raises leaves what there was. -/
  failed : ∀ p t i before (l : SessionLock),
    (w.procs p).threads t = .idle (some ⟨i, .acquire, true, before⟩) →
      (w.procs p).locks[i]? = some l → l.holding t = before
  /-- The end of `suspended` adds the depth that it took, or leaves nothing. -/
  restored : ∀ p t i depth raised before (l : SessionLock),
    (w.procs p).threads t = .idle (some ⟨i, .restore depth, raised, before⟩) →
      (w.procs p).locks[i]? = some l →
        if raised then l.holding t = ⟨0, false, 0⟩
        else l.holding t = .deep (before.depth + depth)

/-- A step of another process leaves the descriptors of this one. -/
theorem World.Sound.quiet (hs : w.Sound key) (hentered : (w.procs p).Entered)
    (hstep : Lock.step node key w m = some w') : w'.file.opened p = w.file.opened p := by
  cases m with
  | construct q =>
    cases hstep
    rfl
  | constructOther q other =>
    cases hstep
    rfl
  | call q u request =>
    simp only [Lock.step] at hstep
    split at hstep
    · obtain ⟨P, -, hw⟩ := Option.bind_eq_some_iff.mp hstep
      cases hw
      rfl
    · cases hstep
  | advance q u outcome =>
    obtain ⟨⟨f, P⟩, hthread, hw⟩ := Option.bind_eq_some_iff.mp hstep
    cases hw
    obtain ⟨-, hfile⟩ := threadStep_sound (hs.procs q) hthread
    by_cases hqp : p = q
    · subst hqp
      exact hfile.quiet hentered
    · exact hfile.opened p hqp

theorem World.Sound.exclusive (hs : w.Sound key) : Exclusive node key w where
  one p t q u hp hq := by
    obtain ⟨j, l, hl, hin⟩ := hp
    obtain ⟨k, l', hl', hin'⟩ := hq
    obtain ⟨howner, hdepth⟩ := owner_of_inside hin
    obtain ⟨howner', hdepth'⟩ := owner_of_inside hin'
    have hrecord := hs.record p ⟨j, l, hl, .inl hdepth⟩
    rw [hs.record q ⟨k, l', hl', .inl hdepth'⟩] at hrecord
    cases hrecord
    have hP := hs.procs p
    have hkj := hP.one j k l l' hl hl' (hP.gate_of_entered hl hdepth)
      (hP.gate_of_entered hl' hdepth')
    subst hkj
    cases hl.symm.trans hl'
    exact ⟨rfl, Option.some.inj (howner'.symm.trans howner)⟩
  quiet p t hin m w' hstep := by
    obtain ⟨j, l, hl, hin⟩ := hin
    exact hs.quiet ⟨j, l, hl, (owner_of_inside hin).2⟩ hstep
  gate p hkey hlocked := by
    obtain ⟨j, l, hl, hheld⟩ := (hs.procs p).held hkey hlocked
    cases howner : l.owner with
    | none =>
      have hfree := (((hs.procs p).sound j l hl).unowned howner).2.2
      rw [hheld] at hfree
      cases hfree
    | some t => exact ⟨j, l, t, hl, hheld, howner⟩
  failed p t i before l hidle hl := by
    have hfits := (hs.procs p).fits t i l hl
    rw [hidle] at hfits
    obtain ⟨n, hn, hreport⟩ := hfits
    rw [hn]
    exact (hreport _ rfl rfl).symm
  restored p t i depth raised before l hidle hl := by
    have hfits := (hs.procs p).fits t i l hl
    rw [hidle] at hfits
    obtain ⟨n, hn, hreport⟩ := hfits
    have hr := hreport _ rfl rfl
    cases raised with
    | true =>
      have hzero : n = 0 := hr
      rw [hn, hzero]
      rfl
    | false =>
      obtain ⟨b, hbefore, hsum⟩ := hr
      change l.holding t = _
      rw [hn, hsum]
      change before = _ at hbefore
      rw [hbefore]
      rfl

end Runs

/-- However the steps of threads and processes interleave and whichever of them fail, at most one
thread is inside, and no call leaves less or more than it should. -/
theorem automation_exclusive {node : ℕ → ℕ} {key : String} {w : World}
    (h : Reached (step node key) (fun _ _ ↦ True) World.initial w) : Exclusive node key w := by
  have hs : w.Sound key := h.keeps World.sound_initial fun _ _ _ hv _ hstep ↦ hv.step hstep
  exact hs.exclusive

/-- Two processes of one node, of which the first gets in and the second is refused. -/
theorem automation_exclusive_two : ∃ w : World, w.Inside 0 1 ∧
    ∀ q u, w.Inside q u → q = 0 ∧ u = 1 := by
  have hrun : (afterMoves (fun w m ↦ if (fun _ _ ↦ true) w m then
        step (fun _ ↦ 0) "/gpfs/lock" w m else none) World.initial
      ([.construct 0, .construct 3, .call 0 1 (.acquire 0), .call 3 1 (.acquire 0)] ++
        ([.ok, .ok, .ok, .got 5, .ok, .ok, .ok, .ok] : List Outcome).map (.advance 0 1) ++
          ([.ok, .ok, .ok, .got 5, .ok, .refused] : List Outcome).map (.advance 3 1))).any
      (fun w ↦ (w.procs 0).locks[0]?.any fun l ↦ decide (0 < (l.holding 1).depth)) = true := by
    decide
  obtain ⟨w, h, hin⟩ := exists_reached hrun
  obtain ⟨l, hl, hdepth⟩ := (Option.any_eq_true _ _).mp hin
  have hinside : w.Inside 0 1 := ⟨0, l, hl, by simpa using hdepth⟩
  have hexclusive := automation_exclusive (h.mono fun _ _ _ ↦ trivial)
  exact ⟨w, hinside, fun q u hq ↦ hexclusive.one 0 1 q u hinside hq⟩

end SlurmScheduler.Lock
