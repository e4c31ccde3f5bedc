import SlurmScheduler.Lock.SessionLock

namespace SlurmScheduler.Lock

open Concurrent

def Holding.deep (n : ℕ) : Holding := ⟨n, decide (0 < n), n⟩

theorem Holding.deep_inj {n m : ℕ} (h : Holding.deep n = Holding.deep m) : n = m :=
  congrArg Holding.depth h

/-- What a thread has in a phase of an `acquire` that has begun at depth `n` -/
def AcquirePhase.Fits (n : ℕ) (h : Holding) : AcquirePhase → Prop
  | .entering => h = .deep n
  | .depth => h = ⟨n + 1, decide (0 < n), n⟩
  | .gate | .undoLocal => n = 0 ∧ h = ⟨1, false, 0⟩
  | .undoGate => n = 0 ∧ h.count = 1 ∧ h.depth = 0
  | _ => n = 0 ∧ h = ⟨1, true, 0⟩

def ReleasePhase.Fits (n : ℕ) (h : Holding) : ReleasePhase → Prop
  | .checkDepth | .checkOwner => h = .deep n
  | .lowering => 0 < n ∧ h = .deep n
  | .leaving failed => 0 < n ∧ (failed = true → n = 1) ∧ h = ⟨n, decide (1 < n), n - 1⟩
  | _ => n = 1 ∧ h = ⟨1, true, 0⟩

def AcquireNext.Fits (n : ℕ) : AcquireNext → Prop
  | .back before => before = .deep n
  | .restore left depth before =>
      ∃ b, before = .deep b ∧ left < depth ∧ n + left + 1 = b + depth

def ReleaseNext.Fits (n : ℕ) : ReleaseNext → Prop
  | .back before => before = .deep n
  | .suspend left depth before => before = .deep depth ∧ n = left + 1

def Report.Fits (n : ℕ) (r : Report) : Prop :=
  match r.call, r.raised with
  | .acquire, true => r.before = .deep n
  | .acquire, false => ∃ b, r.before = .deep b ∧ n = b + 1
  | .release, true => r.before = .deep n ∨ n = 0
  | .release, false => r.before = .deep (n + 1)
  | .suspend, true => r.before = .deep n ∨ n = 0
  | .suspend, false => n = 0
  | .restore _, true => n = 0
  | .restore depth, false => ∃ b, r.before = .deep b ∧ n = b + depth

def Stage.Fits (j : ℕ) (h : Holding) : Stage → Prop
  | .idle last => ∃ n, h = .deep n ∧ ∀ r, last = some r → r.lock = j → r.Fits n
  | .acquiring i phase next =>
      if i = j then ∃ n, phase.Fits n h ∧ next.Fits n else ∃ n, h = .deep n
  | .releasing i phase next =>
      if i = j then ∃ n, phase.Fits n h ∧ next.Fits n else ∃ n, h = .deep n

section Stages

variable {i j n : ℕ} {h : Holding} {stage : Stage}

theorem Stage.fits_idle {last : Option Report} (hfits : (Stage.idle last).Fits j h) :
    ∃ n, h = .deep n := by
  obtain ⟨n, hn, -⟩ := hfits
  exact ⟨n, hn⟩

@[simp] theorem Stage.fits_acquiring {phase : AcquirePhase} {next : AcquireNext} :
    (Stage.acquiring i phase next).Fits i h ↔ ∃ n, phase.Fits n h ∧ next.Fits n := by
  simp only [Stage.Fits, if_true]

@[simp] theorem Stage.fits_releasing {phase : ReleasePhase} {next : ReleaseNext} :
    (Stage.releasing i phase next).Fits i h ↔ ∃ n, phase.Fits n h ∧ next.Fits n := by
  simp only [Stage.Fits, if_true]

theorem Stage.fits_acquiring_ne {phase : AcquirePhase} {next : AcquireNext} (hij : i ≠ j) :
    (Stage.acquiring i phase next).Fits j h ↔ ∃ n, h = .deep n := by
  simp only [Stage.Fits, if_neg hij]

theorem Stage.fits_releasing_ne {phase : ReleasePhase} {next : ReleaseNext} (hij : i ≠ j) :
    (Stage.releasing i phase next).Fits j h ↔ ∃ n, h = .deep n := by
  simp only [Stage.Fits, if_neg hij]

/-- A stage in which the thread is busy with instance `i`, or has just been -/
def Stage.At (i : ℕ) : Stage → Prop
  | .idle last => ∀ r, last = some r → r.lock = i
  | .acquiring k _ _ => k = i
  | .releasing k _ _ => k = i

theorem Stage.fits_away (hat : stage.At i) (hji : j ≠ i) : stage.Fits j h ↔ ∃ n, h = .deep n := by
  cases stage with
  | idle last =>
    constructor
    · intro hfits
      exact Stage.fits_idle hfits
    · intro hrest
      obtain ⟨n, hn⟩ := hrest
      exact ⟨n, hn, fun r hr hj ↦ absurd (hj.symm.trans (hat r hr)) hji⟩
  | acquiring k phase next =>
    cases hat
    exact Stage.fits_acquiring_ne (Ne.symm hji)
  | releasing k phase next =>
    cases hat
    exact Stage.fits_releasing_ne (Ne.symm hji)

def Stage.Rests (i : ℕ) (stage : Stage) : Prop :=
  ∀ j h, j ≠ i → stage.Fits j h → ∃ n, h = .deep n

theorem Stage.rests_of_at (hat : stage.At i) : stage.Rests i :=
  fun _ _ hji hfits ↦ (Stage.fits_away hat hji).mp hfits

theorem Stage.rests_idle {last : Option Report} : (Stage.idle last).Rests i :=
  fun _ _ _ hfits ↦ Stage.fits_idle hfits

theorem AcquireNext.stage_at {next : AcquireNext} {raised : Bool} : (next.stage i raised).At i := by
  have hidle : ∀ call before, (Stage.idle (some ⟨i, call, raised, before⟩)).At i := by
    intro call before r hr
    cases hr
    rfl
  cases next with
  | back before => exact hidle _ _
  | restore left depth before =>
    change Stage.At i (if _ then _ else _)
    split
    · exact hidle _ _
    · rfl

theorem ReleaseNext.stage_at {next : ReleaseNext} {raised : Bool} : (next.stage i raised).At i := by
  have hidle : ∀ call before, (Stage.idle (some ⟨i, call, raised, before⟩)).At i := by
    intro call before r hr
    cases hr
    rfl
  cases next with
  | back before => exact hidle _ _
  | suspend left depth before =>
    change Stage.At i (if _ then _ else _)
    split
    · exact hidle _ _
    · rfl

theorem AcquireNext.fits_returned {next : AcquireNext} (hnext : next.Fits n) :
    (next.stage i false).Fits i (.deep (n + 1)) := by
  cases next with
  | back before =>
    refine ⟨n + 1, rfl, fun r hr _ ↦ ?_⟩
    cases hr
    exact ⟨n, hnext, rfl⟩
  | restore left depth before =>
    obtain ⟨b, hbefore, hleft, hcount⟩ := hnext
    by_cases hdone : left = 0
    · have hstage : (AcquireNext.restore left depth before).stage i false =
          .idle (some ⟨i, .restore depth, false, before⟩) := if_pos (.inr hdone)
      rw [hstage]
      refine ⟨n + 1, rfl, fun r hr _ ↦ ?_⟩
      cases hr
      refine ⟨b, hbefore, ?_⟩
      omega
    · have hstage : (AcquireNext.restore left depth before).stage i false =
          .acquiring i .entering (.restore (left - 1) depth before) :=
        if_neg fun h ↦ hdone (h.resolve_left Bool.false_ne_true)
      rw [hstage]
      refine Stage.fits_acquiring.mpr ⟨n + 1, rfl, b, hbefore, ?_⟩
      omega

/-- An `acquire` raises only where the thread had nothing, and leaves nothing. -/
theorem AcquireNext.fits_raised {next : AcquireNext} (hnext : next.Fits 0) :
    (next.stage i true).Fits i (.deep 0) := by
  cases next with
  | back before =>
    refine ⟨0, rfl, fun r hr _ ↦ ?_⟩
    cases hr
    exact hnext
  | restore left depth before =>
    refine ⟨0, rfl, fun r hr _ ↦ ?_⟩
    cases hr
    exact rfl

theorem ReleaseNext.fits_returned {next : ReleaseNext} (hnext : next.Fits (n + 1)) :
    (next.stage i false).Fits i (.deep n) := by
  cases next with
  | back before =>
    refine ⟨n, rfl, fun r hr _ ↦ ?_⟩
    cases hr
    exact hnext
  | suspend left depth before =>
    obtain ⟨hbefore, hleft⟩ := hnext
    by_cases hdone : left = 0
    · have hstage : (ReleaseNext.suspend left depth before).stage i false =
          .idle (some ⟨i, .suspend, false, before⟩) := if_pos (.inr hdone)
      rw [hstage]
      refine ⟨n, rfl, fun r hr _ ↦ ?_⟩
      cases hr
      exact (Nat.succ.inj hleft).trans hdone
    · have hstage : (ReleaseNext.suspend left depth before).stage i false =
          .releasing i .checkDepth (.suspend (left - 1) depth before) :=
        if_neg fun h ↦ hdone (h.resolve_left Bool.false_ne_true)
      rw [hstage]
      refine Stage.fits_releasing.mpr ⟨n, rfl, hbefore, ?_⟩
      omega

/-- A `release` that raises leaves what there was, or nothing. -/
theorem ReleaseNext.fits_raised {next : ReleaseNext} :
    (next.stage i true).Fits i (.deep 0) := by
  cases next with
  | back before =>
    refine ⟨0, rfl, fun r hr _ ↦ ?_⟩
    cases hr
    exact .inr rfl
  | suspend left depth before =>
    refine ⟨0, rfl, fun r hr _ ↦ ?_⟩
    cases hr
    exact .inr rfl

theorem AcquirePhase.gate_of_depth {phase : AcquirePhase} (hfits : phase.Fits n h)
    (hdepth : 0 < h.depth) : h.gate = true := by
  unfold AcquirePhase.Fits at hfits
  split at hfits
  · rw [hfits] at hdepth ⊢
    exact decide_eq_true hdepth
  · rw [hfits] at hdepth ⊢
    exact decide_eq_true hdepth
  · rw [hfits.2] at hdepth
    exact absurd hdepth (Nat.lt_irrefl 0)
  · rw [hfits.2] at hdepth
    exact absurd hdepth (Nat.lt_irrefl 0)
  · rw [hfits.2.2] at hdepth
    exact absurd hdepth (Nat.lt_irrefl 0)
  · rw [hfits.2]

theorem ReleasePhase.gate_of_depth {phase : ReleasePhase} (hfits : phase.Fits n h)
    (hdepth : 0 < h.depth) : h.gate = true := by
  unfold ReleasePhase.Fits at hfits
  split at hfits
  · rw [hfits] at hdepth ⊢
    exact decide_eq_true hdepth
  · rw [hfits] at hdepth ⊢
    exact decide_eq_true hdepth
  · rw [hfits.2] at hdepth ⊢
    exact decide_eq_true hdepth
  · rw [hfits.2.2] at hdepth ⊢
    change 0 < n - 1 at hdepth
    exact decide_eq_true (by omega)
  · rw [hfits.2]

theorem Stage.gate_of_depth (hfits : stage.Fits j h) (hdepth : 0 < h.depth) : h.gate = true := by
  have hrest : ∀ n, h = .deep n → h.gate = true := by
    intro n hn
    rw [hn] at hdepth ⊢
    exact decide_eq_true hdepth
  cases stage with
  | idle last =>
    obtain ⟨n, hn⟩ := Stage.fits_idle hfits
    exact hrest n hn
  | acquiring i phase next =>
    by_cases hij : i = j
    · subst hij
      obtain ⟨n, hphase, -⟩ := Stage.fits_acquiring.mp hfits
      exact AcquirePhase.gate_of_depth hphase hdepth
    · obtain ⟨n, hn⟩ := (Stage.fits_acquiring_ne hij).mp hfits
      exact hrest n hn
  | releasing i phase next =>
    by_cases hij : i = j
    · subst hij
      obtain ⟨n, hphase, -⟩ := Stage.fits_releasing.mp hfits
      exact ReleasePhase.gate_of_depth hphase hdepth
    · obtain ⟨n, hn⟩ := (Stage.fits_releasing_ne hij).mp hfits
      exact hrest n hn

end Stages

section Instances

variable {l l' : SessionLock} {t u : ℕ}

theorem holding_of_owner (h : l.owner = some t) : l.holding t = ⟨l.count, l.gateHeld, l.depth⟩ :=
  if_pos h

theorem holding_of_other (h : l.owner ≠ some t) : l.holding t = ⟨0, false, 0⟩ := if_neg h

theorem owner_of_count (h : 0 < (l.holding t).count) : l.owner = some t := by
  by_contra hne
  rw [holding_of_other hne] at h
  exact absurd h (Nat.lt_irrefl 0)

theorem owner_of_holding {c : ℕ} {g : Bool} {d : ℕ} (h : l.holding t = ⟨c + 1, g, d⟩) :
    l.owner = some t ∧ l.count = c + 1 ∧ l.gateHeld = g ∧ l.depth = d := by
  have howner : l.owner = some t := owner_of_count (by rw [h]; exact Nat.succ_pos c)
  rw [holding_of_owner howner] at h
  exact ⟨howner, congrArg Holding.count h, congrArg Holding.gate h, congrArg Holding.depth h⟩

structure SessionLock.Sound (l : SessionLock) : Prop where
  unowned : l.owner = none → l.count = 0 ∧ l.depth = 0 ∧ l.gateHeld = false
  owned : l.owner ≠ none → 0 < l.count
  ownerThread : l.ownerThread = if l.depth = 0 then none else l.owner

/-- Another thread has nothing of an instance that one thread owns, or none. -/
theorem holding_others (h : l.owner = none ∨ l.owner = some t) (hne : u ≠ t) :
    l.holding u = ⟨0, false, 0⟩ := by
  apply holding_of_other
  intro hu
  rcases h with hnone | hsome
  · rw [hnone] at hu
    cases hu
  · rw [hsome] at hu
    exact hne (Option.some.inj hu).symm

end Instances

def Stage.Below (n : ℕ) : Stage → Prop
  | .idle last => ∀ r, last = some r → r.lock < n
  | .acquiring i _ _ => i < n
  | .releasing i _ _ => i < n

theorem Stage.below_of_at {i n : ℕ} {stage : Stage} (hat : stage.At i) (hlt : i < n) :
    stage.Below n := by
  cases stage with
  | idle last =>
    intro r hr
    rw [hat r hr]
    exact hlt
  | acquiring k phase next =>
    cases hat
    exact hlt
  | releasing k phase next =>
    cases hat
    exact hlt

structure Proc.Sound (key : String) (P : Proc) : Prop where
  keyed : ∀ (j : ℕ) (l : SessionLock), P.locks[j]? = some l →
    key ∈ P.gates ∧ l.gate = P.gates.idxOf key
  sound : ∀ (j : ℕ) (l : SessionLock), P.locks[j]? = some l → l.Sound
  fits : ∀ (t j : ℕ) (l : SessionLock), P.locks[j]? = some l → (P.threads t).Fits j (l.holding t)
  gate : ∀ (j : ℕ) (l : SessionLock), P.locks[j]? = some l → l.gateHeld = true →
    P.locked (P.gates.idxOf key) = true
  one : ∀ (i j : ℕ) (l l' : SessionLock), P.locks[i]? = some l → P.locks[j]? = some l' →
    l.gateHeld = true → l'.gateHeld = true → i = j
  held : key ∈ P.gates → P.locked (P.gates.idxOf key) = true →
    ∃ (j : ℕ) (l : SessionLock), P.locks[j]? = some l ∧ l.gateHeld = true
  fresh : ∀ g, P.gates.length ≤ g → P.locked g = false
  below : ∀ t, (P.threads t).Below P.locks.length

inductive GateMove (locked locked' : ℕ → Bool) (l l' : SessionLock) : Prop
  | same (hheld : l'.gateHeld = l.gateHeld) (hlocked : locked' = locked)
  | take (hfree : locked l.gate = false) (hheld : l'.gateHeld = true)
      (hlocked : locked' = Function.update locked l.gate true)
  | give (hheld : l.gateHeld = true) (hheld' : l'.gateHeld = false)
      (hlocked : locked' = Function.update locked l.gate false)

section Update

variable {key : String} {P P' : Proc} {t i : ℕ} {l l' : SessionLock}

theorem Proc.Sound.gate_eq (h : P.Sound key) (hl : P.locks[i]? = some l) :
    l.gate = P.gates.idxOf key := (h.keyed i l hl).2

/-- A thread steps on one instance: the others keep what they have. -/
theorem Proc.Sound.update (h : P.Sound key) (hl : P.locks[i]? = some l) (hsound : l'.Sound)
    (hgates : P'.gates = P.gates) (hlocks : P'.locks = P.locks.set i l')
    (hthreads : ∀ u, u ≠ t → P'.threads u = P.threads u) (hgate : l'.gate = l.gate)
    (hothers : ∀ u, u ≠ t → l'.holding u = l.holding u)
    (hrests : (P.threads t).Rests i) (hat : (P'.threads t).At i)
    (hfits : (P'.threads t).Fits i (l'.holding t))
    (hmove : GateMove P.locked P'.locked l l') : P'.Sound key := by
  have hg := h.gate_eq hl
  have hkey := (h.keyed i l hl).1
  constructor
  · intro j m hm
    rw [hgates]
    rcases getElem?_set_cases (hlocks ▸ hm) with ⟨-, rfl⟩ | ⟨-, hj⟩
    · exact ⟨hkey, hgate.trans hg⟩
    · exact h.keyed j m hj
  · intro j m hm
    rcases getElem?_set_cases (hlocks ▸ hm) with ⟨-, rfl⟩ | ⟨-, hj⟩
    · exact hsound
    · exact h.sound j m hj
  · intro u j m hm
    by_cases hu : u = t
    · subst hu
      rcases getElem?_set_cases (hlocks ▸ hm) with ⟨rfl, rfl⟩ | ⟨hji, hj⟩
      · exact hfits
      · exact (Stage.fits_away hat hji).mpr (hrests j _ hji (h.fits u j m hj))
    · rw [hthreads u hu]
      rcases getElem?_set_cases (hlocks ▸ hm) with ⟨rfl, rfl⟩ | ⟨-, hj⟩
      · rw [hothers u hu]
        exact h.fits u j l hl
      · exact h.fits u j m hj
  · intro j m hm hheld
    rw [hgates]
    cases hmove with
    | same hsame hlocked =>
      rw [hlocked]
      rcases getElem?_set_cases (hlocks ▸ hm) with ⟨-, rfl⟩ | ⟨-, hj⟩
      · exact h.gate i l hl (hsame ▸ hheld)
      · exact h.gate j m hj hheld
    | take hfree htaken hlocked => rw [hlocked, hg, Function.update_self]
    | give hgiven hfree hlocked =>
      rcases getElem?_set_cases (hlocks ▸ hm) with ⟨-, rfl⟩ | ⟨hji, hj⟩
      · rw [hfree] at hheld
        cases hheld
      · exact absurd (h.one j i m l hj hl hheld hgiven) hji
  · intro j k m m' hm hm' hheld hheld'
    rcases getElem?_set_cases (hlocks ▸ hm) with ⟨hji, hmj⟩ | ⟨hji, hj⟩
    · rcases getElem?_set_cases (hlocks ▸ hm') with ⟨hki, -⟩ | ⟨hki, hk⟩
      · exact hji.trans hki.symm
      · subst hmj
        cases hmove with
        | same hsame hlocked => exact hji.trans (h.one i k l m' hl hk (hsame ▸ hheld) hheld')
        | take hfree htaken hlocked =>
          rw [hg, h.gate k m' hk hheld'] at hfree
          cases hfree
        | give hgiven hfree hlocked =>
          rw [hfree] at hheld
          cases hheld
    · rcases getElem?_set_cases (hlocks ▸ hm') with ⟨hki, hmk⟩ | ⟨hki, hk⟩
      · subst hmk
        cases hmove with
        | same hsame hlocked => exact (h.one j i m l hj hl hheld (hsame ▸ hheld')).trans hki.symm
        | take hfree htaken hlocked =>
          rw [hg, h.gate j m hj hheld] at hfree
          cases hfree
        | give hgiven hfree hlocked =>
          rw [hfree] at hheld'
          cases hheld'
      · exact h.one j k m m' hj hk hheld hheld'
  · intro _ hlocked'
    rw [hgates] at hlocked'
    obtain ⟨hlt, -⟩ := List.getElem?_eq_some_iff.mp hl
    have hnew : P'.locks[i]? = some l' := by
      rw [hlocks, List.getElem?_set_self hlt]
    cases hmove with
    | same hsame hlocked =>
      obtain ⟨j, m, hm, hheld⟩ := h.held hkey (hlocked ▸ hlocked')
      by_cases hji : j = i
      · subst hji
        rw [hl] at hm
        cases hm
        exact ⟨j, l', hnew, hsame.trans hheld⟩
      · exact ⟨j, m, by rw [hlocks, List.getElem?_set_ne (Ne.symm hji), hm], hheld⟩
    | take hfree htaken hlocked => exact ⟨i, l', hnew, htaken⟩
    | give hgiven hfree hlocked =>
      rw [hlocked, hg, Function.update_self] at hlocked'
      cases hlocked'
  · intro g hle
    rw [hgates] at hle
    have hne : g ≠ l.gate := by
      rw [hg]
      exact Nat.ne_of_gt (Nat.lt_of_lt_of_le (List.idxOf_lt_length_iff.mpr hkey) hle)
    cases hmove with
    | same hsame hlocked => exact hlocked ▸ h.fresh g hle
    | take hfree htaken hlocked => rw [hlocked, Function.update_of_ne hne, h.fresh g hle]
    | give hgiven hfree hlocked => rw [hlocked, Function.update_of_ne hne, h.fresh g hle]
  · intro u
    rw [hlocks, List.length_set]
    by_cases hu : u = t
    · subst hu
      obtain ⟨hlt, -⟩ := List.getElem?_eq_some_iff.mp hl
      exact Stage.below_of_at hat hlt
    · rw [hthreads u hu]
      exact h.below u

theorem Proc.Sound.stay {stage : Stage} (h : P.Sound key) (hl : P.locks[i]? = some l)
    (hrests : (P.threads t).Rests i) (hat : stage.At i) (hfits : stage.Fits i (l.holding t)) :
    (P.setStage t stage).Sound key := by
  obtain ⟨hlt, hget⟩ := List.getElem?_eq_some_iff.mp hl
  have hset : (P.setStage t stage).locks = P.locks.set i l := by
    rw [← hget, List.set_getElem_self]
    rfl
  have hstage : (P.setStage t stage).threads t = stage := Function.update_self ..
  exact h.update hl (h.sound i l hl) rfl hset (fun u hu ↦ Function.update_of_ne hu _ _) rfl
    (fun _ _ ↦ rfl) hrests (hstage.symm ▸ hat) (hstage.symm ▸ hfits) (.same rfl rfl)

/-- The thread changes the instance that it has entered, or enters it. -/
theorem Proc.Sound.change {stage : Stage} {locked : ℕ → Bool} (h : P.Sound key)
    (hl : P.locks[i]? = some l) (hrests : (P.threads t).Rests i) (hat : stage.At i)
    (hsound : l'.Sound) (hgate : l'.gate = l.gate)
    (howner : l.owner = none ∨ l.owner = some t) (howner' : l'.owner = none ∨ l'.owner = some t)
    (hfits : stage.Fits i (l'.holding t)) (hmove : GateMove P.locked locked l l') :
    Proc.Sound key { (P.setLock i l').setStage t stage with locked := locked } := by
  have hstage : Function.update P.threads t stage t = stage := Function.update_self ..
  refine h.update (t := t) hl hsound rfl rfl (fun u hu ↦ Function.update_of_ne hu _ _) hgate
    (fun u hu ↦ ?_) hrests ?_ ?_ hmove
  · rw [holding_others howner hu, holding_others howner' hu]
  · change (Function.update P.threads t stage t).At i
    rw [hstage]
    exact hat
  · change (Function.update P.threads t stage t).Fits i _
    rw [hstage]
    exact hfits

end Update

section Calls

variable {key : String} {node : ℕ → ℕ} {f f' : FileLocks} {P P' : Proc} {p t i n : ℕ}
  {l : SessionLock} {outcome : Outcome}

theorem SessionLock.Sound.enter (h : l.Sound) (howner : l.owner = none ∨ l.owner = some t) :
    (l.enter t).Sound where
  unowned hnone := by cases hnone
  owned _ := Nat.succ_pos l.count
  ownerThread := by
    change l.ownerThread = if l.depth = 0 then none else some t
    rw [h.ownerThread]
    rcases howner with hnone | hsome
    · rw [if_pos (h.unowned hnone).2.1, if_pos (h.unowned hnone).2.1]
    · rw [hsome]

theorem SessionLock.Sound.of_owner (h : l.Sound) (howner : l.owner = some t) {l' : SessionLock}
    (howner' : l'.owner = l.owner) (hcount : l'.count = l.count)
    (hthread : l'.ownerThread = if l'.depth = 0 then none else some t) : l'.Sound where
  unowned hnone := by
    rw [howner', howner] at hnone
    cases hnone
  owned _ := by
    rw [hcount]
    exact h.owned (by rw [howner]; exact Option.some_ne_none t)
  ownerThread := by rw [hthread, howner', howner]

/-- The last `leave` needs the depth and the gate to be given back. -/
theorem SessionLock.Sound.leave (h : l.Sound)
    (hrest : l.count = 1 → l.depth = 0 ∧ l.gateHeld = false) : l.leave.Sound := by
  by_cases hlast : l.count = 1
  · obtain ⟨hdepth, hgate⟩ := hrest hlast
    constructor
    · intro _
      refine ⟨?_, hdepth, hgate⟩
      change l.count - 1 = 0
      omega
    · intro howner
      exact absurd (if_pos hlast) howner
    · change l.ownerThread = if l.depth = 0 then none else _
      rw [h.ownerThread, if_pos hdepth, if_pos hdepth]
  · have howner : l.leave.owner = l.owner := if_neg hlast
    constructor
    · intro hnone
      have hcount := (h.unowned (howner ▸ hnone)).1
      refine ⟨?_, (h.unowned (howner ▸ hnone)).2⟩
      change l.count - 1 = 0
      omega
    · intro hsome
      have hcount := h.owned (howner ▸ hsome)
      change 0 < l.count - 1
      omega
    · rw [howner]
      exact h.ownerThread

theorem holding_leave (howner : l.owner = some t) (hgate : l.count = 1 → l.gateHeld = false)
    (hdepth : l.count = 1 → l.depth = 0) :
    l.leave.holding t = ⟨l.count - 1, l.gateHeld, l.depth⟩ := by
  by_cases hlast : l.count = 1
  · have hnone : l.leave.owner ≠ some t := by
      have hleft : l.leave.owner = none := if_pos hlast
      rw [hleft]
      exact Option.some_ne_none t |>.symm
    rw [holding_of_other hnone, hgate hlast, hdepth hlast, hlast]
  · have hleft : l.leave.owner = some t := (if_neg hlast).trans howner
    rw [holding_of_owner hleft]
    rfl

theorem fields_of_deep (hsound : l.Sound) (howner : l.owner = none ∨ l.owner = some t)
    (h : l.holding t = .deep n) : l.count = n ∧ l.gateHeld = decide (0 < n) ∧ l.depth = n := by
  rcases howner with hnone | hsome
  · obtain ⟨hcount, hdepth, hgate⟩ := hsound.unowned hnone
    have hne : l.owner ≠ some t := by
      rw [hnone]
      exact (Option.some_ne_none t).symm
    rw [holding_of_other hne] at h
    have hzero : n = 0 := (Holding.deep_inj (n := 0) h).symm
    rw [hzero]
    exact ⟨hcount, hgate, hdepth⟩
  · rw [holding_of_owner hsome] at h
    exact ⟨congrArg Holding.count h, congrArg Holding.gate h, congrArg Holding.depth h⟩

theorem acquireStep_sound {phase : AcquirePhase} {next : AcquireNext} (h : P.Sound key)
    (hl : P.locks[i]? = some l) (hstage : P.threads t = .acquiring i phase next)
    (hstep : acquireStep node f P p t i l next phase outcome = some (f', P')) : P'.Sound key := by
  have hat : (P.threads t).Rests i := by
    rw [hstage]
    exact Stage.rests_of_at rfl
  have hfits := h.fits t i l hl
  rw [hstage] at hfits
  obtain ⟨n, hphase, hnext⟩ := Stage.fits_acquiring.mp hfits
  have hsound := h.sound i l hl
  -- a step that only moves the thread to a phase with the same holding
  have hstay : ∀ phase' : AcquirePhase, phase'.Fits n (l.holding t) →
      (P.setStage t (.acquiring i phase' next)).Sound key := by
    intro phase' hphase'
    exact h.stay hl hat rfl (Stage.fits_acquiring.mpr ⟨n, hphase', hnext⟩)
  have hundo : n = 0 ∧ l.holding t = ⟨1, true, 0⟩ →
      (P.setStage t (.acquiring i .undoGate next)).Sound key := by
    intro hheld
    apply hstay
    rw [hheld.2]
    exact ⟨hheld.1, rfl, rfl⟩
  unfold acquireStep at hstep
  split at hstep
  · -- `entering` is granted
    split at hstep
    · rename_i howner
      cases hstep
      refine h.change hl hat rfl (hsound.enter howner) rfl howner (.inr rfl)
        (Stage.fits_acquiring.mpr ⟨n, ?_, hnext⟩) (.same rfl rfl)
      obtain ⟨hcount, hgate, hdepth⟩ := fields_of_deep hsound howner hphase
      rw [holding_of_owner (show (l.enter t).owner = some t from rfl)]
      change (⟨l.count + 1, l.gateHeld, l.depth⟩ : Holding) = _
      rw [hcount, hgate, hdepth]
    · cases hstep
  · -- `entering` times out
    split at hstep
    · cases hstep
    · rename_i howner
      cases hstep
      have hdeep : l.holding t = .deep n := hphase
      have hzero : n = 0 := by
        rw [holding_of_other howner] at hdeep
        exact (Holding.deep_inj (n := 0) hdeep).symm
      subst hzero
      exact h.stay hl hat AcquireNext.stage_at (hdeep ▸ AcquireNext.fits_raised hnext)
  · -- `depth`
    obtain ⟨howner, hcount, hgate, hdepth⟩ := owner_of_holding hphase
    split at hstep
    · rename_i hnested
      cases hstep
      refine h.change hl hat AcquireNext.stage_at (hsound.of_owner howner rfl rfl ?_) rfl
        (.inr howner) (.inr howner) ?_ (.same rfl rfl)
      · change l.ownerThread = if l.depth + 1 = 0 then none else some t
        rw [hsound.ownerThread, if_neg hnested, if_neg (Nat.succ_ne_zero _), howner]
      · rw [holding_of_owner (by exact howner)]
        change (next.stage i false).Fits i ⟨l.count, l.gateHeld, l.depth + 1⟩
        have hpos : 0 < n := by omega
        rw [hcount, hgate, hdepth, decide_eq_true hpos]
        exact AcquireNext.fits_returned hnext
    · rename_i hfirst
      cases hstep
      apply hstay
      have hzero : n = 0 := by omega
      subst hzero
      exact ⟨rfl, hphase⟩
  · -- the gate is free
    obtain ⟨hzero, hheld⟩ := hphase
    obtain ⟨howner, hcount, hgate, hdepth⟩ := owner_of_holding hheld
    split at hstep
    · cases hstep
    · rename_i hfree
      cases hstep
      refine h.change hl hat rfl (hsound.of_owner howner rfl rfl ?_) rfl (.inr howner)
        (.inr howner) (Stage.fits_acquiring.mpr ⟨n, ⟨hzero, ?_⟩, hnext⟩)
        (.take (Bool.eq_false_iff.mpr hfree) rfl rfl)
      · rw [← howner]
        exact hsound.ownerThread
      · rw [holding_of_owner (by exact howner)]
        change (⟨l.count, true, l.depth⟩ : Holding) = _
        rw [hcount, hdepth]
  · -- the gate times out
    cases hstep
    apply hstay
    rw [hphase.2]
    exact ⟨hphase.1, rfl, rfl⟩
  · -- the file is opened
    obtain ⟨f₁, -, hstep⟩ := Option.bind_eq_some_iff.mp hstep
    cases hstep
    exact hstay _ hphase
  · cases hstep
    exact hundo hphase
  · cases hstep
    exact hstay _ hphase
  · cases hstep
    exact hstay _ hphase
  · cases hstep
    exact hundo hphase
  · -- `flock` is granted
    obtain ⟨f₁, -, hstep⟩ := Option.bind_eq_some_iff.mp hstep
    cases hstep
    exact hstay _ hphase
  · cases hstep
    exact hstay _ hphase
  · cases hstep
    exact hstay _ hphase
  · -- `lockf` is granted
    obtain ⟨f₁, -, hstep⟩ := Option.bind_eq_some_iff.mp hstep
    cases hstep
    exact hstay _ hphase
  · cases hstep
    exact hstay _ hphase
  · cases hstep
    exact hstay _ hphase
  · -- `flock` is given back
    rename_i fd again
    cases hstep
    cases again with
    | true => exact hstay (.waiting fd) hphase
    | false => exact hstay (.closing fd) hphase
  · cases hstep
    exact hstay _ hphase
  · cases hstep
    exact hstay _ hphase
  · cases hstep
    exact hstay _ hphase
  · -- the instance is held from here on
    rename_i fd
    cases hstep
    obtain ⟨hzero, hheld⟩ := hphase
    obtain ⟨howner, hcount, hgate, hdepth⟩ := owner_of_holding hheld
    refine h.change hl hat AcquireNext.stage_at (hsound.of_owner howner rfl rfl rfl) rfl
      (.inr howner) (.inr howner) ?_ (.same rfl rfl)
    rw [holding_of_owner (by exact howner)]
    change (next.stage i false).Fits i ⟨l.count, l.gateHeld, 1⟩
    rw [hcount, hgate]
    subst hzero
    exact AcquireNext.fits_returned hnext
  · cases hstep
    exact hundo hphase
  · -- the gate is given back where it was taken
    obtain ⟨hzero, hcount, hdepth⟩ := hphase
    have howner : l.owner = some t := owner_of_count (by rw [hcount]; exact Nat.one_pos)
    rw [holding_of_owner howner] at hcount hdepth
    split at hstep
    · rename_i hheld
      cases hstep
      refine h.change hl hat rfl (hsound.of_owner howner rfl rfl ?_) rfl (.inr howner)
        (.inr howner) (Stage.fits_acquiring.mpr ⟨n, ⟨hzero, ?_⟩, hnext⟩) (.give hheld rfl rfl)
      · rw [← howner]
        exact hsound.ownerThread
      · rw [holding_of_owner (by exact howner)]
        exact congrArg₂ (fun c d ↦ (⟨c, false, d⟩ : Holding)) hcount hdepth
    · rename_i hfree
      cases hstep
      apply hstay
      refine ⟨hzero, ?_⟩
      rw [holding_of_owner howner, Bool.eq_false_iff.mpr hfree]
      exact congrArg₂ (fun c d ↦ (⟨c, false, d⟩ : Holding)) hcount hdepth
  · -- the thread leaves with an error
    cases hstep
    obtain ⟨hzero, hheld⟩ := hphase
    obtain ⟨howner, hcount, hgate, hdepth⟩ := owner_of_holding hheld
    have hleft : l.leave.holding t = .deep 0 := by
      rw [holding_leave howner (fun _ ↦ hgate) fun _ ↦ hdepth, hcount, hgate, hdepth]
      rfl
    refine h.change hl hat AcquireNext.stage_at (hsound.leave fun _ ↦ ⟨hdepth, hgate⟩) rfl
      (.inr howner) (.inl (if_pos hcount)) ?_ (.same rfl rfl)
    subst hzero
    rw [hleft]
    exact AcquireNext.fits_raised hnext
  · cases hstep

theorem Proc.Sound.regions (h : P.Sound key) (regions : ℕ → List (ℕ × ℕ)) :
    Proc.Sound key { P with regions := regions } :=
  ⟨h.keyed, h.sound, h.fits, h.gate, h.one, h.held, h.fresh, h.below⟩

theorem endRelease_eq (P : Proc) (t i : ℕ) (raised : Bool) (next : ReleaseNext) :
    ∃ regions, P.endRelease t i raised next =
      { P.setStage t (next.stage i raised) with regions := regions } := by
  unfold Proc.endRelease
  dsimp only
  split
  · exact ⟨_, rfl⟩
  · exact ⟨P.regions, rfl⟩

theorem Proc.Sound.endRelease {raised : Bool} {next : ReleaseNext}
    (h : (P.setStage t (next.stage i raised)).Sound key) :
    (P.endRelease t i raised next).Sound key := by
  obtain ⟨regions, heq⟩ := endRelease_eq P t i raised next
  rw [heq]
  exact h.regions regions

theorem releaseStep_sound {phase : ReleasePhase} {next : ReleaseNext} (h : P.Sound key)
    (hl : P.locks[i]? = some l) (hstage : P.threads t = .releasing i phase next)
    (hstep : releaseStep f P p t i l next phase outcome = some (f', P')) : P'.Sound key := by
  have hat : (P.threads t).Rests i := by
    rw [hstage]
    exact Stage.rests_of_at rfl
  have hfits := h.fits t i l hl
  rw [hstage] at hfits
  obtain ⟨n, hphase, hnext⟩ := Stage.fits_releasing.mp hfits
  have hsound := h.sound i l hl
  have hstay : ∀ phase' : ReleasePhase, phase'.Fits n (l.holding t) →
      (P.setStage t (.releasing i phase' next)).Sound key := by
    intro phase' hphase'
    exact h.stay hl hat rfl (Stage.fits_releasing.mpr ⟨n, hphase', hnext⟩)
  -- a thread that has nothing raises and has nothing
  have hnothing : l.holding t = .deep n → n = 0 →
      (P.endRelease t i true next).Sound key := by
    intro hdeep hzero
    subst hzero
    apply Proc.Sound.endRelease
    exact h.stay hl hat ReleaseNext.stage_at (hdeep ▸ ReleaseNext.fits_raised)
  unfold releaseStep at hstep
  split at hstep
  · -- `checkDepth`
    have hdeep : l.holding t = .deep n := hphase
    split at hstep
    · rename_i hzero
      cases hstep
      apply hnothing hdeep
      by_contra hne
      have howner : l.owner = some t := owner_of_count (by rw [hdeep]; exact Nat.pos_of_ne_zero hne)
      rw [holding_of_owner howner] at hdeep
      exact hne ((congrArg Holding.depth hdeep).symm.trans hzero)
    · cases hstep
      exact hstay .checkOwner hphase
  · -- `checkOwner`
    have hdeep : l.holding t = .deep n := hphase
    split at hstep
    · rename_i hthread
      cases hstep
      apply hstay
      refine ⟨?_, hphase⟩
      rw [hsound.ownerThread] at hthread
      split at hthread
      · cases hthread
      · rename_i hdepth
        rw [holding_of_owner hthread] at hdeep
        have hn : l.depth = n := congrArg Holding.depth hdeep
        omega
    · rename_i hthread
      cases hstep
      apply hnothing hdeep
      by_contra hne
      have howner : l.owner = some t := owner_of_count (by rw [hdeep]; exact Nat.pos_of_ne_zero hne)
      rw [holding_of_owner howner] at hdeep
      have hdepth : l.depth = n := congrArg Holding.depth hdeep
      refine hthread ?_
      rw [hsound.ownerThread, if_neg (hdepth.symm ▸ hne), howner]
  · -- `lowering`
    obtain ⟨hpos, hdeep⟩ := hphase
    have howner : l.owner = some t := owner_of_count (by rw [hdeep]; exact hpos)
    have hheld := hdeep
    rw [holding_of_owner howner] at hheld
    have hcount : l.count = n := congrArg Holding.count hheld
    have hgate : l.gateHeld = decide (0 < n) := congrArg Holding.gate hheld
    have hdepth : l.depth = n := congrArg Holding.depth hheld
    rw [decide_eq_true hpos] at hgate
    split at hstep
    · rename_i hlast
      cases hstep
      have hone : n = 1 := by omega
      refine h.change hl hat rfl (hsound.of_owner howner rfl rfl (if_pos hlast).symm) rfl
        (.inr howner) (.inr howner) ?_ (.same rfl rfl)
      rw [holding_of_owner (by exact howner)]
      change Stage.Fits i ⟨l.count, l.gateHeld, l.depth - 1⟩ _
      rw [hcount, hgate, hlast, hone]
      refine Stage.fits_releasing.mpr ⟨1, ?_, hone ▸ hnext⟩
      cases l.descriptor with
      | none => exact ⟨rfl, rfl⟩
      | some fd => exact ⟨rfl, rfl⟩
    · rename_i hmore
      cases hstep
      refine h.change hl hat rfl (hsound.of_owner howner rfl rfl ?_) rfl (.inr howner)
        (.inr howner) (Stage.fits_releasing.mpr ⟨n, ?_, hnext⟩) (.same rfl rfl)
      · change l.ownerThread = if l.depth - 1 = 0 then none else some t
        rw [hsound.ownerThread, if_neg hmore, if_neg (by omega), howner]
      · refine ⟨hpos, (absurd · Bool.false_ne_true), ?_⟩
        rw [holding_of_owner (by exact howner)]
        change (⟨l.count, l.gateHeld, l.depth - 1⟩ : Holding) = _
        rw [hcount, hgate, hdepth, decide_eq_true (by omega)]
  · cases hstep
    exact hstay _ hphase
  · cases hstep
    exact hstay _ hphase
  · cases hstep
    exact hstay _ hphase
  · cases hstep
    exact hstay _ hphase
  · cases hstep
    exact hstay _ hphase
  · cases hstep
    exact hstay _ hphase
  · -- the gate is given back
    obtain ⟨hone, hheld⟩ := hphase
    obtain ⟨howner, hcount, hgate, hdepth⟩ := owner_of_holding hheld
    rw [if_pos hgate] at hstep
    cases hstep
    refine h.change hl hat rfl (hsound.of_owner howner rfl rfl ?_) rfl (.inr howner)
      (.inr howner) (Stage.fits_releasing.mpr ⟨n, ⟨by omega, fun _ ↦ hone, ?_⟩, hnext⟩)
      (.give hgate rfl rfl)
    · rw [← howner]
      exact hsound.ownerThread
    · rw [holding_of_owner (by exact howner)]
      change (⟨l.count, false, l.depth⟩ : Holding) = _
      rw [hcount, hdepth, hone]
      rfl
  · -- the thread leaves
    rename_i failed
    cases hstep
    obtain ⟨hpos, hfailed, hheld⟩ := hphase
    have howner : l.owner = some t := owner_of_count (by rw [hheld]; exact hpos)
    have hfields := hheld
    rw [holding_of_owner howner] at hfields
    have hcount : l.count = n := congrArg Holding.count hfields
    have hgate : l.gateHeld = decide (1 < n) := congrArg Holding.gate hfields
    have hdepth : l.depth = n - 1 := congrArg Holding.depth hfields
    have hlast : l.count = 1 → l.depth = 0 ∧ l.gateHeld = false := by
      intro hone
      have hn : n = 1 := hcount.symm.trans hone
      rw [hdepth, hgate, hn]
      exact ⟨rfl, rfl⟩
    have howner' : l.leave.owner = none ∨ l.leave.owner = some t := by
      by_cases hone : l.count = 1
      · exact .inl (if_pos hone)
      · exact .inr ((if_neg hone).trans howner)
    have hleft : l.leave.holding t = .deep (n - 1) := by
      rw [holding_leave howner (fun hone ↦ (hlast hone).2) fun hone ↦ (hlast hone).1, hcount,
        hgate, hdepth]
      have hiff : (1 < n) ↔ (0 < n - 1) := by omega
      rw [decide_eq_decide.mpr hiff]
      rfl
    apply Proc.Sound.endRelease
    refine h.change hl hat ReleaseNext.stage_at (hsound.leave hlast) rfl (.inr howner) howner' ?_
      (.same rfl rfl)
    rw [hleft]
    cases failed with
    | true =>
      rw [hfailed rfl]
      exact ReleaseNext.fits_raised
    | false =>
      obtain ⟨m, rfl⟩ : ∃ m, n = m + 1 := ⟨n - 1, by omega⟩
      exact ReleaseNext.fits_returned hnext
  · cases hstep

end Calls

end SlurmScheduler.Lock
