import Mathlib.Tactic

namespace SlurmScheduler.Dispatch

/-- The arguments of `claim_fea_pressure_episode`; `observedAt` is stripped. -/
structure PressureSample where
  observedAt : String
  totalMemoryMb : ℤ
  freeMemoryMb : ℤ
  hardPressure : Bool
  cooldownSeconds : ℤ := 300

structure EpisodeState where
  armed : Bool
  claimedFingerprints : List (ℕ × ℕ) := []
  lastObservedAt : String
  lastTotalMemoryMb : ℕ
  lastFreeMemoryMb : ℕ
  lastReclaimObservedAt : String := ""
  lastReclaimTotalMemoryMb : ℕ := 0
  lastReclaimFreeMemoryMb : ℕ := 0
  deriving DecidableEq

inductive StoredEpisode
  | state (s : EpisodeState)
  /-- a former watermark, or a value that cannot be read -/
  | watermark
  deriving DecidableEq

namespace PressureSample

variable (c : PressureSample)

def total : ℕ := c.totalMemoryMb.toNat

def free : ℕ := c.freeMemoryMb.toNat

def fingerprint : ℕ × ℕ := (c.total, c.free)

def cooldown : ℕ := c.cooldownSeconds.toNat

/-- `meaningful_delta_mb` -/
def meaningfulDelta : ℕ := max 1024 (c.total / 100)

end PressureSample

section Claim

-- `observation_seconds`
variable (seconds : String → Option ℚ)

def After (a b : String) : Bool :=
  match seconds a, seconds b with
  | some x, some y => y < x
  | _, _ => false

def freshFor (stored : Option StoredEpisode) (c : PressureSample) : Bool :=
  match stored with
  | some (.state s) => s.lastObservedAt == "" || After seconds c.observedAt s.lastObservedAt
  | _ => true

/-- `meaningfully_worsened` -/
def EpisodeState.worsened (s : EpisodeState) (c : PressureSample) : Bool :=
  c.total == s.lastReclaimTotalMemoryMb &&
    c.free + c.meaningfulDelta ≤ s.lastReclaimFreeMemoryMb

def EpisodeState.cooldownElapsed (s : EpisodeState) (c : PressureSample) : Bool :=
  match seconds c.observedAt, seconds s.lastReclaimObservedAt with
  | some current, some previous => previous + c.cooldown ≤ current
  | _, _ => false

def EpisodeState.observe (s : EpisodeState) (c : PressureSample) : EpisodeState :=
  { s with
    lastObservedAt := c.observedAt
    lastTotalMemoryMb := c.total
    lastFreeMemoryMb := c.free }

def EpisodeState.arm (s : EpisodeState) (c : PressureSample) : EpisodeState :=
  { s.observe c with armed := true, claimedFingerprints := [] }

def EpisodeState.reclaim (s : EpisodeState) (c : PressureSample) : EpisodeState :=
  { s.observe c with
    armed := false
    claimedFingerprints := c.fingerprint :: s.claimedFingerprints
    lastReclaimObservedAt := c.observedAt
    lastReclaimTotalMemoryMb := c.total
    lastReclaimFreeMemoryMb := c.free }

/-- `{"version": 1}` -/
def EpisodeState.unarmed : EpisodeState where
  armed := false
  lastObservedAt := ""
  lastTotalMemoryMb := 0
  lastFreeMemoryMb := 0

/-- `claim` -/
def EpisodeState.claims (s : EpisodeState) (c : PressureSample) : Bool :=
  s.armed || (!s.claimedFingerprints.contains c.fingerprint && s.worsened c &&
    s.cooldownElapsed seconds c)

/-- `claim_fea_pressure_episode`: whether a worker may be reclaimed, and the row that is written. -/
def claimFeaPressureEpisode (stored : Option StoredEpisode) (c : PressureSample) :
    Bool × Option EpisodeState :=
  if !freshFor seconds stored c then (false, none) else
  if !c.hardPressure then
    match stored with
    | none => (false, none)
    | some .watermark => (false, some (EpisodeState.unarmed.arm c))
    -- an armed row does not remember a healthy sample
    | some (.state s) => (false, if s.armed then none else some (s.arm c))
  else
    match stored with
    | none => (true, some (EpisodeState.unarmed.reclaim c))
    | some .watermark => (false, some (EpisodeState.unarmed.reclaim c))
    | some (.state s) =>
        if s.claims seconds c then (true, some (s.reclaim c)) else (false, some (s.observe c))

def storedAfter (stored : Option StoredEpisode) (c : PressureSample) : Option StoredEpisode :=
  ((claimFeaPressureEpisode seconds stored c).2.map .state).or stored

/-- A call that has been answered, and the row that it found. -/
structure Handled where
  sample : PressureSample
  found : Option StoredEpisode
  claimed : Bool

/-- The calls on one key, the newest first, and the row after them. -/
def handle (stored : Option StoredEpisode) : List PressureSample →
    List Handled × Option StoredEpisode
  | [] => ([], stored)
  | c :: earlier =>
      let before := handle stored earlier
      (⟨c, before.2, (claimFeaPressureEpisode seconds before.2 c).1⟩ :: before.1,
        storedAfter seconds before.2 c)

def Handled.after (h h' : Handled) : Bool := After seconds h.sample.observedAt h'.sample.observedAt

/-- The claims since the last healthy sample that was observed after the claim before it, the
newest first. -/
def episode : List Handled → List Handled
  | [] => []
  | h :: earlier =>
      if h.claimed then h :: episode earlier
      else if !h.sample.hardPressure && (episode earlier).head?.any (h.after seconds) then []
      else episode earlier

def readyFor : Option StoredEpisode → Bool
  | none => true
  | some .watermark => false
  | some (.state s) => s.armed

def Handled.forgotten (h : Handled) : Bool :=
  !h.sample.hardPressure && freshFor seconds h.found h.sample && readyFor h.found

def Handled.reclaims (h : Handled) : Bool :=
  h.sample.hardPressure && freshFor seconds h.found h.sample && readyFor h.found

/-- Every sample has a time, and one that reclaims without a comparison is newer than the healthy
samples that left no trace. -/
def Regular : List Handled → Prop
  | [] => True
  | h :: earlier => h.sample.observedAt ≠ "" ∧ (∃ x, seconds h.sample.observedAt = some x) ∧
      (h.reclaims seconds = true → ∀ e ∈ earlier, e.forgotten seconds = true →
        h.after seconds e = true) ∧ Regular earlier

structure Follows (p h : Handled) : Prop where
  total : h.sample.total = p.sample.total
  free : h.sample.free + h.sample.meaningfulDelta ≤ p.sample.free
  cooldown : ∃ x y, seconds p.sample.observedAt = some x ∧ seconds h.sample.observedAt = some y ∧
    x + h.sample.cooldown ≤ y

/-- Bounded reclaims in the order of the observations. -/
structure PressureLaw (history : List Handled) : Prop where
  newest : ∀ h earlier, h :: earlier <:+ history → h.claimed = true →
    ∀ e ∈ earlier, h.after seconds e = true
  once : ∀ s, s <:+ history → ((episode seconds s).map (·.sample.fingerprint)).Nodup
  follows : ∀ s, s <:+ history → (episode seconds s).IsChain fun h p ↦ Follows seconds p h
  bounded : ∀ s, s <:+ history → ∀ first ∈ (episode seconds s).getLast?,
    (episode seconds s).length ≤ 1 + first.sample.free / 1024

end Claim

section Chains

variable {seconds : String → Option ℚ} {p h : Handled} {claims : List Handled}

theorem Follows.free_add (hf : Follows seconds p h) : h.sample.free + 1024 ≤ p.sample.free :=
  le_trans (Nat.add_le_add_left (le_max_left ..) _) hf.free

/-- The claims of an episode, newest first, have less and less free memory. -/
theorem pairwise_of_follows (hchain : claims.IsChain fun h p ↦ Follows seconds p h) :
    claims.Pairwise fun h p ↦ h.sample.free < p.sample.free := by
  have hlt : claims.IsChain fun h p : Handled ↦ h.sample.free < p.sample.free :=
    hchain.imp fun h p hf ↦ lt_of_lt_of_le (Nat.lt_add_of_pos_right (by decide)) hf.free_add
  have : Trans (fun h p : Handled ↦ h.sample.free < p.sample.free)
      (fun h p : Handled ↦ h.sample.free < p.sample.free)
      (fun h p : Handled ↦ h.sample.free < p.sample.free) := ⟨fun h h' ↦ h.trans h'⟩
  exact List.isChain_iff_pairwise.mp hlt

theorem length_of_follows (hchain : claims.IsChain fun h p ↦ Follows seconds p h)
    {first : Handled} (hfirst : first ∈ claims.getLast?) :
    claims.length ≤ 1 + first.sample.free / 1024 := by
  have hspent : ∀ h ∈ claims.head?,
      h.sample.free + 1024 * (claims.length - 1) ≤ first.sample.free := by
    induction claims with
    | nil => simp
    | cons h claims ih =>
        intro h' hh'
        cases hh'
        cases claims with
        | nil =>
            have hsame : h = first := Option.some.inj hfirst
            rw [hsame, List.length_singleton]
            omega
        | cons p claims =>
            obtain ⟨hf, hrest⟩ := List.isChain_cons_cons.mp hchain
            rw [List.getLast?_cons_cons] at hfirst
            have hlater := ih hrest hfirst p rfl
            have hstep := hf.free_add
            simp only [List.length_cons, Nat.add_sub_cancel] at hlater ⊢
            linarith
  cases claims with
  | nil => simp
  | cons h claims =>
      have := hspent h rfl
      simp only [List.length_cons, Nat.add_sub_cancel] at this ⊢
      omega

end Chains

section Order

variable {seconds : String → Option ℚ} {a b c : String}

theorem after_iff : After seconds a b = true ↔ ∃ x y, seconds a = some x ∧ seconds b = some y ∧ y < x := by
  unfold After
  split
  · rename_i x y hx hy
    simp [hx, hy]
  · rename_i hnone
    simp only [Bool.false_eq_true, false_iff]
    rintro ⟨x, y, hx, hy, -⟩
    exact hnone x y hx hy

theorem after_trans (h : After seconds a b = true) (h' : After seconds b c = true) :
    After seconds a c = true := by
  obtain ⟨x, y, hx, hy, hlt⟩ := after_iff.mp h
  obtain ⟨y', z, hy', hz, hlt'⟩ := after_iff.mp h'
  rw [hy, Option.some.injEq] at hy'
  exact after_iff.mpr ⟨x, z, hx, hz, hlt'.trans (hy' ▸ hlt)⟩

theorem after_of_not_after (h : After seconds a b = true) (hc : ∃ z, seconds c = some z)
    (h' : After seconds c b = false) : After seconds a c = true := by
  obtain ⟨x, y, hx, hy, hlt⟩ := after_iff.mp h
  obtain ⟨z, hz⟩ := hc
  refine after_iff.mpr ⟨x, z, hx, hz, lt_of_le_of_lt (not_lt.mp fun hyz ↦ ?_) hlt⟩
  rw [after_iff.mpr ⟨z, y, hz, hy, hyz⟩] at h'
  cases h'

theorem after_irrefl (a : String) : After seconds a a = false := by
  by_contra h
  obtain ⟨x, y, hx, hy, hlt⟩ := after_iff.mp (Bool.eq_true_of_not_eq_false h)
  rw [hx, Option.some.injEq] at hy
  exact absurd (hy ▸ hlt) (lt_irrefl y)

end Order

structure Remembers (seconds : String → Option ℚ) (history : List Handled) (s : EpisodeState) :
    Prop where
  named : s.lastObservedAt ≠ ""
  timed : ∃ x, seconds s.lastObservedAt = some x
  newest : ∀ e ∈ history, e.forgotten seconds = false →
    After seconds e.sample.observedAt s.lastObservedAt = false
  forgotten : s.armed = false → ∀ e ∈ history, e.forgotten seconds = true →
    After seconds s.lastObservedAt e.sample.observedAt = true
  ended : s.armed = true → episode seconds history = []
  reclaimed : s.armed = false → ∀ p ∈ (episode seconds history).head?,
    s.lastReclaimObservedAt = p.sample.observedAt ∧ s.lastReclaimTotalMemoryMb = p.sample.total ∧
      s.lastReclaimFreeMemoryMb = p.sample.free ∧
      After seconds p.sample.observedAt s.lastObservedAt = false

def Tracks (seconds : String → Option ℚ) (history : List Handled) : Option StoredEpisode → Prop
  | none => ∀ e ∈ history, e.forgotten seconds = true ∧ e.claimed = false
  | some .watermark => history = []
  | some (.state s) => Remembers seconds history s

section Step

variable {seconds : String → Option ℚ} {history : List Handled} {stored : Option StoredEpisode}
  {c : PressureSample} {s : EpisodeState}

theorem episode_nil (h : ∀ e ∈ history, e.claimed = false) : episode seconds history = [] := by
  induction history with
  | nil => rfl
  | cons e history ih =>
      obtain ⟨he, hrest⟩ := List.forall_mem_cons.mp h
      simp [episode, he, ih hrest]

theorem mem_of_episode {p : Handled} (h : p ∈ episode seconds history) : p ∈ history := by
  induction history with
  | nil => cases h
  | cons e history ih =>
      rw [episode] at h
      split at h
      · rcases List.mem_cons.mp h with rfl | h
        · exact List.mem_cons_self ..
        · exact List.mem_cons_of_mem _ (ih h)
      · split at h
        · cases h
        · exact List.mem_cons_of_mem _ (ih h)

def answered (seconds : String → Option ℚ) (stored : Option StoredEpisode) (c : PressureSample) :
    Handled := ⟨c, stored, (claimFeaPressureEpisode seconds stored c).1⟩

theorem regular_timed {e : Handled} (h : Regular seconds history) (he : e ∈ history) :
    ∃ x, seconds e.sample.observedAt = some x := by
  induction history with
  | nil => cases he
  | cons e' history ih =>
      rcases List.mem_cons.mp he with rfl | he
      · exact h.2.1
      · exact ih h.2.2.2 he

theorem claim_stale (h : freshFor seconds stored c = false) :
    claimFeaPressureEpisode seconds stored c = (false, none) := by
  simp [claimFeaPressureEpisode, h]

def healthyWrite (c : PressureSample) : Option StoredEpisode → Option EpisodeState
  | none => none
  | some .watermark => some (EpisodeState.unarmed.arm c)
  | some (.state s) => if s.armed then none else some (s.arm c)

def hardAnswer (seconds : String → Option ℚ) (c : PressureSample) :
    Option StoredEpisode → Bool × Option EpisodeState
  | none => (true, some (EpisodeState.unarmed.reclaim c))
  | some .watermark => (false, some (EpisodeState.unarmed.reclaim c))
  | some (.state s) =>
      if s.claims seconds c then (true, some (s.reclaim c)) else (false, some (s.observe c))

theorem claim_healthy (hfresh : freshFor seconds stored c = true) (hhealthy : c.hardPressure = false) :
    claimFeaPressureEpisode seconds stored c = (false, healthyWrite c stored) := by
  unfold claimFeaPressureEpisode
  rw [hfresh, hhealthy]
  cases stored with
  | none => rfl
  | some found => cases found <;> rfl

theorem claim_hard (hfresh : freshFor seconds stored c = true) (hhard : c.hardPressure = true) :
    claimFeaPressureEpisode seconds stored c = hardAnswer seconds c stored := by
  unfold claimFeaPressureEpisode
  rw [hfresh, hhard]
  cases stored with
  | none => rfl
  | some found => cases found <;> rfl

theorem fresh_of_claim (hclaim : (claimFeaPressureEpisode seconds stored c).1 = true) :
    freshFor seconds stored c = true ∧ c.hardPressure = true := by
  have hfresh : freshFor seconds stored c = true := by
    by_contra h
    rw [claim_stale (Bool.eq_false_of_not_eq_true h)] at hclaim
    cases hclaim
  refine ⟨hfresh, ?_⟩
  by_contra h
  rw [claim_healthy hfresh (Bool.eq_false_of_not_eq_true h)] at hclaim
  cases hclaim

theorem claim_newest (htracks : Tracks seconds history stored)
    (hregular : Regular seconds (answered seconds stored c :: history))
    (hclaim : (claimFeaPressureEpisode seconds stored c).1 = true) :
    ∀ e ∈ history, (answered seconds stored c).after seconds e = true := by
  intro e he
  obtain ⟨-, -, hnewer, hearlier⟩ := hregular
  obtain ⟨hfresh, hhard⟩ := fresh_of_claim hclaim
  have hready (h : readyFor stored = true) : (answered seconds stored c).reclaims seconds = true := by
    simp [Handled.reclaims, answered, hhard, hfresh, h]
  match stored, htracks with
  | none, htracks => exact hnewer (hready rfl) e he (htracks e he).1
  | some .watermark, htracks => rw [htracks] at he; cases he
  | some (.state s), htracks =>
      have hlast : After seconds c.observedAt s.lastObservedAt = true := by
        rw [freshFor, Bool.or_eq_true, beq_iff_eq] at hfresh
        exact hfresh.resolve_left htracks.named
      cases hforgotten : e.forgotten seconds with
      | false =>
          exact after_of_not_after hlast (regular_timed hearlier he) (htracks.newest e he hforgotten)
      | true =>
          cases harmed : s.armed with
          | true => exact hnewer (hready harmed) e he hforgotten
          | false => exact after_trans hlast (htracks.forgotten harmed e he hforgotten)

theorem claim_follows (htracks : Tracks seconds history stored)
    (hclaim : (claimFeaPressureEpisode seconds stored c).1 = true) :
    ∀ p ∈ (episode seconds history).head?, Follows seconds p (answered seconds stored c) := by
  intro p hp
  match stored, htracks with
  | none, htracks => rw [episode_nil fun e he ↦ (htracks e he).2] at hp; cases hp
  | some .watermark, htracks => rw [htracks] at hp; cases hp
  | some (.state s), htracks =>
      have hunarmed : s.armed = false := by
        by_contra h
        rw [htracks.ended (Bool.eq_true_of_not_eq_false h)] at hp
        cases hp
      obtain ⟨hobserved, htotal, hfree, -⟩ := htracks.reclaimed hunarmed p hp
      have hclaims : s.claims seconds c = true := by
        by_contra h
        rw [Bool.not_eq_true] at h
        obtain ⟨hfresh, hhard⟩ := fresh_of_claim hclaim
        rw [claim_hard hfresh hhard, hardAnswer, h] at hclaim
        cases hclaim
      simp only [EpisodeState.claims, hunarmed, Bool.false_or, Bool.and_eq_true,
        EpisodeState.worsened, beq_iff_eq, decide_eq_true_eq] at hclaims
      obtain ⟨⟨-, hsame, hworse⟩, hcooled⟩ := hclaims
      refine ⟨hsame.trans htotal, hfree ▸ hworse, ?_⟩
      rw [EpisodeState.cooldownElapsed, hobserved] at hcooled
      split at hcooled
      · rename_i y x hy hx
        exact ⟨x, y, hx, hy, of_decide_eq_true hcooled⟩
      · cases hcooled

/-- The sample becomes the last one of a row that has not remembered a newer one. -/
theorem observed_newest {last : String} (hlast : After seconds c.observedAt last = true)
    (hnewest : ∀ e ∈ history, e.forgotten seconds = false →
      After seconds e.sample.observedAt last = false) :
    ∀ e ∈ answered seconds stored c :: history, e.forgotten seconds = false →
      After seconds e.sample.observedAt c.observedAt = false := by
  intro e he hforgotten
  rcases List.mem_cons.mp he with rfl | he
  · exact after_irrefl _
  · by_contra hafter
    have hnew := after_trans (Bool.eq_true_of_not_eq_false hafter) hlast
    rw [hnewest e he hforgotten] at hnew
    cases hnew

/-- The row after a claim, or after the seed of a watermark, that was newer than all before. -/
theorem remembers_reclaim (s : EpisodeState)
    (hregular : Regular seconds (answered seconds stored c :: history))
    (hhard : c.hardPressure = true)
    (hall : ∀ e ∈ history, After seconds c.observedAt e.sample.observedAt = true)
    (hclaim : (claimFeaPressureEpisode seconds stored c).1 = true ∨ history = []) :
    Remembers seconds (answered seconds stored c :: history) (s.reclaim c) where
  named := hregular.1
  timed := hregular.2.1
  newest := by
    intro e he _
    rcases List.mem_cons.mp he with rfl | he
    · exact after_irrefl _
    · by_contra hafter
      have := after_trans (Bool.eq_true_of_not_eq_false hafter) (hall e he)
      rw [after_irrefl] at this
      cases this
  forgotten := by
    intro _ e he hforgotten
    rcases List.mem_cons.mp he with rfl | he
    · simp [Handled.forgotten, answered, hhard] at hforgotten
    · exact hall e he
  ended := fun h ↦ by cases h
  reclaimed := by
    intro _ p hp
    rcases hclaim with hclaim | hempty
    · rw [episode, if_pos (show (answered seconds stored c).claimed = true from hclaim)] at hp
      cases hp
      exact ⟨rfl, rfl, rfl, after_irrefl _⟩
    · subst hempty
      rw [episode] at hp
      split at hp
      · cases hp
        exact ⟨rfl, rfl, rfl, after_irrefl _⟩
      · simp [episode] at hp

theorem episode_unclaimed (seconds : String → Option ℚ) {h : Handled} (hclaimed : h.claimed = false)
    (history : List Handled) : episode seconds (h :: history) = [] ∨
      episode seconds (h :: history) = episode seconds history := by
  rw [episode, hclaimed]
  split
  · contradiction
  · split
    · exact .inl rfl
    · exact .inr rfl

theorem remembers_stale (h : Remembers seconds history s)
    (hstale : freshFor seconds (some (.state s)) c = false) :
    Remembers seconds (answered seconds (some (.state s)) c :: history) s := by
  have hunclaimed : (answered seconds (some (.state s)) c).claimed = false := by
    rw [answered, claim_stale hstale]
  have hepisode := episode_unclaimed seconds hunclaimed history
  refine ⟨h.named, h.timed, ?_, ?_, fun harmed ↦ ?_, fun harmed p hp ↦ ?_⟩
  · intro e he hforgotten
    rcases List.mem_cons.mp he with rfl | he
    · rw [freshFor, Bool.or_eq_false_iff] at hstale
      exact hstale.2
    · exact h.newest e he hforgotten
  · intro harmed e he hforgotten
    rcases List.mem_cons.mp he with rfl | he
    · simp [Handled.forgotten, answered, hstale] at hforgotten
    · exact h.forgotten harmed e he hforgotten
  · exact hepisode.elim id fun hsame ↦ hsame.trans (h.ended harmed)
  · rcases hepisode with hnil | hsame
    · rw [hnil] at hp; cases hp
    · exact h.reclaimed harmed p (hsame ▸ hp)

theorem remembers_forgotten (h : Remembers seconds history s) (harmed : s.armed = true)
    (hfresh : freshFor seconds (some (.state s)) c = true) (hhealthy : c.hardPressure = false) :
    Remembers seconds (answered seconds (some (.state s)) c :: history) s := by
  have hunclaimed : (answered seconds (some (.state s)) c).claimed = false := by
    rw [answered, claim_healthy hfresh hhealthy]
  have hnever : s.armed ≠ false := by simp [harmed]
  refine ⟨h.named, h.timed, ?_, fun h ↦ absurd h hnever, fun _ ↦ ?_, fun h ↦ absurd h hnever⟩
  · intro e he hforgotten
    rcases List.mem_cons.mp he with rfl | he
    · simp [Handled.forgotten, answered, hhealthy, hfresh, readyFor, harmed] at hforgotten
    · exact h.newest e he hforgotten
  · exact (episode_unclaimed seconds hunclaimed history).elim id fun hsame ↦ hsame.trans (h.ended harmed)

theorem remembers_arm (h : Remembers seconds history s) (hunarmed : s.armed = false)
    (hregular : Regular seconds (answered seconds (some (.state s)) c :: history))
    (hfresh : freshFor seconds (some (.state s)) c = true) (hhealthy : c.hardPressure = false) :
    Remembers seconds (answered seconds (some (.state s)) c :: history) (s.arm c) := by
  have hlast : After seconds c.observedAt s.lastObservedAt = true := by
    rw [freshFor, Bool.or_eq_true, beq_iff_eq] at hfresh
    exact hfresh.resolve_left h.named
  refine ⟨hregular.1, hregular.2.1, fun e he hforgotten ↦ observed_newest hlast h.newest e he hforgotten,
    (fun h ↦ by cases h), fun _ ↦ ?_, fun h ↦ by cases h⟩
  have hunclaimed : (answered seconds (some (.state s)) c).claimed = false := by
    rw [answered, claim_healthy hfresh hhealthy]
  rw [episode, if_neg (by simp [hunclaimed])]
  cases hhead : (episode seconds history).head? with
  | none =>
      rw [List.head?_eq_none_iff] at hhead
      simp [hhead]
  | some p =>
      obtain ⟨-, -, -, hbefore⟩ := h.reclaimed hunarmed p hhead
      have hafter : (answered seconds (some (.state s)) c).after seconds p = true :=
        after_of_not_after hlast (regular_timed hregular.2.2.2
          (mem_of_episode (List.mem_of_mem_head? hhead))) hbefore
      simp [answered, hhealthy] at hafter ⊢
      simp [hafter]

theorem remembers_observe (h : Remembers seconds history s)
    (hregular : Regular seconds (answered seconds (some (.state s)) c :: history))
    (hfresh : freshFor seconds (some (.state s)) c = true) (hhard : c.hardPressure = true)
    (hnone : s.claims seconds c = false) :
    Remembers seconds (answered seconds (some (.state s)) c :: history) (s.observe c) := by
  have hlast : After seconds c.observedAt s.lastObservedAt = true := by
    rw [freshFor, Bool.or_eq_true, beq_iff_eq] at hfresh
    exact hfresh.resolve_left h.named
  have hunarmed : s.armed = false := by
    rw [EpisodeState.claims, Bool.or_eq_false_iff] at hnone
    exact hnone.1
  have hunclaimed : (answered seconds (some (.state s)) c).claimed = false := by
    rw [answered, claim_hard hfresh hhard, hardAnswer, hnone]
    rfl
  refine ⟨hregular.1, hregular.2.1, fun e he hforgotten ↦ observed_newest hlast h.newest e he hforgotten,
    fun _ e he hforgotten ↦ ?_, fun harmed ↦ ?_, fun _ p hp ↦ ?_⟩
  · rcases List.mem_cons.mp he with rfl | he
    · simp [Handled.forgotten, answered, hhard] at hforgotten
    · exact after_trans hlast (h.forgotten hunarmed e he hforgotten)
  · exact absurd (hunarmed.symm.trans harmed) Bool.false_ne_true
  · rcases episode_unclaimed seconds hunclaimed history with hnil | hsame
    · rw [hnil] at hp; cases hp
    · obtain ⟨hobserved, htotal, hfree, hbefore⟩ := h.reclaimed hunarmed p (hsame ▸ hp)
      refine ⟨hobserved, htotal, hfree, ?_⟩
      by_contra hafter
      have := after_trans (Bool.eq_true_of_not_eq_false hafter) hlast
      rw [hbefore] at this
      cases this

theorem storedAfter_of_write {w : EpisodeState}
    (h : (claimFeaPressureEpisode seconds stored c).2 = some w) :
    storedAfter seconds stored c = some (.state w) := by
  rw [storedAfter, h]
  rfl

theorem storedAfter_of_none (h : (claimFeaPressureEpisode seconds stored c).2 = none) :
    storedAfter seconds stored c = stored := by
  rw [storedAfter, h]
  rfl

/-- One call keeps what the row knows of the calls before it. -/
theorem tracks_step (htracks : Tracks seconds history stored)
    (hregular : Regular seconds (answered seconds stored c :: history)) :
    Tracks seconds (answered seconds stored c :: history) (storedAfter seconds stored c) := by
  cases hfresh : freshFor seconds stored c with
  | false =>
      rw [storedAfter_of_none (by rw [claim_stale hfresh])]
      match stored, htracks with
      | some (.state s), htracks => exact remembers_stale htracks hfresh
  | true =>
      cases hhard : c.hardPressure with
      | false =>
          have hanswer := claim_healthy hfresh hhard
          match stored, htracks with
          | none, htracks =>
              rw [storedAfter_of_none (by rw [hanswer]; rfl)]
              refine List.forall_mem_cons.mpr ⟨⟨?_, ?_⟩, htracks⟩
              · simp [Handled.forgotten, answered, hhard, freshFor, readyFor]
              · rw [answered, hanswer]
          | some .watermark, htracks =>
              rw [storedAfter_of_write (by rw [hanswer]; rfl), htracks]
              refine ⟨hregular.1, hregular.2.1, fun e he _ ↦ ?_, (fun h ↦ by cases h), fun _ ↦ ?_,
                fun h ↦ by cases h⟩
              · rw [List.mem_singleton.mp he]
                exact after_irrefl _
              · rw [episode, answered, hanswer]
                simp [episode]
          | some (.state s), htracks =>
              cases harmed : s.armed with
              | true =>
                  rw [storedAfter_of_none (by rw [hanswer, healthyWrite, if_pos harmed])]
                  exact remembers_forgotten htracks harmed hfresh hhard
              | false =>
                  have hnot : ¬ s.armed = true := by simp [harmed]
                  rw [storedAfter_of_write (by rw [hanswer, healthyWrite, if_neg hnot])]
                  exact remembers_arm htracks harmed hregular hfresh hhard
      | true =>
          have hanswer := claim_hard hfresh hhard
          match stored, htracks with
          | none, htracks =>
              have hclaim : (claimFeaPressureEpisode seconds none c).1 = true := by rw [hanswer]; rfl
              rw [storedAfter_of_write (by rw [hanswer]; rfl)]
              exact remembers_reclaim _ hregular hhard (claim_newest htracks hregular hclaim) (.inl hclaim)
          | some .watermark, htracks =>
              rw [storedAfter_of_write (by rw [hanswer]; rfl)]
              exact remembers_reclaim _ hregular hhard (by rw [htracks]; simp) (.inr htracks)
          | some (.state s), htracks =>
              cases hclaims : s.claims seconds c with
              | true =>
                  rw [hardAnswer, if_pos hclaims] at hanswer
                  have hclaim : (claimFeaPressureEpisode seconds (some (.state s)) c).1 = true := by
                    rw [hanswer]
                  rw [storedAfter_of_write (by rw [hanswer])]
                  exact remembers_reclaim _ hregular hhard (claim_newest htracks hregular hclaim)
                    (.inl hclaim)
              | false =>
                  have hnot : ¬ s.claims seconds c = true := by simp [hclaims]
                  rw [hardAnswer, if_neg hnot] at hanswer
                  rw [storedAfter_of_write (by rw [hanswer])]
                  exact remembers_observe htracks hregular hfresh hhard hclaims

end Step

section Runs

variable {seconds : String → Option ℚ} {stored : Option StoredEpisode}
  {samples : List PressureSample}

/-- A key that has no row yet, or one with a former watermark. -/
def Unused (stored : Option StoredEpisode) : Prop := stored = none ∨ stored = some .watermark

theorem tracks_handle (hunused : Unused stored)
    (hregular : Regular seconds (handle seconds stored samples).1) :
    Tracks seconds (handle seconds stored samples).1 (handle seconds stored samples).2 := by
  induction samples with
  | nil =>
      rcases hunused with rfl | rfl
      · simp [handle, Tracks]
      · rfl
  | cons c earlier ih => exact tracks_step (ih hregular.2.2.2) hregular

theorem handle_suffix {s : List Handled} (h : s <:+ (handle seconds stored samples).1) :
    ∃ earlier, s = (handle seconds stored earlier).1 := by
  induction samples with
  | nil => exact ⟨[], List.suffix_nil.mp h⟩
  | cons c earlier ih =>
      rcases List.suffix_cons_iff.mp h with rfl | h
      · exact ⟨c :: earlier, rfl⟩
      · exact ih h

theorem regular_suffix {s history : List Handled} (h : s <:+ history)
    (hregular : Regular seconds history) : Regular seconds s := by
  induction history with
  | nil => rw [List.suffix_nil.mp h]; trivial
  | cons e history ih =>
      rcases List.suffix_cons_iff.mp h with rfl | h
      · exact hregular
      · exact ih h hregular.2.2.2

theorem episode_chain (hunused : Unused stored)
    (hregular : Regular seconds (handle seconds stored samples).1) :
    (episode seconds (handle seconds stored samples).1).IsChain fun h p ↦ Follows seconds p h := by
  induction samples with
  | nil => exact List.isChain_nil
  | cons c earlier ih =>
      have hearlier := ih hregular.2.2.2
      have htracks := tracks_handle hunused hregular.2.2.2
      rw [handle, episode]
      split
      · rename_i hclaim
        rw [List.isChain_cons]
        exact ⟨fun p hp ↦ claim_follows htracks hclaim p hp, hearlier⟩
      · split
        · exact List.isChain_nil
        · exact hearlier

/-- In every run in which no sample that reclaims without a comparison is older than a healthy one
that left no trace, the reclaims of a node are bounded and follow the order of observation. -/
theorem pressure_law_of_regular (seconds : String → Option ℚ) (stored : Option StoredEpisode)
    (hunused : Unused stored) (samples : List PressureSample)
    (hregular : Regular seconds (handle seconds stored samples).1) :
    PressureLaw seconds (handle seconds stored samples).1 := by
  have hchain : ∀ s, s <:+ (handle seconds stored samples).1 →
      (episode seconds s).IsChain fun h p ↦ Follows seconds p h := by
    intro s hs
    obtain ⟨earlier, rfl⟩ := handle_suffix hs
    exact episode_chain hunused (regular_suffix hs hregular)
  refine ⟨fun h earlier hs hclaimed ↦ ?_, fun s hs ↦ ?_, hchain,
    fun s hs first hfirst ↦ length_of_follows (hchain s hs) hfirst⟩
  · obtain ⟨before, hbefore⟩ := handle_suffix hs
    cases before with
    | nil => cases hbefore
    | cons c before =>
        have hsuffix := regular_suffix hs hregular
        rw [handle, List.cons.injEq] at hbefore
        obtain ⟨rfl, rfl⟩ := hbefore
        exact claim_newest (tracks_handle hunused hsuffix.2.2.2) hsuffix hclaimed
  · rw [List.Nodup, List.pairwise_map]
    refine (pairwise_of_follows (hchain s hs)).imp fun {h p} hlt heq ↦ ?_
    have hfree : h.sample.free = p.sample.free := congrArg Prod.snd heq
    omega

/-- Minutes after ten o'clock, as `datetime.fromisoformat` reads them. -/
def clockTable (text : String) : Option ℚ :=
  if text = "2026-07-25 10:00:00" then some 1784973600
  else if text = "2026-07-25 10:01:00" then some 1784973660
  else if text = "2026-07-25 10:02:00" then some 1784973720
  else none

def hardSample (observedAt : String) : PressureSample where
  observedAt := observedAt
  totalMemoryMb := 100000
  freeMemoryMb := 35000
  hardPressure := true

def healthySample (observedAt : String) : PressureSample where
  observedAt := observedAt
  totalMemoryMb := 100000
  freeMemoryMb := 50000
  hardPressure := false

theorem pressure_law_two_episodes :
    PressureLaw clockTable (handle clockTable none [hardSample "2026-07-25 10:02:00",
      healthySample "2026-07-25 10:01:00", hardSample "2026-07-25 10:00:00"]).1 := by
  refine pressure_law_of_regular clockTable none (.inl rfl) _ ?_
  exact ⟨by decide, ⟨_, rfl⟩, by decide, by decide, ⟨_, rfl⟩, by decide, by decide, ⟨_, rfl⟩,
    by decide, trivial⟩

/-- The healthy sample of a node without a row is not written, and an older hard one reclaims. -/
theorem pressure_reclaims_out_of_order :
    ¬ PressureLaw clockTable (handle clockTable none [hardSample "2026-07-25 10:01:00",
      healthySample "2026-07-25 10:02:00"]).1 := by
  intro hlaw
  have := hlaw.newest _ _ (List.suffix_refl _) (by decide) _ (List.mem_cons_self ..)
  revert this
  decide

end Runs

end SlurmScheduler.Dispatch
