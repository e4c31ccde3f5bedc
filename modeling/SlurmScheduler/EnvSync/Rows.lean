import SlurmScheduler.EnvSync.Records

namespace SlurmScheduler.EnvSync

open Concurrent

def JobPhase.unlaunched : JobPhase → ℕ → Prop
  | .begun, _ | .packing, _ | .packed, _ => True
  | .launching next, i => next ≤ i
  | _, _ => False

inductive RowChange (env : String) (id : ℕ) (w : World) (i : ℕ) (t : Target) :
    Move → Target → Home → Option Overlay → Prop
  | launched {ok : Bool} (hphase : t.phase = .waiting) :
      RowChange env id w i t (.job ok) { t with phase := .started } (w.homes t.account)
        (w.overlays t.account)
  | cancelled {call : ℕ} {rest : List ℕ} (hcall : w.cancels[call]? = some (.marking (i :: rest))) :
      RowChange env id w i t (.cancelNext call) { t with status := .cancelled } (w.homes t.account)
        (w.overlays t.account)
  | thread {ok : Bool} {t' : Target} {overlay : Option Overlay}
      (hnext : t.next id w.job ok (w.overlays t.account) = some (t', overlay)) :
      RowChange env id w i t (.target i ok) t' (w.homes t.account) overlay
  | script {o : Outcome} {s s' : Script} {home : Home} (hscript : t.script = some s)
      (hnext : s.next env o (w.homes t.account) = some (s', home)) :
      RowChange env id w i t (.script i o) { t with script := some s' } home
        (w.overlays t.account)

section Rows

variable {env : String} {id : ℕ} {w w' : World} {i : ℕ} {t t' : Target} {m : Move} {home : Home}
variable {overlay : Option Overlay}

theorem RowChange.account (h : RowChange env id w i t m t' home overlay) :
    t'.account = t.account := by
  cases h with
  | launched _ => rfl
  | cancelled _ => rfl
  | thread hnext => exact Target.next_account hnext
  | script _ _ => rfl

structure RowSet (w w' : World) (i : ℕ) (t t' : Target) (home : Home) (overlay : Option Overlay) :
    Prop where
  at_i : w.targets[i]? = some t
  job : w'.job = w.job
  targets : w'.targets = w.targets.set i t'
  homes : w'.homes = Function.update w.homes t.account home
  overlays : w'.overlays = Function.update w.overlays t.account overlay
  unlaunched : ∀ j, w'.jobPhase.unlaunched j → w.jobPhase.unlaunched j
  waiting : t.phase = .waiting → w'.jobPhase.unlaunched i → t'.phase = .waiting

structure RowsSame (w w' : World) : Prop where
  targets : w'.targets = w.targets
  homes : w'.homes = w.homes
  overlays : w'.overlays = w.overlays
  unlaunched : ∀ j, w'.jobPhase.unlaunched j → w.jobPhase.unlaunched j

theorem jobNext_rows {ok : Bool} (hwaiting : ∀ (i : ℕ) (t : Target), w.targets[i]? = some t →
    w.jobPhase.unlaunched i → t.phase = .waiting) (hstep : jobNext w ok = some w') :
    RowsSame w w' ∨ ∃ i t t' home overlay, RowSet w w' i t t' home overlay ∧
      RowChange env id w i t (.job ok) t' home overlay := by
  cases hphase : w.jobPhase
  all_goals rw [jobNext, hphase] at hstep
  case launching next =>
    dsimp only at hstep
    split at hstep
    · rename_i hlt
      cases hstep
      have ht : w.targets[next]? = some w.targets[next] := List.getElem?_eq_getElem hlt
      right
      refine ⟨next, w.targets[next], _, _, _, ?_,
        .launched (hwaiting next _ ht (by rw [hphase]; exact le_rfl))⟩
      refine ⟨ht, rfl, modify_of_getElem? ht, (Function.update_eq_self _ _).symm,
        (Function.update_eq_self _ _).symm, ?_, ?_⟩
      · intro j hj
        rw [hphase]
        exact Nat.le_of_succ_le hj
      · intro _ hj
        exact absurd (show next + 1 ≤ next from hj) (by omega)
    · cases hstep
      exact .inl ⟨rfl, rfl, rfl, fun j hj ↦ hj.elim⟩
  case joining =>
    dsimp only at hstep
    split at hstep
    · cases hstep
      exact .inl ⟨rfl, rfl, rfl, fun j hj ↦ hj.elim⟩
    · cases hstep
  case begun =>
    cases hstep
    exact .inl ⟨rfl, rfl, rfl, fun j _ ↦ by rw [hphase]; trivial⟩
  case packing =>
    cases hstep
    exact .inl ⟨rfl, rfl, rfl, fun j _ ↦ by rw [hphase]; trivial⟩
  case packed =>
    cases hstep
    exact .inl ⟨rfl, rfl, rfl, fun j _ ↦ by rw [hphase]; trivial⟩
  case joined =>
    cases hstep
    refine .inl ⟨rfl, rfl, rfl, ?_⟩
    intro j hj
    dsimp only at hj
    split at hj
    all_goals exact hj.elim
  case raised =>
    cases hstep
    refine .inl ⟨rfl, rfl, rfl, ?_⟩
    intro j hj
    dsimp only at hj
    split at hj
    all_goals exact hj.elim
  case ended => cases hstep
  all_goals
    cases hstep
    exact .inl ⟨rfl, rfl, rfl, fun j hj ↦ hj.elim⟩

theorem cancelNext_rows {call : ℕ} (hstep : cancelNext w call = some w') :
    RowsSame w w' ∨ ∃ i t t' home overlay, RowSet w w' i t t' home overlay ∧
      RowChange env id w i t (.cancelNext call) t' home overlay := by
  unfold cancelNext at hstep
  split at hstep
  · cases hstep
    exact .inl ⟨rfl, rfl, rfl, fun _ h ↦ h⟩
  · cases hstep
    exact .inl ⟨rfl, rfl, rfl, fun _ h ↦ h⟩
  · rename_i i rest hcall
    cases hstep
    cases ht : w.targets[i]? with
    | none => exact .inl ⟨modify_of_none ht, rfl, rfl, fun _ h ↦ h⟩
    | some t =>
      refine .inr ⟨i, t, _, _, _, ?_, .cancelled hcall⟩
      exact ⟨ht, rfl, modify_of_getElem? ht, (Function.update_eq_self _ _).symm,
        (Function.update_eq_self _ _).symm, fun _ h ↦ h, fun h _ ↦ h⟩
  · cases hstep

theorem step_rows (hwaiting : ∀ (i : ℕ) (t : Target), w.targets[i]? = some t →
    w.jobPhase.unlaunched i → t.phase = .waiting) (hstep : step env id w m = some w') :
    RowsSame w w' ∨ ∃ i t t' home overlay, RowSet w w' i t t' home overlay ∧
      RowChange env id w i t m t' home overlay := by
  cases m with
  | cancel =>
    obtain ⟨-, hw⟩ := Option.ite_none_left_eq_some.mp hstep
    cases hw
    exact .inl ⟨rfl, rfl, rfl, fun _ h ↦ h⟩
  | cancelNext call => exact cancelNext_rows hstep
  | job ok => exact jobNext_rows hwaiting hstep
  | target i ok =>
    obtain ⟨t, ht, hstep⟩ := Option.bind_eq_some_iff.mp hstep
    obtain ⟨⟨t', overlay⟩, hnext, hw⟩ := Option.bind_eq_some_iff.mp hstep
    cases hw
    refine .inr ⟨i, t, t', _, overlay, ?_, .thread hnext⟩
    refine ⟨ht, rfl, rfl, (Function.update_eq_self _ _).symm, rfl, fun _ h ↦ h, ?_⟩
    intro hphase
    rw [Target.next, hphase] at hnext
    cases hnext
  | script i o =>
    obtain ⟨t, ht, hstep⟩ := Option.bind_eq_some_iff.mp hstep
    obtain ⟨s, hscript, hstep⟩ := Option.bind_eq_some_iff.mp hstep
    obtain ⟨⟨s', home⟩, hnext, hw⟩ := Option.bind_eq_some_iff.mp hstep
    cases hw
    refine .inr ⟨i, t, _, home, _, ?_, .script hscript hnext⟩
    exact ⟨ht, rfl, rfl, rfl, (Function.update_eq_self _ _).symm, fun _ h ↦ h, fun h _ ↦ h⟩

structure World.Keeps (P : Target → Home → Option Overlay → Prop) (names : List String)
    (hadOverlays : String → Option Overlay) (w : World) : Prop where
  accounts : w.targets.map (·.account) = names
  each : ∀ (i : ℕ) (t : Target), w.targets[i]? = some t →
    P t (w.homes t.account) (w.overlays t.account)
  others : ∀ account ∉ names, w.overlays account = hadOverlays account
  waiting : ∀ (i : ℕ) (t : Target), w.targets[i]? = some t → w.jobPhase.unlaunched i →
    t.phase = .waiting

variable {P : Target → Home → Option Overlay → Prop} {names : List String} {j : ℕ} {u : Target}
variable {homes : String → Home} {overlays hadOverlays : String → Option Overlay}

theorem World.keeps_started
    (h : ∀ account, P { account } (homes account) (overlays account)) :
    (World.started names homes overlays).Keeps P names overlays where
  accounts := by
    rw [World.started, List.map_map]
    exact List.map_id names
  each i t ht := by
    obtain ⟨account, -, rfl⟩ := List.mem_map.mp (List.mem_of_getElem? ht)
    exact h account
  others _ _ := rfl
  waiting i t ht _ := by
    obtain ⟨account, -, rfl⟩ := List.mem_map.mp (List.mem_of_getElem? ht)
    rfl

namespace World.Keeps

theorem eq_of_account (hk : w.Keeps P names hadOverlays) (hnames : names.Nodup)
    (ht : w.targets[i]? = some t) (hu : w.targets[j]? = some u) (haccount : u.account = t.account) :
    j = i := by
  obtain ⟨hlt, -⟩ := List.getElem?_eq_some_iff.mp hu
  rw [← hk.accounts] at hnames
  apply (List.getElem?_inj (by rwa [List.length_map]) hnames).mp
  rw [List.getElem?_map, List.getElem?_map, ht, hu, Option.map_some, Option.map_some, haccount]

theorem mem_names (hk : w.Keeps P names hadOverlays) (ht : w.targets[i]? = some t) :
    t.account ∈ names := by
  rw [← hk.accounts]
  exact List.mem_map_of_mem (List.mem_of_getElem? ht)

/-- The rows with their accounts may be read in another way. -/
theorem imp {Q : Target → Home → Option Overlay → Prop} (hk : w.Keeps P names hadOverlays)
    (h : ∀ (i : ℕ) (t : Target), w.targets[i]? = some t →
      P t (w.homes t.account) (w.overlays t.account) →
        Q t (w.homes t.account) (w.overlays t.account)) : w.Keeps Q names hadOverlays :=
  { hk with each := fun i t ht ↦ h i t ht (hk.each i t ht) }

theorem same (hk : w.Keeps P names hadOverlays) (hsame : RowsSame w w') :
    w'.Keeps P names hadOverlays := by
  constructor
  · rw [hsame.targets]
    exact hk.accounts
  · rw [hsame.targets, hsame.homes, hsame.overlays]
    exact hk.each
  · rw [hsame.overlays]
    exact hk.others
  · intro i t ht hphase
    rw [hsame.targets] at ht
    exact hk.waiting i t ht (hsame.unlaunched i hphase)

theorem set (hk : w.Keeps P names hadOverlays) (hnames : names.Nodup)
    (hset : RowSet w w' i t t' home overlay) (haccount : t'.account = t.account)
    (hP : P t' home overlay) : w'.Keeps P names hadOverlays := by
  constructor
  · rw [← hk.accounts, hset.targets, List.map_set, haccount]
    apply set_of_getElem?
    rw [List.getElem?_map, hset.at_i, Option.map_some]
  · intro j u hu
    rw [hset.targets] at hu
    rw [hset.homes, hset.overlays]
    obtain ⟨rfl, rfl⟩ | ⟨hji, hu⟩ := getElem?_set_cases hu
    · rw [haccount, Function.update_self, Function.update_self]
      exact hP
    · have hne : u.account ≠ t.account :=
        fun h ↦ hji (hk.eq_of_account hnames hset.at_i hu h)
      rw [Function.update_of_ne hne, Function.update_of_ne hne]
      exact hk.each j u hu
  · intro account hnot
    have hne : account ≠ t.account := by
      intro h
      rw [h] at hnot
      exact hnot (hk.mem_names hset.at_i)
    rw [hset.overlays, Function.update_of_ne hne]
    exact hk.others account hnot
  · intro j u hu hphase
    rw [hset.targets] at hu
    obtain ⟨rfl, rfl⟩ | ⟨-, hu⟩ := getElem?_set_cases hu
    · exact hset.waiting (hk.waiting j t hset.at_i (hset.unlaunched j hphase)) hphase
    · exact hk.waiting j u hu (hset.unlaunched j hphase)

theorem step (hk : w.Keeps P names hadOverlays) (hnames : names.Nodup)
    (hstep : EnvSync.step env id w m = some w')
    (hchange : ∀ (i : ℕ) (t t' : Target) (home : Home) (overlay : Option Overlay),
      w.targets[i]? = some t → RowChange env id w i t m t' home overlay →
        P t (w.homes t.account) (w.overlays t.account) → P t' home overlay) :
    w'.Keeps P names hadOverlays := by
  obtain hsame | ⟨i, t, t', home, overlay, hset, hrow⟩ := step_rows hk.waiting hstep
  · exact hk.same hsame
  · exact hk.set hnames hset hrow.account
      (hchange i t t' home overlay hset.at_i hrow (hk.each i t hset.at_i))

end World.Keeps

theorem Target.Follows.change {had : Home} {hadOverlay : Option Overlay}
    (hs : t.Follows id had (w.homes t.account) hadOverlay (w.overlays t.account))
    (h : RowChange env id w i t m t' home overlay) :
    t'.Follows id had home hadOverlay overlay := by
  cases h with
  | launched hphase => exact hs.launch hphase
  | cancelled _ => exact hs.cancel
  | thread hnext => exact hs.next hnext
  | script hscript hnext => exact hs.scriptNext hscript hnext

end Rows

/-- The install script of the target has ended well, the new environment stands at its prefix and
the overlay of the account names it. -/
def Target.Installed (id : ℕ) (w : World) (t : Target) : Prop :=
  ∃ s, t.script = some s ∧ s.lines = [] ∧ s.failed = false ∧
    (w.homes t.account).tree s.target = .installed ∧
      w.overlays t.account = some ⟨Slurm.Text.strip s.target, id⟩

/-- Whatever is cancelled, fails or is lost, an overlay is written and a row is completed only for
an installed environment. -/
theorem overlay_installed {accounts targetAccounts names : List String}
    {reference sourceEnvName env : String} {id : ℕ} {homes : String → Home}
    {overlays : String → Option Overlay} {w : World}
    (hstart : start accounts reference sourceEnvName targetAccounts = .ok (env, names))
    (h : Reached (step env id) (fun _ _ ↦ True) (World.started names homes overlays) w) :
    (∀ account, w.overlays account ≠ overlays account →
      ∃ t ∈ w.targets, t.account = account ∧ t.Installed id w) ∧
    ∀ t ∈ w.targets, t.status = .completed → t.Installed id w := by
  have hk : w.Keeps (fun t home overlay ↦
      t.Follows id (homes t.account) home (overlays t.account) overlay) names overlays := by
    refine h.keeps (World.keeps_started fun account ↦ Target.follows_waiting account) ?_
    intro v m v' hv _ hstep
    refine hv.step (start_nodup hstart) hstep ?_
    intro i t t' home overlay _ hchange hfollows
    rw [hchange.account]
    exact hfollows.change hchange
  have hinstalled (i : ℕ) (t : Target) (ht : w.targets[i]? = some t)
      (hrecorded : t.phase.hasRecorded = true) : t.Installed id w := by
    have hfollows := hk.each i t ht
    obtain ⟨s, hs, hlines, hfailed⟩ :=
      hfollows.late (t.phase.late_of_hasRecorded hrecorded)
    obtain ⟨s', hs', hoverlay⟩ := hfollows.recorded hrecorded
    rw [hs] at hs'
    cases hs'
    have htree := (hfollows.script s hs).installed hfailed (by rw [hlines]; nofun)
    exact ⟨s, hs, hlines, hfailed, htree, hoverlay⟩
  refine ⟨?_, ?_⟩
  · intro account hne
    have hmem : account ∈ names := by
      by_contra hnot
      exact hne (hk.others account hnot)
    rw [← hk.accounts] at hmem
    obtain ⟨t, ht, rfl⟩ := List.mem_map.mp hmem
    obtain ⟨i, hi⟩ := List.mem_iff_getElem?.mp ht
    exact ⟨t, ht, rfl, hinstalled i t hi ((hk.each i t hi).changed hne)⟩
  · intro t ht hcompleted
    obtain ⟨i, hi⟩ := List.mem_iff_getElem?.mp ht
    refine hinstalled i t hi ?_
    rw [(hk.each i t hi).completed hcompleted]
    rfl

def furnished : Home where
  base := "/home1/ann/miniconda3"
  registered := some "/home1/ann/miniconda3/envs/aedt"
  tree := fun path ↦ if path = "/home1/ann/miniconda3/envs/aedt" then .previous else .absent

def smooth : List Move :=
  List.replicate 5 (.job true) ++ List.replicate 4 (.target 0 true) ++
    List.replicate 13 (.script 0 {}) ++ List.replicate 5 (.target 0 true) ++
      List.replicate 4 (.job true)

theorem overlay_installed_smooth : ∃ w : World, w.job = .completed ∧
    ∀ t ∈ w.targets, t.status = .completed → t.Installed 7 w := by
  have hrun : (afterMoves (fun w m ↦ if (fun _ _ ↦ true) w m then step "aedt" 7 w m else none)
      (World.started ["ann"] (fun _ ↦ furnished) fun _ ↦ none) smooth).any
        (fun w ↦ w.job == .completed) = true := by decide
  obtain ⟨w, h, hjob⟩ := exists_reached hrun
  have hstart : start ["bob", "ann"] "bob" " aedt " ["ann", "ann "] = .ok ("aedt", ["ann"]) := rfl
  exact ⟨w, by simpa using hjob, (overlay_installed hstart (h.mono fun _ _ _ ↦ trivial)).2⟩

end SlurmScheduler.EnvSync
