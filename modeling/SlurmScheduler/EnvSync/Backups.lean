import SlurmScheduler.EnvSync.Rows

namespace SlurmScheduler.EnvSync

open Concurrent

/-- The environment stands at its prefix or in a backup, or the new one is complete there. -/
def Home.Recoverable (h : Home) (path : String) : Prop :=
  h.tree path = .previous ∨ (path, .previous) ∈ h.backups ∨ h.tree path = .installed

/-- The lookup of the environment, where it comes next, succeeds. -/
def looksUp (w : World) : Move → Bool
  | .script i o =>
      w.targets[i]?.all fun t ↦ t.script.all fun s ↦ s.lines.head? != some .lookUp || o.ok
  | _ => true

namespace Script

structure Spares (s : Script) (h : Home) (path : String) : Prop where
  found : .lookUp ∉ s.lines → s.existing = path
  unmoved : s.moved = false → h.tree path = .previous ∧ (s.failed = false → .moveAside ∈ s.lines)
  moved : s.moved = true → (path, .previous) ∈ h.backups ∨
    (s.lines = [] ∧ h.tree path = .installed)

variable {env : String} {o : Outcome} {h h' : Home} {s s' : Script} {path : String}

theorem Spares.recoverable (hs : s.Spares h path) : h.Recoverable path := by
  cases hmoved : s.moved with
  | false => exact .inl (hs.unmoved hmoved).1
  | true => exact .inr ((hs.moved hmoved).imp (fun h ↦ h) And.right)

theorem spares_start (htree : h.tree path = .previous) : Spares {} h path where
  found hnot := absurd (by decide) hnot
  unmoved _ := ⟨htree, fun _ ↦ by decide⟩
  moved := nofun

/-- The lines up to the move leave the environment where it is. -/
theorem Spares.run_before (env : String) (hs : s.Spares h path) (hsound : s.Sound h) {line : Line}
    {rest : List Line} (hlines : s.lines = line :: rest)
    (hline : line ∈ [.bootstrap, .findConda, .makeArchiveDir, .lookUp, .findBase, .setTarget])
    (hfound : .lookUp ∉ rest → (run env o h { s with lines := rest } line).1.existing = path) :
    (run env o h { s with lines := rest } line).1.Spares
      (run env o h { s with lines := rest } line).2 path := by
  have hrest := after_of_suffix (hlines ▸ hsound.suffix)
  have hafter : .moveAside ∈ rest ∧ line ∉ [.moveAside, .makeTarget, .unpack, .relocate] := by
    rw [hrest]
    clear hlines hfound hrest
    revert hline
    cases line
    all_goals decide
  have hnot : s.moved = false := by
    by_contra h
    refine hsound.moved (by simpa using h) ?_
    rw [hlines]
    exact List.mem_cons_of_mem _ hafter.1
  have hmove : line ≠ .moveAside := fun h ↦ hafter.2 (h ▸ List.mem_cons_self)
  refine ⟨fun h ↦ hfound (by rwa [run_lines] at h), ?_, ?_⟩
  · intro _
    rw [run_tree hafter.2, run_lines]
    exact ⟨(hs.unmoved hnot).1, fun _ ↦ hafter.1⟩
  · intro h
    rw [run_moved hmove, hnot] at h
    cases h

theorem Spares.run_after (env : String) (hs : s.Spares h path) (hsound : s.Sound h) (hfailed : s.failed = false)
    {line : Line} {rest : List Line} (hlines : s.lines = line :: rest)
    (hline : line ∈ [.noteBackup, .makeTarget, .unpack, .relocate, .notePrefix]) :
    (run env o h { s with lines := rest } line).1.Spares
      (run env o h { s with lines := rest } line).2 path := by
  have hrest := after_of_suffix (hlines ▸ hsound.suffix)
  have hafter : .lookUp ∉ line :: rest ∧ .moveAside ∉ line :: rest ∧ line ≠ .lookUp ∧
      line ∉ [.moveAside, .pruneBackups] := by
    rw [hrest]
    clear hlines hrest
    revert hline
    cases line
    all_goals decide
  obtain ⟨hlookUp, hmoveAside, hne, hkept⟩ := hafter
  have hmove : line ≠ .moveAside := fun h ↦ hmoveAside (h ▸ List.mem_cons_self)
  have hmoved : s.moved = true := by
    by_contra h
    have hmem := (hs.unmoved (by simpa using h)).2 hfailed
    rw [hlines] at hmem
    exact hmoveAside hmem
  have hbackup : (path, .previous) ∈ h.backups := by
    obtain hmem | ⟨hnil, -⟩ := hs.moved hmoved
    · exact hmem
    · rw [hlines] at hnil
      cases hnil
  refine ⟨?_, ?_, ?_⟩
  · intro _
    rw [run_existing hne]
    exact hs.found (by rwa [hlines])
  · intro h
    rw [run_moved hmove, hmoved] at h
    cases h
  · intro _
    rw [run_backups hkept]
    exact .inl hbackup

theorem Spares.next (hs : s.Spares h path) (hsound : s.Sound h) (hpath : path ≠ "")
    (hregistered : h.registered = some path) (hlookup : s.lines.head? = some .lookUp → o.ok = true)
    (hnext : s.next env o h = some (s', h')) : s'.Spares h' path := by
  obtain ⟨hfailed, line, rest, hlines, hrun⟩ := next_eq_some hnext
  have hrest := after_of_suffix (hlines ▸ hsound.suffix)
  have hfound := hs.found
  have htarget := hsound.target
  obtain ⟨rfl, rfl⟩ := Prod.ext_iff.mp hrun
  have hbefore := hs.run_before env (o := o) hsound hlines
  have hafter := hs.run_after env (o := o) hsound hfailed hlines
  rw [hlines] at hfound hlookup htarget
  rw [hrest] at hbefore hafter hfound htarget ⊢
  cases line
  case bootstrap => exact hbefore (by decide) fun h ↦ absurd (by decide) h
  case findConda => exact hbefore (by decide) fun h ↦ absurd (by decide) h
  case makeArchiveDir => exact hbefore (by decide) fun h ↦ absurd (by decide) h
  case lookUp =>
    refine hbefore (by decide) fun _ ↦ ?_
    simp [run, hlookup rfl, hregistered]
  case findBase => exact hbefore (by decide) fun _ ↦ hfound (by decide)
  case setTarget => exact hbefore (by decide) fun _ ↦ hfound (by decide)
  case moveAside =>
    have hexisting := hfound (by decide)
    have hnot : s.moved = false := by
      by_contra h
      refine hsound.moved (by simpa using h) ?_
      rw [hlines]
      exact List.mem_cons_self
    have htree := (hs.unmoved hnot).1
    have hat : s.target = path := by
      rw [htarget (by decide) (by rw [hexisting]; exact hpath), hexisting]
    refine ⟨fun _ ↦ ?_, ?_, ?_⟩
    · rw [run_existing (by decide)]
      exact hexisting
    all_goals
      cases hok : o.ok
      all_goals simp [run, hpath, hok, hnot, hat, hexisting, htree]
  case pruneBackups =>
    have hexisting := hfound (by decide)
    have hmoved : s.moved = true := by
      by_contra h
      have hmem := (hs.unmoved (by simpa using h)).2 hfailed
      rw [hlines, hrest] at hmem
      exact absurd hmem (by decide)
    have hat : s.target = path := by
      rw [htarget (by decide) (by rw [hexisting]; exact hpath), hexisting]
    refine ⟨fun _ ↦ ?_, ?_, ?_⟩
    · rw [run_existing (by decide)]
      exact hexisting
    · intro h
      rw [run_moved (by decide), hmoved] at h
      cases h
    · intro _
      rw [run_tree (by decide), run_lines, ← hat]
      refine .inr ⟨rfl, hsound.installed hfailed ?_⟩
      rw [hlines, hrest]
      decide
  all_goals exact hafter (by decide)

end Script

section Runs

variable {env : String} {id : ℕ} {w : World} {i : ℕ} {t t' : Target} {m : Move}
variable {had home : Home} {hadOverlay overlay : Option Overlay} {path : String}

def Target.Spares (path : String) (t : Target) (home : Home) : Prop :=
  (t.script = none → home.tree path = .previous) ∧
    ∀ s, t.script = some s → s.Spares home path

theorem Target.Spares.change (hs : t.Spares path (w.homes t.account)) (hpath : path ≠ "")
    (hfollows : t.Follows id had (w.homes t.account) hadOverlay (w.overlays t.account))
    (hregistered : had.registered = some path) (ht : w.targets[i]? = some t)
    (hlookup : looksUp w m = true) (h : RowChange env id w i t m t' home overlay) :
    t'.Spares path home := by
  cases h with
  | launched _ => exact hs
  | cancelled _ => exact hs
  | thread hnext =>
    obtain hsame | ⟨hphase, hlaunched⟩ := Target.next_script hnext
    · rw [Target.Spares, hsame]
      exact hs
    · rw [Target.Spares, hlaunched]
      refine ⟨nofun, ?_⟩
      intro s₁ hs₁
      cases hs₁
      exact Script.spares_start (hs.1 (hfollows.early (by rw [hphase]; rfl)))
  | script hscript hnext =>
    refine ⟨nofun, ?_⟩
    intro s₁ hs₁
    cases hs₁
    refine (hs.2 _ hscript).next (hfollows.script _ hscript) hpath
      (hfollows.registered.trans hregistered) ?_ hnext
    intro hhead
    simpa [looksUp, ht, hscript, hhead] using hlookup

end Runs

/-- While the lookups of the environment succeed, no run loses the environment that an account had
before the new one is complete at its prefix. -/
theorem previous_recoverable {accounts targetAccounts names : List String}
    {reference sourceEnvName env : String} {id : ℕ} {homes : String → Home}
    {overlays : String → Option Overlay} {w : World}
    (hstart : start accounts reference sourceEnvName targetAccounts = .ok (env, names))
    (h : Reached (step env id) (fun w m ↦ looksUp w m = true)
      (World.started names homes overlays) w) :
    ∀ t ∈ w.targets, ∀ path, path ≠ "" → (homes t.account).completeAt path = true →
      (w.homes t.account).Recoverable path := by
  intro t ht path hpath hcomplete
  have hk : w.Keeps (fun t home overlay ↦
      t.Follows id (homes t.account) home (overlays t.account) overlay ∧
        ((homes t.account).completeAt path = true → t.Spares path home)) names overlays := by
    refine h.keeps (World.keeps_started fun account ↦
      ⟨Target.follows_waiting account, fun hcomplete ↦ ⟨fun _ ↦ ?_, nofun⟩⟩) ?_
    · rw [Home.completeAt, Bool.and_eq_true, beq_iff_eq, beq_iff_eq] at hcomplete
      exact hcomplete.2
    · intro v m v' hv hlookup hstep
      refine hv.step (start_nodup hstart) hstep ?_
      intro i t t' home overlay ht hchange hbefore
      rw [hchange.account]
      refine ⟨hbefore.1.change hchange, fun hcomplete ↦ ?_⟩
      have hregistered : (homes t.account).registered = some path := by
        rw [Home.completeAt, Bool.and_eq_true, beq_iff_eq] at hcomplete
        exact hcomplete.1
      exact (hbefore.2 hcomplete).change hpath hbefore.1 hregistered ht hlookup hchange
  obtain ⟨i, ht⟩ := List.mem_iff_getElem?.mp ht
  have hspares := (hk.each i t ht).2 hcomplete
  cases hscript : t.script with
  | none => exact .inl (hspares.1 hscript)
  | some s => exact (hspares.2 s hscript).recoverable

def stopped : List Move :=
  smooth.take 19 ++ [.cancel, .cancelNext 0, .cancelNext 0, .cancelNext 0]

theorem previous_recoverable_stopped : ∃ w : World, w.job = .cancelled ∧
    ∀ t ∈ w.targets, (w.homes t.account).Recoverable "/home1/ann/miniconda3/envs/aedt" := by
  have hrun : (afterMoves (fun w m ↦ if looksUp w m then step "aedt" 7 w m else none)
      (World.started ["ann"] (fun _ ↦ furnished) fun _ ↦ none) stopped).any
        (fun w ↦ w.job == .cancelled) = true := by decide
  obtain ⟨w, h, hjob⟩ := exists_reached hrun
  have hstart : start ["bob", "ann"] "bob" " aedt " ["ann", "ann "] = .ok ("aedt", ["ann"]) := rfl
  refine ⟨w, by simpa using hjob, fun t ht ↦ ?_⟩
  exact previous_recoverable hstart h t ht _ (by decide) (by decide)

end SlurmScheduler.EnvSync
