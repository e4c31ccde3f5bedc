import SlurmScheduler.Pool.Scripts

namespace SlurmScheduler.Pool

open Relational

/-- The write is no native suspicion that finds the session in its reach. -/
def Write.sparesQuarantine (sid : ℕ) (db : Db) : Write → Bool
  | .suspectNative x _ _ _ _ => db.passesOver sid fun s ↦ s.id == x &&
      (s.state.assignable || s.state == .unhealthy)
  | _ => true

def Healthy (db : Db) : Prop :=
  ∀ s ∈ db.sessions, s.state.assignable = true → s.quarantineReason = ""

theorem healthy_rules {C : Db → Write → Prop} :
    SessionRules C Sound fun s ↦ s.state.assignable = true → s.quarantineReason = "" where
  plain _ _ _ _ _ hm h := hm.healthy h
  placed _ _ hm h := hm.healthy h
  granted _ _ _ _ h := h

theorem healthy_invariant {C : Db → Write → Prop} :
    Invariant C fun db ↦ Sound db ∧ Healthy db :=
  healthy_rules.invariant fun _ _ _ _ _ _ _ ↦ by rintro ⟨⟩

structure Session.Quarantined (sid : ℕ) (s : Session) : Prop where
  id : s.id = sid
  reason : s.quarantineReason ≠ ""
  idle : s.state.assignable = false

theorem quarantined_rules (sid : ℕ) : SessionRules (fun db w ↦ w.sparesQuarantine sid db = true)
    Sound (Session.Quarantined sid) where
  plain {db w s s'} hdb _ hC hs hs' hm hq := by
    have hidle : s'.quarantineReason ≠ "" → s'.state.assignable = false := fun hreason ↦ by
      by_contra hne
      exact hreason (hm.healthy (fun h ↦ by simp [hq.idle] at h) (by simpa using hne))
    by_cases hkeeps : w.keeps .quarantine = true
    · have hreason := hm.quarantined hkeeps hq.reason
      exact ⟨hm.id.trans hq.id, hreason, hidle hreason⟩
    · -- a native suspicion, which finds the session out of its reach
      cases w <;> try exact (hkeeps rfl).elim
      rename_i x message evidence owner now
      have hsame : s' = s := Db.passesOver_row hC hs hs' hm.id hq.id
      rw [hsame]
      exact hq
  placed _ _ hm hq := by
    have hreason := hm.quarantined (by rintro ⟨⟩) hq.reason
    refine ⟨hm.id.trans hq.id, hreason, ?_⟩
    by_contra hne
    exact hreason (hm.healthy (fun h ↦ by simp [hq.idle] at h) (by simpa using hne))
  granted _ _ _ _ h := ⟨h.id, h.reason, h.idle⟩

/-- A quarantine is permanent as long as no native suspicion of the host reaches the session. -/
theorem quarantine_permanent (svc : Service) (db db' : Db) (s s' : Session)
    (h : Reachable svc AnyWrite db)
    (hrun : Run svc (fun db w ↦ w.sparesQuarantine s.id db = true) db db') (hs : s ∈ db.sessions)
    (hs' : s' ∈ db'.sessions) (hid : s'.id = s.id)
    (hreason : s.quarantineReason ≠ "") :
    s'.quarantineReason ≠ "" ∧ s'.state.assignable = false := by
  obtain ⟨hsound, hhealthy⟩ := h.holds healthy_invariant
  have hstable := ((quarantined_rules s.id).some_session fun _ hdb ↦ hdb).stable fun _ hdb ↦ hdb
  have hidle : s.state.assignable = false := by
    by_contra hne
    exact hreason (hhealthy s hs (by simpa using hne))
  obtain ⟨x, hx, hq⟩ := hrun.stable sound_invariant hstable hsound ⟨s, hs, rfl, hreason, hidle⟩
  have hxs : x = s' := Table.eq_of_key_eq hx hs' (hq.id.trans hid.symm)
  exact hxs ▸ ⟨hq.reason, hq.idle⟩

def uncleanDesktop : Db :=
  script sampleService (openDesktop .empty ++
    [.call {} 100010 (.requestLease (sampleRequest 1 0))] ++ attach 1 100011 ++
    [.call {} 100020 (.cancelLease 1 (clientToken 1) "done"),
     .call {} 100021 (.completeRelease 1 "host-token" 1 false "project is open")]) {}

theorem uncleanDesktop_reachable : Reachable sampleService AnyWrite uncleanDesktop :=
  reachable_script (by decide)

def faultAndBeat (kind : String) : List Event :=
  [.call {} 100030 (.reportSessionFault 1 "host-token" { kind }),
   .call {} 100031 (.heartbeatSession 1 "host-token" {})]

def afterFault (kind : String) : Db := script sampleService (faultAndBeat kind) uncleanDesktop

theorem quarantine_permanent_after_death :
    (afterFault "confirmed_aedt_death").desktop.quarantineReason ≠ "" ∧
      (afterFault "confirmed_aedt_death").desktop.state.assignable = false := by
  -- the facts share the runs that they are read off
  have hrun (h : _ ∧ _ ∧ _ ∧ _ ∧ _) := quarantine_permanent sampleService uncleanDesktop
    (afterFault "confirmed_aedt_death") uncleanDesktop.desktop
    (afterFault "confirmed_aedt_death").desktop uncleanDesktop_reachable
    (run_script_from (uncleanDesktop_reachable.holds sound_invariant) h.1)
    (Db.desktop_mem h.2.1) (Db.desktop_mem h.2.2.1) h.2.2.2.1 h.2.2.2.2
  exact hrun (by decide +kernel)

/-- After a suspicion the Desktop with the open project is ready for the next lease. -/
theorem suspicion_lifts_quarantine :
    ¬ ∀ (svc : Service) (db db' : Db), Reachable svc AnyWrite db → Run svc AnyWrite db db' →
      ∀ s ∈ db.sessions, ∀ s' ∈ db'.sessions, s'.id = s.id → s.state.terminal = false →
        s.quarantineReason ≠ "" → s'.quarantineReason ≠ "" ∧ s'.state.assignable = false := by
  intro h
  have hlifted (hfacts : _ ∧ _ ∧ _ ∧ _ ∧ _ ∧ _ ∧ ¬ _) :=
    hfacts.2.2.2.2.2.2 (h sampleService uncleanDesktop (afterFault "native_probe_suspect")
      uncleanDesktop_reachable
      (run_script_from (uncleanDesktop_reachable.holds sound_invariant) hfacts.1)
      uncleanDesktop.desktop (Db.desktop_mem hfacts.2.1)
      (afterFault "native_probe_suspect").desktop (Db.desktop_mem hfacts.2.2.1)
      hfacts.2.2.2.1 hfacts.2.2.2.2.1 hfacts.2.2.2.2.2.1).1
  exact hlifted (by decide +kernel)

end SlurmScheduler.Pool
