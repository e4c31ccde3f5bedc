import SlurmScheduler.Pool.Scripts

namespace SlurmScheduler.Pool

open Relational

variable {db : Db}

def Vacant (db : Db) : Prop := ∀ s ∈ db.sessions, s.state = .ready → db.used s.id = 0

/-- After its refresh a session is ready only without slot holders. -/
theorem refreshSession_ready {sid : ℕ} {now : Time} {s : Session}
    (hs : s ∈ (refreshSession sid now db).sessions) (hid : s.id = sid) (hready : s.state = .ready) :
    (refreshSession sid now db).used sid = 0 := by
  change db.used sid = 0
  obtain ⟨x, -, rfl⟩ := Db.mem_onSessions.mp hs
  split at hready
  · simp only [Session.refreshed] at hready
    split at hready
    · cases hready
    · split at hready
      · simp_all
      · cases hready
  · rename_i hp
    rw [if_neg hp] at hid
    simp [hid, hready, SessionState.refreshable] at hp

theorem place_ready {l : Lease} {sid slot : ℕ} {offerExpires now : Time} {s : Session}
    (hs : s ∈ (place l sid slot offerExpires now db).sessions) (hid : s.id = sid)
    (hready : s.state = .ready) : (place l sid slot offerExpires now db).used sid = 0 := by
  unfold place at hs ⊢
  dsimp only at hs ⊢
  exact refreshSession_ready hs hid hready

theorem vacant_rules {C : Db → Write → Prop} : WriteRules C Sound Vacant where
  plain := by
    intro db w _ _ _ _ hmoves hdb s' hs' hready
    obtain ⟨s, hs, hm⟩ := hmoves.sessions.exists_left hs'
    have hle := hmoves.used_le s.id
    rw [hm.id]
    rcases hmoves.ready s hs s' hs' hm.id hready with hold | hzero
    · have hvacant := hdb s hs hold
      omega
    · exact hzero
  reserve {db terms tasks now _} _ _ _ _ hdb := by
    obtain ⟨_, hframe⟩ := reserve_frame terms tasks now db
    rwa [hframe]
  openCanary {db sid group profile slots expires now _} _ _ _ _ hdb := by
    obtain ⟨_, hframe⟩ := openCanary_frame sid group profile slots expires now db
    rwa [hframe]
  admitLease _ _ _ hdb s hs hready := by
    rw [admitLease_sessions] at hs
    rw [admitLease_used]
    exact hdb s hs hready
  place := by
    intro db l s slot offerExpires now hsound hl hq hmem hplace _ _ hdb x' hx' hready
    by_cases hid : x'.id = s.id
    · rw [hid]
      exact place_ready hx' hid hready
    · have hrun := hsound.registered.running
        ⟨s, hmem, rfl, hsound.registered.assignable s hmem hplace.assignable⟩
      have hmoves : Moves (· ≠ .profiles) (seatLease l s.id slot offerExpires now db)
          (place l s.id slot offerExpires now db) := moves_place hrun fun h ↦ h rfl
      obtain ⟨x, hx, hm⟩ := hmoves.sessions.exists_left hx'
      have hle := hmoves.used_le x.id
      have hseat := seatLease_used_le s.id slot offerExpires now hl hq x.id
      rw [if_neg (hm.id ▸ hid)] at hseat
      rw [hm.id]
      rcases hmoves.ready x hx x' hx' hm.id hready with hold | hzero
      · rw [seatLease_sessions] at hx
        have hvacant := hdb x hx hold
        omega
      · exact hzero
  grantWave := by
    intro db s leaseIds now _ hmem _ _ hdb x' hx' hready
    obtain ⟨x, hx, hm⟩ := (grantWave_sessions hmem leaseIds now).exists_left hx'
    rw [hm.same (·.state) fun _ ↦ rfl] at hready
    have hle : (grantWave s.id leaseIds now db).used x.id ≤ db.used x.id :=
      (grantWave_leases hmem leaseIds now).count_le fun _ _ hlm h ↦ hlm.holds ▸ h
    rw [hm.same (·.id) fun _ ↦ rfl]
    have hvacant := hdb x hx hready
    omega
  startSession := by
    intro db key accountName nodeName allocationId slots now _ hdb s hs hready
    rcases mem_startSession.mp hs with hs | rfl
    · exact hdb s hs hready
    · cases hready
  scheduler _ _ _ _ hdb := hdb

theorem vacant_invariant {C : Db → Write → Prop} : Invariant C fun db ↦ Sound db ∧ Vacant db := by
  have hstable := vacant_rules (C := C).stable fun _ hdb ↦ hdb
  refine sound_invariant.and ?_ (hstable.mono (fun _ hdb ↦ hdb.1) fun _ _ hC ↦ hC)
  simp [Vacant, Table.mem_def, Table.empty]

/-- The write recovers no sealed session without slot holders. -/
def Write.recoversUnsealed (db : Db) : Write → Bool
  | .recoverSession sid _ => db.sessions.rows.all fun s ↦ s.id != sid ||
      s.solveBatchSealedAt.isNone || db.used sid != 0
  | _ => true

theorem Db.used_of_sealable {s : Session} {allowUnderfilled : Bool}
    (h : db.sealable s allowUnderfilled = true) : db.used s.id ≠ 0 := by
  simp only [Db.sealable, Bool.and_eq_true] at h
  intro hzero
  have hnone : db.occupants s.id = [] := by
    refine List.eq_nil_iff_forall_not_mem.mpr fun l hl ↦ ?_
    obtain ⟨hmem, hholds⟩ := Table.mem_select.mp hl
    exact absurd hholds (Bool.eq_false_iff.mp (Table.count_eq_zero.mp hzero l hmem))
  simp [hnone] at h

theorem unsealed_rules : SessionRules (fun db w ↦ w.recoversUnsealed db = true)
    (fun db ↦ Sound db ∧ Vacant db) fun s ↦ s.state = .ready → s.solveBatchSealedAt = none where
  plain {db w s s'} _ _ hC hs hs' hm hq hready := by
    have hold : s.state = .ready → s'.solveBatchSealedAt = none := fun h ↦ by
      by_contra hne
      have hsome := Option.isSome_iff_ne_none.mpr hne
      exact hne ((hm.sealed_ hsome).trans (hq h))
    by_cases hkeeps : w.keeps .seals = true
    · exact (hm.emptied hkeeps hready).elim hold id
    · cases w <;> try exact (hkeeps rfl).elim
      rename_i sid now _
      have hrow := Db.onSessions_row hs hs' hm.id
      split at hrow
      · rename_i hp
        simp only [Bool.and_eq_true, beq_iff_eq] at hp
        simp only [Write.recoversUnsealed, List.all_eq_true, Bool.or_eq_true, bne_iff_ne, ne_eq,
          Option.isNone_iff_eq_none] at hC
        rw [hrow] at hready ⊢
        have hempty : db.used sid = 0 := by
          by_contra hne
          simp [hne] at hready
        rcases hC s hs with (hne | hnone) | hne
        · exact (hne hp.1.1.1).elim
        · exact hnone
        · exact (hne hempty).elim
      · exact hrow ▸ hold (hrow ▸ hready)
  placed _ _ hm hq hready := by
    rcases hm.emptied (by rintro ⟨⟩) hready with hold | hnone
    · by_contra hne
      have hsome := Option.isSome_iff_ne_none.mpr hne
      exact hne ((hm.sealed_ hsome).trans (hq hold))
    · exact hnone
  granted {db s leaseIds} now hdb hs hgrant hq hready := by
    rcases hgrant.wave with ⟨-, allowUnderfilled, hsealable⟩ | ⟨hsealed, -⟩
    · exact (Db.used_of_sealable hsealable (hdb.2 s hs hready)).elim
    · simp [hq hready] at hsealed

theorem unsealed_invariant : Invariant (fun db w ↦ w.recoversUnsealed db = true) fun db ↦
    (Sound db ∧ Vacant db) ∧ ∀ s ∈ db.sessions, s.state = .ready → s.solveBatchSealedAt = none := by
  have hstable := (unsealed_rules.all_sessions (fun _ hdb ↦ hdb.1)
    fun _ _ _ _ _ _ _ ↦ by rintro ⟨⟩).stable fun _ hdb ↦ hdb.1
  refine vacant_invariant.and ?_ (hstable.mono (fun _ hdb ↦ hdb.1) fun _ _ hC ↦ hC)
  simp [Table.mem_def, Table.empty]

/-- If no sealed session is recovered after its last slot holder is gone, then every ready session
is unsealed; it has no slot holder in any case. -/
theorem ready_unsealed (svc : Service) (db : Db)
    (h : Reachable svc (fun db w ↦ w.recoversUnsealed db = true) db) (s : Session)
    (hs : s ∈ db.sessions) (hready : s.state = .ready) :
    s.solveBatchSealedAt = none ∧ db.used s.id = 0 := by
  obtain ⟨⟨-, hvacant⟩, hunsealed⟩ := h.holds unsealed_invariant
  exact ⟨hunsealed s hs hready, hvacant s hs hready⟩

/-- The only project of a sealed batch ends on a Desktop that its host suspects; the remaining
events are the acknowledgement of its release and the heartbeat that recovers the Desktop. -/
def sealedSolve (rest : List Event) : Db :=
  script sampleService (openDesktop .empty ++
    [.call {} 100010 (.requestLease (sampleRequest 1 0))] ++ attach 1 100011 ++
    [.call {} 100012 (.requestSolvePermit 1 (clientToken 1) true),
     .call {} 100020 (.cancelLease 1 (clientToken 1) "done"),
     .call {} 100021 (.reportSessionFault 1 "host-token" { kind := "native_probe_suspect" })] ++
    rest) {}

def acknowledge (now : Time) : Event := .call {} now (.completeRelease 1 "host-token" 1 true "")

def beat (now : Time) : Event := .call {} now (.heartbeatSession 1 "host-token" {})

def recoveredFirst : Db := sealedSolve [beat 100022, acknowledge 100023]

theorem ready_unsealed_recovered_first :
    recoveredFirst.desktop.solveBatchSealedAt = none ∧
      recoveredFirst.used recoveredFirst.desktop.id = 0 := by
  -- the facts share the run that they are read off
  have hready (hfacts : _ ∧ _ ∧ _) := ready_unsealed sampleService recoveredFirst
    (reachable_script hfacts.1) recoveredFirst.desktop (Db.desktop_mem hfacts.2.1) hfacts.2.2
  exact hready (by decide +kernel)

def acknowledgedFirst : Db := sealedSolve [acknowledge 100022, beat 100023]

/-- The recovered Desktop is ready, empty and sealed. -/
theorem recovery_keeps_seal :
    ¬ ∀ (svc : Service) (db : Db), Reachable svc AnyWrite db → ∀ s ∈ db.sessions,
      s.state = .ready → s.solveBatchSealedAt = none ∧ db.used s.id = 0 := by
  intro h
  have hsealed (hfacts : _ ∧ _ ∧ _ ∧ ¬ _) := hfacts.2.2.2 (h sampleService acknowledgedFirst
    (reachable_script hfacts.1) acknowledgedFirst.desktop (Db.desktop_mem hfacts.2.1)
    hfacts.2.2.1).1
  exact hsealed (by decide +kernel)

end SlurmScheduler.Pool
