import SlurmScheduler.Pool.Scripts

namespace SlurmScheduler.Pool

open Relational

structure Lease.Compatible (a b : Lease) : Prop where
  shared : a.exclusiveSession = false ∧ b.exclusiveSession = false
  canary : a.mixedCanaryAdmissionId = b.mixedCanaryAdmissionId
  protocol : 2 ≤ a.protocolVersion ↔ 2 ≤ b.protocolVersion
  group : a.protocolVersion < 2 → a.placementGroup = b.placementGroup
  profile : 2 ≤ a.protocolVersion → a.sessionProfile = b.sessionProfile
  policy : 2 ≤ a.protocolVersion → a.isolationPolicy = b.isolationPolicy
  family : 2 ≤ a.protocolVersion → a.isolationPolicy = .family → a.workloadFamily = b.workloadFamily

namespace Lease.Compatible

variable {a b a' b' : Lease}

theorem symm (h : a.Compatible b) : b.Compatible a where
  shared := h.shared.symm
  canary := h.canary.symm
  protocol := h.protocol.symm
  group hb := (h.group (by have := h.protocol; omega)).symm
  profile hb := (h.profile (h.protocol.mpr hb)).symm
  policy hb := (h.policy (h.protocol.mpr hb)).symm
  family hb hfamily := by
    have ha := h.protocol.mpr hb
    exact (h.family ha ((h.policy ha).trans hfamily)).symm

theorem of_terms (h : a.Compatible b) (ha : a'.terms = a.terms) (hb : b'.terms = b.terms) :
    a'.Compatible b' := by
  simp only [Lease.terms, LeaseTerms.mk.injEq] at ha hb
  obtain ⟨-, hag, haf, hap, hai, hav, -, -, -, hax, -, hac, -⟩ := ha
  obtain ⟨-, hbg, hbf, hbp, hbi, hbv, -, -, -, hbx, -, hbc, -⟩ := hb
  exact
    { shared := by rw [hax, hbx]; exact h.shared
      canary := by rw [hac, hbc]; exact h.canary
      protocol := by rw [hav, hbv]; exact h.protocol
      group := by rw [hav, hag, hbg]; exact h.group
      profile := by rw [hav, hap, hbp]; exact h.profile
      policy := by rw [hav, hai, hbi]; exact h.policy
      family := by rw [hav, hai, haf, hbf]; exact h.family }

end Lease.Compatible

/-- The test of `_lease_fits_session` against each occupant is a test of compatibility. -/
theorem leaseFitsSession_compatible {l : Lease} {s : Session} {used others : ℕ}
    {occupants : List Lease} {pending : List Reservation}
    (h : leaseFitsSession l s used occupants others pending = true) :
    ∀ o ∈ occupants, l.Compatible o := by
  intro o ho
  have hne : occupants.isEmpty = false := by
    cases occupants with
    | nil => cases ho
    | cons => rfl
  simp only [leaseFitsSession, Bool.and_eq_true, List.all_eq_true, Bool.not_eq_true', hne,
    Bool.not_false, Bool.and_true] at h
  obtain ⟨⟨⟨⟨⟨⟨-, hoccupants⟩, hexclusive⟩, -⟩, -⟩, hcanary⟩, hprotocol⟩ := h
  have hadmission : l.mixedCanaryAdmissionId = o.mixedCanaryAdmissionId := by
    split at hcanary
    · have hsame := List.all_eq_true.mp hcanary o ho
      exact (by simpa using hsame : o.mixedCanaryAdmissionId = _).symm
    · rename_i hzero
      have hnone := List.all_eq_true.mp hcanary o ho
      simp only [bne_iff_ne, ne_eq, not_not, beq_iff_eq] at hzero hnone
      rw [hzero, hnone]
  split at hprotocol
  · rename_i hv1
    simp only [Bool.and_eq_true, List.all_eq_true, decide_eq_true_eq, beq_iff_eq] at hprotocol
    obtain ⟨ho1, hgroup⟩ := hprotocol.2 o ho
    exact
      { shared := ⟨hexclusive, hoccupants o ho⟩
        canary := hadmission
        protocol := by omega
        group := fun _ ↦ hgroup.symm
        profile := fun h ↦ by omega
        policy := fun h ↦ by omega
        family := fun h ↦ by omega }
  · rename_i hv2
    simp only [Bool.and_eq_true, List.all_eq_true, decide_eq_true_eq, beq_iff_eq] at hprotocol
    obtain ⟨ho2, hprofile⟩ := hprotocol.1.1.2 o ho
    have hpolicy : l.isolationPolicy = o.isolationPolicy ∧
        (l.isolationPolicy = .family → l.workloadFamily = o.workloadFamily) := by
      have hmatch := hprotocol.2
      cases hl : l.isolationPolicy <;>
        simp only [hl, Bool.and_eq_true, List.all_eq_true, beq_iff_eq] at hmatch
      · obtain ⟨hsame, hfamily⟩ := hmatch.1 o ho
        exact ⟨hsame.symm, fun _ ↦ hfamily.symm⟩
      · exact ⟨(hmatch.1 o ho).symm, (by rintro ⟨⟩)⟩
      · simp at hmatch
    exact
      { shared := ⟨hexclusive, hoccupants o ho⟩
        canary := hadmission
        protocol := by omega
        group := fun h ↦ by omega
        profile := fun _ ↦ hprofile.symm
        policy := fun _ ↦ hpolicy.1
        family := fun _ ↦ hpolicy.2 }

theorem leaseFitsSession_profile {l : Lease} {s : Session} {used others : ℕ}
    {occupants : List Lease} {pending : List Reservation}
    (h : leaseFitsSession l s used occupants others pending = true) (hv2 : 2 ≤ l.protocolVersion) :
    l.sessionProfile = s.sessionProfile := by
  simp only [leaseFitsSession, Bool.and_eq_true] at h
  have hprotocol := h.2
  rw [if_neg (by omega)] at hprotocol
  simp only [Bool.and_eq_true, beq_iff_eq] at hprotocol
  exact hprotocol.1.1.1.symm

theorem accepts_fits {db : Db} {l : Lease} {s : Session} (h : db.accepts l s = true) :
    ∃ used others pending,
      leaseFitsSession l s used (db.occupants s.id) others pending = true := by
  simp only [Db.accepts, Bool.and_eq_true] at h
  exact ⟨_, _, _, h.2⟩

structure Isolated (db : Db) : Prop where
  compatible : ∀ a ∈ db.leases, ∀ b ∈ db.leases, ∀ sid, a.holds sid = true → b.holds sid = true →
    a.id ≠ b.id → a.Compatible b
  profile : ∀ s ∈ db.sessions, ∀ l ∈ db.leases, l.holds s.id = true → 2 ≤ l.protocolVersion →
    l.sessionProfile = s.sessionProfile
  exclusive : ∀ l ∈ db.leases, l.isolationPolicy = .exclusive → l.exclusiveSession = true

theorem Moves.isolated {keeps : Aspect → Prop} {db db' : Db} (h : Moves keeps db db')
    (hdb : Isolated db) (hprofile : ∀ s ∈ db.sessions, ∀ s' ∈ db'.sessions, s'.id = s.id →
      ∀ l ∈ db.leases, l.holds s.id = true → 2 ≤ l.protocolVersion →
        l.sessionProfile = s'.sessionProfile) : Isolated db' where
  compatible a' ha' b' hb' sid hah hbh hne := by
    obtain ⟨a, ha, ham⟩ := h.leases.exists_left ha'
    obtain ⟨b, hb, hbm⟩ := h.leases.exists_left hb'
    have hab := hdb.compatible a ha b hb sid (ham.holds hah).1 (hbm.holds hbh).1
      (by rwa [← ham.id, ← hbm.id])
    exact hab.of_terms ham.terms hbm.terms
  profile s' hs' l' hl' hholds hv2 := by
    obtain ⟨l, hl, hlm⟩ := h.leases.exists_left hl'
    obtain ⟨s, hs, hsm⟩ := h.sessions.exists_left hs'
    have hversion : l'.protocolVersion = l.protocolVersion :=
      congrArg LeaseTerms.protocolVersion hlm.terms
    have hsame : l'.sessionProfile = l.sessionProfile :=
      congrArg LeaseTerms.sessionProfile hlm.terms
    rw [hsame]
    exact hprofile s hs s' hs' hsm.id l hl (hsm.id ▸ (hlm.holds hholds).1) (hversion ▸ hv2)
  exclusive l' hl' hpolicy := by
    obtain ⟨l, hl, hm⟩ := h.leases.exists_left hl'
    have hsame : l'.exclusiveSession = l.exclusiveSession :=
      congrArg LeaseTerms.exclusiveSession hm.terms
    rw [hsame]
    exact hdb.exclusive l hl ((congrArg LeaseTerms.isolationPolicy hm.terms).symm.trans hpolicy)

/-- The seated lease has passed the test against every other occupant. -/
theorem Isolated.seatLease {db : Db} {l : Lease} {s : Session} {slot : ℕ} {offerExpires now : Time}
    (hdb : Isolated db) (hl : l ∈ db.leases) (hq : l.state = .queued) (hs : s ∈ db.sessions)
    (haccepts : db.accepts l s = true) : Isolated (seatLease l s.id slot offerExpires now db) := by
  obtain ⟨used, others, pending, hfits⟩ := accepts_fits haccepts
  have hleases := seatLease_leases s.id slot offerExpires now hl hq
  have hrow : ∀ x' ∈ (Pool.seatLease l s.id slot offerExpires now db).leases,
      ∃ x ∈ db.leases, x'.terms = x.terms ∧ ∀ sid, x'.holds sid = true →
        x.holds sid = true ∨ (x = l ∧ sid = s.id) := by
    intro x' hx'
    obtain ⟨x, hx, hm⟩ := hleases.exists_left hx'
    by_cases hid : x.id = l.id
    · obtain ⟨rfl, rfl⟩ := hm.seated hid
      refine ⟨x, hx, rfl, fun sid hholds ↦ .inr ⟨rfl, ?_⟩⟩
      simp only [Lease.holds, Lease.seated, Bool.and_eq_true, beq_iff_eq, Option.some.injEq]
        at hholds
      exact hholds.1.symm
    · rw [hm.kept hid]
      exact ⟨x, hx, rfl, fun sid hholds ↦ .inl hholds⟩
  have hnew : ∀ x ∈ db.leases, x.holds s.id = true → l.Compatible x := fun x hx hholds ↦
    leaseFitsSession_compatible hfits x (Table.mem_select.mpr ⟨hx, hholds⟩)
  refine ⟨fun a' ha' b' hb' sid hah hbh hne ↦ ?_, fun y hy x' hx' hholds hv2 ↦ ?_,
    fun x' hx' hpolicy ↦ ?_⟩
  · obtain ⟨a, ha, hat, haold⟩ := hrow a' ha'
    obtain ⟨b, hb, hbt, hbold⟩ := hrow b' hb'
    have hids : a.id ≠ b.id := fun hid ↦ hne <|
      ((congrArg LeaseTerms.id hat).trans hid).trans (congrArg LeaseTerms.id hbt).symm
    refine Lease.Compatible.of_terms ?_ hat hbt
    rcases haold sid hah with hah | ⟨rfl, hsid⟩ <;> rcases hbold sid hbh with hbh | ⟨rfl, hsid'⟩
    · exact hdb.compatible a ha b hb sid hah hbh hids
    · exact (hnew a ha (hsid' ▸ hah)).symm
    · exact hnew b hb (hsid ▸ hbh)
    · exact (hids rfl).elim
  · rw [seatLease_sessions] at hy
    obtain ⟨x, hx, hterms, hold⟩ := hrow x' hx'
    have hversion : x'.protocolVersion = x.protocolVersion :=
      congrArg LeaseTerms.protocolVersion hterms
    refine (congrArg LeaseTerms.sessionProfile hterms).trans ?_
    rcases hold y.id hholds with hholds | ⟨rfl, hid⟩
    · exact hdb.profile y hy x hx hholds (hversion ▸ hv2)
    · have hys : y = s := Table.eq_of_key_eq hy hs hid
      exact hys ▸ leaseFitsSession_profile hfits (hversion ▸ hv2)
  · obtain ⟨x, hx, hterms, -⟩ := hrow x' hx'
    exact (congrArg LeaseTerms.exclusiveSession hterms).trans
      (hdb.exclusive x hx ((congrArg LeaseTerms.isolationPolicy hterms).symm.trans hpolicy))

/-- A placement gives a profile at most to a Desktop that has none. -/
theorem place_sessions {db : Db} {l : Lease} {sid slot : ℕ} {offerExpires now : Time} :
    Table.Moved (fun s s' ↦ s'.id = s.id ∧ (s'.sessionProfile = s.sessionProfile ∨
      (s.id = sid ∧ s.sessionProfile = "" ∧ s'.sessionProfile = l.sessionProfile)))
      (seatLease l sid slot offerExpires now db).sessions
      (place l sid slot offerExpires now db).sessions := by
  unfold place
  dsimp only
  generalize seatLease l sid slot offerExpires now db = db'
  have hrefresh : ∀ d : Db, Table.Moved (fun s s' ↦ s'.id = s.id ∧
      s'.sessionProfile = s.sessionProfile) d.sessions (refreshSession sid now d).sessions :=
    fun d ↦ Db.sessions_moved (fun _ _ _ ↦ ⟨rfl, rfl⟩) fun _ _ _ ↦ ⟨rfl, rfl⟩
  split
  · exact (hrefresh db').mono fun _ _ h ↦ ⟨h.1, .inl h.2⟩
  · have htouch : Table.Moved (fun s s' ↦ s'.id = s.id ∧ (s'.sessionProfile = s.sessionProfile ∨
        (s.id = sid ∧ s.sessionProfile = "" ∧ s'.sessionProfile = l.sessionProfile))) db'.sessions
        (db'.onSessions (fun s ↦ s.id == sid && s.sessionProfile == "")
          (fun s ↦ { s with sessionProfile := l.sessionProfile, updatedAt := now })
          fun _ ↦ rfl).sessions := by
      refine Db.sessions_moved (fun s _ hp ↦ ⟨rfl, .inr ?_⟩) fun _ _ _ ↦ ⟨rfl, .inl rfl⟩
      simp only [Bool.and_eq_true, beq_iff_eq] at hp
      exact ⟨hp.1, hp.2, rfl⟩
    refine htouch.trans (hrefresh _) fun a b c hab hbc ↦ ⟨hbc.1.trans hab.1, ?_⟩
    rw [hbc.2]
    exact hab.2

theorem isolated_empty : Isolated {} := by
  constructor <;> simp [Table.mem_def, Table.empty]

theorem keeps_profiles (w : Write) : w.keeps .profiles = true := by cases w <;> rfl

theorem isolated_rules {C : Db → Write → Prop} :
    WriteRules C (fun db ↦ Sound db ∧ Isolated db) Isolated where
  plain := by
    rintro db w ⟨hsound, -⟩ - - - hmoves hdb
    refine hmoves.isolated hdb fun s hs s' hs' hid l hl hholds hv2 ↦ ?_
    obtain ⟨x', hx', hm⟩ := hmoves.sessions.exists_right hs
    have hx : x' = s' := Table.eq_of_key_eq hx' hs' (hm.id.trans hid.symm)
    subst hx
    have hstarted : db.Started s.id := by
      simp only [Lease.holds, Bool.and_eq_true, beq_iff_eq] at hholds
      exact hsound.registered.lease l hl s.id hholds.1
    rw [hm.profile (keeps_profiles w) (hstarted.row hs rfl)]
    exact hdb.profile s hs l hl hholds hv2
  reserve {db terms tasks now _} _ _ _ _ hdb := by
    obtain ⟨_, hframe⟩ := reserve_frame terms tasks now db
    rw [hframe]
    exact ⟨hdb.compatible, hdb.profile, hdb.exclusive⟩
  openCanary {db sid group profile slots expires now _} _ _ _ _ hdb := by
    obtain ⟨_, hframe⟩ := openCanary_frame sid group profile slots expires now db
    rw [hframe]
    exact ⟨hdb.compatible, hdb.profile, hdb.exclusive⟩
  admitLease := by
    rintro db q reservation canary now - ⟨-, -, -, hexclusive⟩ - hdb
    have hold : ∀ l ∈ (admitLease q reservation canary now db).leases, ∀ sid,
        l.holds sid = true → l ∈ db.leases := by
      intro l hl sid hholds
      rcases (mem_admitLease _ _ _ _ _).mp hl with hl | rfl
      · exact hl
      · simp [Lease.holds, newLease, LeaseState.holdsSlot] at hholds
    refine ⟨fun a ha b hb sid hah hbh ↦ ?_, fun s hs l hl hholds ↦ ?_, fun l hl hpolicy ↦ ?_⟩
    · exact hdb.compatible a (hold a ha sid hah) b (hold b hb sid hbh) sid hah hbh
    · rw [admitLease_sessions] at hs
      exact hdb.profile s hs l (hold l hl s.id hholds) hholds
    · rcases (mem_admitLease _ _ _ _ _).mp hl with hl | rfl
      · exact hdb.exclusive l hl hpolicy
      · exact hexclusive hpolicy
  place := by
    rintro db l s slot offerExpires now ⟨hsound, -⟩ hl hq hmem hplace - - hdb
    have hrun := hsound.registered.running
      ⟨s, hmem, rfl, hsound.registered.assignable s hmem hplace.assignable⟩
    have hmoves : Moves (· ≠ .profiles) (seatLease l s.id slot offerExpires now db)
        (place l s.id slot offerExpires now db) := moves_place hrun fun h ↦ h rfl
    have hseat : Isolated (seatLease l s.id slot offerExpires now db) :=
      hdb.seatLease hl hq hmem hplace.accepted
    refine hmoves.isolated hseat fun x hx x' hx' hid o ho hholds hv2 ↦ ?_
    obtain ⟨y', hy', hyid, hprofile⟩ := place_sessions.exists_right hx
    have hxy : y' = x' := Table.eq_of_key_eq hy' hx' (hyid.trans hid.symm)
    subst hxy
    have hold := hseat.profile x hx o ho hholds hv2
    rcases hprofile with hsame | ⟨hxs, hnone, hset⟩
    · rw [hsame, hold]
    · -- the arriving lease is an occupant too, so its profile is that of `o`
      obtain ⟨l', hl', hm⟩ := (seatLease_leases s.id slot offerExpires now hl hq).exists_right hl
      obtain ⟨-, rfl⟩ := hm.seated rfl
      rw [hset]
      by_cases hol : o.id = l.id
      · rw [Table.eq_of_key_eq ho hl' hol]
        rfl
      · have hseated : (l.seated s.id slot l.offerState offerExpires now).holds x.id = true := by
          rw [hxs]
          unfold Lease.offerState
          simp only [Lease.holds, Lease.seated]
          split <;> simp [LeaseState.holdsSlot]
        exact (hseat.compatible o ho _ hl' x.id hholds hseated hol).profile hv2
  grantWave := by
    rintro db s leaseIds now - hmem - - hdb
    have hleases := grantWave_leases hmem leaseIds now
    refine ⟨fun a' ha' b' hb' sid hah hbh hne ↦ ?_, fun x' hx' l' hl' hholds hv2 ↦ ?_,
      fun l' hl' hpolicy ↦ ?_⟩
    · obtain ⟨a, ha, ham⟩ := hleases.exists_left ha'
      obtain ⟨b, hb, hbm⟩ := hleases.exists_left hb'
      have hab := hdb.compatible a ha b hb sid (ham.holds ▸ hah) (hbm.holds ▸ hbh)
        (by rwa [← ham.id, ← hbm.id])
      exact hab.of_terms ham.terms hbm.terms
    · obtain ⟨l, hl, hlm⟩ := hleases.exists_left hl'
      obtain ⟨x, hx, hxm⟩ := (grantWave_sessions hmem leaseIds now).exists_left hx'
      have hversion : l'.protocolVersion = l.protocolVersion :=
        congrArg LeaseTerms.protocolVersion hlm.terms
      have hid : x'.id = x.id := hxm.same (·.id) fun _ ↦ rfl
      rw [hxm.same (·.sessionProfile) fun _ ↦ rfl]
      refine (congrArg LeaseTerms.sessionProfile hlm.terms).trans ?_
      exact hdb.profile x hx l hl (hid ▸ hlm.holds ▸ hholds) (hversion ▸ hv2)
    · obtain ⟨l, hl, hm⟩ := hleases.exists_left hl'
      exact (congrArg LeaseTerms.exclusiveSession hm.terms).trans
        (hdb.exclusive l hl ((congrArg LeaseTerms.isolationPolicy hm.terms).symm.trans hpolicy))
  startSession := by
    rintro db key accountName nodeName allocationId slots now ⟨hsound, -⟩ hdb
    refine ⟨hdb.compatible, fun s hs l hl hholds hv2 ↦ ?_, hdb.exclusive⟩
    rcases mem_startSession.mp hs with hs | rfl
    · exact hdb.profile s hs l hl hholds hv2
    · -- no lease is on a session that does not exist yet
      simp only [Lease.holds, Bool.and_eq_true, beq_iff_eq] at hholds
      obtain ⟨x, hx, hid, -⟩ := hsound.registered.lease l hl _ hholds.1
      exact ((Table.lt_nextKey hx).ne hid).elim
  scheduler _ _ _ _ h := ⟨h.compatible, h.profile, h.exclusive⟩

theorem Reachable.isolated {svc : Service} {C : Db → Write → Prop} {db : Db}
    (h : Reachable svc C db) : Isolated db :=
  (h.holds (isolated_rules.invariant isolated_empty)).2

/-- In every reachable state an exclusive occupant of a session is its only one, protocol-v2
occupants have the profile of the session, and any two occupants have one protocol and one canary
admission.  Two protocol-v2 occupants have one policy, and under `family` one workload family; two
protocol-v1 occupants have one placement group. -/
theorem occupants_isolated (svc : Service) (db : Db) (h : Reachable svc AnyWrite db) (s : Session)
    (hs : s ∈ db.sessions) (a : Lease) (ha : a ∈ db.occupants s.id) :
    (a.exclusiveSession = true ∨ a.isolationPolicy = .exclusive →
      ∀ b ∈ db.occupants s.id, b = a) ∧
    (2 ≤ a.protocolVersion → a.sessionProfile = s.sessionProfile) ∧
    ∀ b ∈ db.occupants s.id, (2 ≤ a.protocolVersion ↔ 2 ≤ b.protocolVersion) ∧
      a.mixedCanaryAdmissionId = b.mixedCanaryAdmissionId ∧
      (a.protocolVersion < 2 → a.placementGroup = b.placementGroup) ∧
      (2 ≤ a.protocolVersion → a.isolationPolicy = b.isolationPolicy ∧
        (a.isolationPolicy = .family → a.workloadFamily = b.workloadFamily)) := by
  have hdb := h.isolated
  obtain ⟨hamem, hah⟩ := Table.mem_select.mp ha
  refine ⟨fun hexclusive b hb ↦ ?_, hdb.profile s hs a hamem hah, fun b hb ↦ ?_⟩
  · obtain ⟨hbmem, hbh⟩ := Table.mem_select.mp hb
    have halone : a.exclusiveSession = true := hexclusive.elim id (hdb.exclusive a hamem)
    by_contra hne
    have hids : a.id ≠ b.id := fun hid ↦ hne (Table.eq_of_key_eq hbmem hamem hid.symm)
    have hshared := (hdb.compatible a hamem b hbmem s.id hah hbh hids).shared.1
    simp [halone] at hshared
  · obtain ⟨hbmem, hbh⟩ := Table.mem_select.mp hb
    by_cases hid : a.id = b.id
    · rw [Table.eq_of_key_eq hamem hbmem hid]
      exact ⟨.rfl, rfl, fun _ ↦ rfl, fun _ ↦ ⟨rfl, fun _ ↦ rfl⟩⟩
    · have hab := hdb.compatible a hamem b hbmem s.id hah hbh hid
      exact ⟨hab.protocol, hab.canary, hab.group, fun hv2 ↦ ⟨hab.policy hv2, hab.family hv2⟩⟩

def legacyRequest (leaseId : ℕ) (family : String) : LeaseArgs where
  requestKey := "request-" ++ toString leaseId
  projectName := "project-" ++ toString leaseId
  placementGroup := some "group"
  workloadFamily := family
  sessionProfile := ""
  workspacePath := ""
  protocolVersion := 1
  clientToken := clientToken leaseId
  taskId := 0

def legacyPair : Db :=
  script sampleService (openDesktop .empty ++
    [.call {} 100010 (.requestLease (legacyRequest 1 "maxwell")),
     .call {} 100010 (.requestLease (legacyRequest 2 "icepak"))]) {}

theorem legacyPair_reachable : Reachable sampleService AnyWrite legacyPair :=
  reachable_script (by decide +kernel)

def legacyDesktop : Session := (legacyPair.sessions.find? 1).getD { id := 0 }

def legacyLease (leaseId : ℕ) : Lease :=
  (legacyPair.leases.find? leaseId).getD { id := 0, requestKey := "" }

theorem legacyLease_mem {leaseId : ℕ} (h : (legacyPair.leases.find? leaseId).isSome = true)
    (hholds : (legacyLease leaseId).holds legacyDesktop.id = true) :
    legacyLease leaseId ∈ legacyPair.occupants legacyDesktop.id :=
  Table.mem_select.mpr ⟨find?_getD_mem h, hholds⟩

theorem occupants_isolated_legacy_pair :
    ((legacyLease 1).exclusiveSession = true ∨ (legacyLease 1).isolationPolicy = .exclusive →
      ∀ b ∈ legacyPair.occupants legacyDesktop.id, b = legacyLease 1) ∧
    (2 ≤ (legacyLease 1).protocolVersion →
      (legacyLease 1).sessionProfile = legacyDesktop.sessionProfile) ∧
    ∀ b ∈ legacyPair.occupants legacyDesktop.id,
      (2 ≤ (legacyLease 1).protocolVersion ↔ 2 ≤ b.protocolVersion) ∧
      (legacyLease 1).mixedCanaryAdmissionId = b.mixedCanaryAdmissionId ∧
      ((legacyLease 1).protocolVersion < 2 → (legacyLease 1).placementGroup = b.placementGroup) ∧
      (2 ≤ (legacyLease 1).protocolVersion → (legacyLease 1).isolationPolicy = b.isolationPolicy ∧
        ((legacyLease 1).isolationPolicy = .family →
          (legacyLease 1).workloadFamily = b.workloadFamily)) := by
  -- the facts share the run that they are read off
  have hisolated (hfacts : _ ∧ _ ∧ _) := occupants_isolated sampleService legacyPair
    legacyPair_reachable legacyDesktop (find?_getD_mem hfacts.1) (legacyLease 1)
    (legacyLease_mem hfacts.2.1 hfacts.2.2)
  exact hisolated (by decide +kernel)

/-- The placement group is all that keeps protocol-v1 leases apart. -/
theorem legacy_families_share :
    ¬ ∀ (svc : Service) (db : Db), Reachable svc AnyWrite db → ∀ s ∈ db.sessions,
      ∀ a ∈ db.occupants s.id, ∀ b ∈ db.occupants s.id, a.isolationPolicy = .family →
        b.isolationPolicy = .family ∧ b.workloadFamily = a.workloadFamily := by
  intro h
  have hsame (hfacts : _ ∧ _ ∧ _ ∧ _ ∧ _ ∧ _ ∧ ¬ _) := hfacts.2.2.2.2.2.2 (h sampleService
    legacyPair legacyPair_reachable legacyDesktop (find?_getD_mem hfacts.1) (legacyLease 1)
    (legacyLease_mem hfacts.2.1 hfacts.2.2.1) (legacyLease 2)
    (legacyLease_mem hfacts.2.2.2.1 hfacts.2.2.2.2.1) hfacts.2.2.2.2.2.1).2
  exact hsame (by decide +kernel)

end SlurmScheduler.Pool
