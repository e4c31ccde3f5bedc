import SlurmScheduler.Pool.Scripts

namespace SlurmScheduler.Pool

open Relational

variable {db db' : Db}

/-- A live lease that may solve on the session. -/
def Lease.permitted (sid : ℕ) (l : Lease) : Bool :=
  l.sessionId == some sid && l.state.live && l.solvePermitAt.isSome

structure Serial (db : Db) : Prop where
  working : ∀ l ∈ db.leases, l.state.live = true → l.solvePermitAt.isSome = true →
    l.state = .active ∨ l.state = .releasing
  past : ∀ l ∈ db.leases, ∀ s ∈ db.sessions, l.sessionId = some s.id →
    l.solvePermitAt.isSome = true → l.solvePermitGeneration ≤ s.solveBatchGeneration
  current : ∀ l ∈ db.leases, ∀ s ∈ db.sessions, l.permitted s.id = true →
    s.solveBatchSealedAt.isSome = true ∧ l.solvePermitGeneration = s.solveBatchGeneration
  alone : ∀ a ∈ db.leases, ∀ b ∈ db.leases, ∀ sid, a.permitted sid = true →
    b.permitted sid = true → a = b

namespace Serial

theorem queued (h : Serial db) {l : Lease} (hl : l ∈ db.leases) (hq : l.state = .queued) :
    l.solvePermitAt = none := by
  by_contra hne
  have hworking := h.working l hl (by rw [hq]; rfl) (Option.isSome_iff_ne_none.mpr hne)
  simp [hq] at hworking

/-- A lease with a permit has had it before a plain write, at work on the same session. -/
theorem before {keeps : Aspect → Prop} (h : Serial db) {l l' : Lease} (hl : l ∈ db.leases)
    (hm : LeaseMove keeps l l') {sid : ℕ} (hp : l'.permitted sid = true) :
    l.permitted sid = true ∧ l'.solvePermitGeneration = l.solvePermitGeneration ∧
      (l'.state = .active ∨ l'.state = .releasing) := by
  simp only [Lease.permitted, Bool.and_eq_true, beq_iff_eq] at hp
  obtain ⟨hat, hgen⟩ := hm.permitted hp.2
  have hlive := hm.live hp.1.2
  have hold := h.working l hl hlive (hat ▸ hp.2)
  have hstate : l'.state = .active ∨ l'.state = .releasing := by
    rcases LeaseState.movesTo_permitted hm.state hold with hq | hstate | hterm
    · have hholds : l.state.holdsSlot = true := by rcases hold with h | h <;> rw [h] <;> rfl
      have hnone := (hm.requeued hholds hq).1
      simp [hnone] at hp
    · exact hstate
    · simp [LeaseState.terminal, hp.1.2] at hterm
  have hplace := hm.place (by rcases hstate with h | h <;> rw [h] <;> rfl)
  refine ⟨?_, hgen, hstate⟩
  simp [Lease.permitted, ← hplace.1, hp.1.1, hlive, ← hat, hp.2]

theorem moved {keeps : Aspect → Prop} (h : Serial db) (hm : Moves keeps db db') : Serial db' where
  working l' hl' hlive hp := by
    obtain ⟨l, hl, hlm⟩ := hm.leases.exists_left hl'
    have hold := h.working l hl (hlm.live hlive) ((hlm.permitted hp).1 ▸ hp)
    rcases LeaseState.movesTo_permitted hlm.state hold with hq | hstate | hterm
    · have hholds : l.state.holdsSlot = true := by rcases hold with h | h <;> rw [h] <;> rfl
      simp [(hlm.requeued hholds hq).1] at hp
    · exact hstate
    · simp [LeaseState.terminal, hlive] at hterm
  past l' hl' s' hs' hsid hp := by
    obtain ⟨l, hl, hlm⟩ := hm.leases.exists_left hl'
    obtain ⟨s, hs, hsm⟩ := hm.sessions.exists_left hs'
    obtain ⟨hat, hgen⟩ := hlm.permitted hp
    have hsame : l.sessionId = some s.id := by
      rcases hlm.session with h | h
      · rw [← h, hsid, hsm.id]
      · simp [h] at hsid
    have hle := h.past l hl s hs hsame (hat ▸ hp)
    have hbatch : s'.solveBatchGeneration = s.solveBatchGeneration :=
      congrArg SessionTerms.solveBatchGeneration hsm.terms
    rwa [hgen, hbatch]
  current l' hl' s' hs' hp := by
    obtain ⟨l, hl, hlm⟩ := hm.leases.exists_left hl'
    obtain ⟨s, hs, hsm⟩ := hm.sessions.exists_left hs'
    rw [hsm.id] at hp
    obtain ⟨hold, hgen, hstate⟩ := h.before hl hlm hp
    obtain ⟨hsealed, hcurrent⟩ := h.current l hl s hs hold
    refine ⟨?_, (hgen.trans hcurrent).trans
      (congrArg SessionTerms.solveBatchGeneration hsm.terms).symm⟩
    by_contra hne
    have hzero := hm.unsealed s hs s' hs' hsm.id hsealed (by simpa using hne)
    simp only [Lease.permitted, Bool.and_eq_true, beq_iff_eq] at hp
    have hpos : 0 < db'.used s.id := Table.count_pos.mpr ⟨l', hl', by
      rcases hstate with h | h <;> simp [Lease.holds, hp.1.1, h, LeaseState.holdsSlot]⟩
    omega
  alone a' ha' b' hb' sid hap hbp := by
    obtain ⟨a, ha, ham⟩ := hm.leases.exists_left ha'
    obtain ⟨b, hb, hbm⟩ := hm.leases.exists_left hb'
    have hab : a = b := h.alone a ha b hb sid (h.before ha ham hap).1 (h.before hb hbm hbp).1
    exact Table.eq_of_key_eq ha' hb' (ham.id.trans (hab ▸ hbm.id.symm))

theorem seatLease (h : Serial db) {l : Lease} {sid slot : ℕ} {offerExpires now : Time}
    (hl : l ∈ db.leases) (hq : l.state = .queued) :
    Serial (seatLease l sid slot offerExpires now db) := by
  have hleases := seatLease_leases sid slot offerExpires now hl hq
  have hsessions := @seatLease_sessions db l sid slot offerExpires now
  revert hleases hsessions
  generalize Pool.seatLease l sid slot offerExpires now db = db'
  intro hleases hsessions
  -- the seated lease has no permit
  have hold : ∀ x' ∈ db'.leases, x'.solvePermitAt.isSome = true → x' ∈ db.leases := by
    intro x' hx' hp
    obtain ⟨x, hx, hm⟩ := hleases.exists_left hx'
    by_cases hid : x.id = l.id
    · obtain ⟨rfl, rfl⟩ := hm.seated hid
      simp [Lease.seated, h.queued hx hq] at hp
    · rwa [hm.kept hid]
  have hpermitted : ∀ {x : Lease} {sid : ℕ}, x.permitted sid = true →
      x.solvePermitAt.isSome = true := by
    intro x sid hp
    simp only [Lease.permitted, Bool.and_eq_true] at hp
    exact hp.2
  refine ⟨fun x hx hlive hp ↦ h.working x (hold x hx hp) hlive hp, ?_, ?_, ?_⟩
  · rw [hsessions]
    exact fun x hx s hs hsid hp ↦ h.past x (hold x hx hp) s hs hsid hp
  · rw [hsessions]
    exact fun x hx s hs hp ↦ h.current x (hold x hx (hpermitted hp)) s hs hp
  · exact fun a ha b hb sid hap hbp ↦ h.alone a (hold a ha (hpermitted hap)) b
      (hold b hb (hpermitted hbp)) sid hap hbp

/-- No live lease of the session has a permit when the next wave is granted. -/
theorem finished (h : Serial db) {s : Session} {leaseIds : List ℕ} (hs : s ∈ db.sessions)
    (hgrant : Grantable db leaseIds s) {l : Lease} (hl : l ∈ db.leases) :
    l.permitted s.id = false := by
  by_contra hne
  have hp : l.permitted s.id = true := by simpa using hne
  obtain ⟨hsealed, hgen⟩ := h.current l hl s hs hp
  rcases hgrant.wave with ⟨hunsealed, -⟩ | ⟨-, -, hattested⟩
  · simp [hunsealed] at hsealed
  · simp only [Lease.permitted, Bool.and_eq_true, beq_iff_eq] at hp
    have hrow : l ∈ db.granted s.id s.solveBatchGeneration :=
      Table.mem_select.mpr ⟨hl, by simp [hp.1.1, hgen, hp.2]⟩
    have hreleased := hattested l hrow
    simp only [Lease.attested, Bool.and_eq_true, beq_iff_eq] at hreleased
    rw [hreleased.1.1.1] at hp
    cases hp.1.2

theorem grantWave (h : Serial db) {s : Session} {leaseIds : List ℕ} {now : Time}
    (hs : s ∈ db.sessions) (hgrant : Grantable db leaseIds s) :
    Serial (grantWave s.id leaseIds now db) := by
  have hleases := grantWave_leases hs leaseIds now
  have hsessions := grantWave_sessions hs leaseIds now
  revert hleases hsessions
  generalize Pool.grantWave s.id leaseIds now db = db'
  intro hleases hsessions
  have hlive : ∀ {l l' : Lease}, PermitMove s leaseIds l l' → l'.state = l.state :=
    fun hm ↦ hm.state
  refine ⟨fun l' hl' hlive hp ↦ ?_, fun l' hl' x' hx' hsid hp ↦ ?_, fun l' hl' x' hx' hp ↦ ?_,
    fun a' ha' b' hb' sid hap hbp ↦ ?_⟩
  · obtain ⟨l, hl, hm⟩ := hleases.exists_left hl'
    rcases hm.permit with rfl | ⟨-, hactive, -⟩
    · exact h.working l' hl hlive hp
    · exact .inl (hm.state.trans hactive)
  · obtain ⟨l, hl, hm⟩ := hleases.exists_left hl'
    obtain ⟨x, hx, hxm⟩ := hsessions.exists_left hx'
    have hid : x'.id = x.id := hxm.same (·.id) fun _ ↦ rfl
    rcases hm.permit with rfl | ⟨hsession, -, -, -, -, hgen⟩
    · have hle := h.past l' hl x hx (hid ▸ hsid) hp
      by_cases hxs : x.id = s.id
      · obtain ⟨rfl, rfl⟩ := hxm.granted hxs
        exact hle.trans (Nat.le_succ _)
      · rwa [hxm.kept hxs]
    · have hxs : x.id = s.id := by
        rw [hm.session, hsession, hid] at hsid
        exact (Option.some.inj hsid).symm
      obtain ⟨rfl, rfl⟩ := hxm.granted hxs
      exact hgen.le
  · obtain ⟨l, hl, hm⟩ := hleases.exists_left hl'
    obtain ⟨x, hx, hxm⟩ := hsessions.exists_left hx'
    have hid : x'.id = x.id := hxm.same (·.id) fun _ ↦ rfl
    rcases hm.permit with rfl | ⟨hsession, -, -, -, -, hgen⟩
    · have hxs : x.id ≠ s.id := by
        intro hxs
        rw [hid, hxs, h.finished hs hgrant hl] at hp
        cases hp
      rw [hxm.kept hxs] at hp ⊢
      exact h.current l' hl x hx hp
    · have hxs : x.id = s.id := by
        simp only [Lease.permitted, Bool.and_eq_true, beq_iff_eq, hm.session, hsession, hid] at hp
        exact (Option.some.inj hp.1.1).symm
      obtain ⟨rfl, rfl⟩ := hxm.granted hxs
      exact ⟨rfl, hgen⟩
  · obtain ⟨a, ha, ham⟩ := hleases.exists_left ha'
    obtain ⟨b, hb, hbm⟩ := hleases.exists_left hb'
    -- a wave has one member, and before the wave the session had no permitted lease
    by_cases hsid : sid = s.id
    · have hchosen : ∀ {l l' : Lease}, l ∈ db.leases → PermitMove s leaseIds l l' →
          l'.permitted sid = true → l.id ∈ leaseIds := by
        intro l l' hl hm hp
        rcases hm.permit with rfl | ⟨-, -, -, hmem, -⟩
        · rw [hsid, h.finished hs hgrant hl] at hp
          cases hp
        · exact hmem
      have hsame : a.id = b.id := by
        match leaseIds, hgrant.serial, hchosen ha ham hap, hchosen hb hbm hbp with
        | [x], _, hax, hbx => rw [List.mem_singleton.mp hax, List.mem_singleton.mp hbx]
      exact Table.eq_of_key_eq ha' hb' (ham.id.trans (hsame.trans hbm.id.symm))
    · have hkept : ∀ {l l' : Lease}, PermitMove s leaseIds l l' → l'.permitted sid = true →
          l' = l := by
        intro l l' hm hp
        rcases hm.permit with hsame | ⟨hsession, -⟩
        · exact hsame
        · simp only [Lease.permitted, Bool.and_eq_true, beq_iff_eq, hm.session, hsession] at hp
          exact (hsid (Option.some.inj hp.1.1).symm).elim
      obtain rfl := hkept ham hap
      obtain rfl := hkept hbm hbp
      exact h.alone a' ha b' hb sid hap hbp

end Serial

theorem serial_empty : Serial {} := by
  constructor <;> simp [Table.mem_def, Table.empty]

theorem admitLease_permits {q : LeaseRequest} {reservation : Option Reservation}
    {canary : Option (CanarySlot × Admission)} {now : Time} {l : Lease}
    (hl : l ∈ (admitLease q reservation canary now db).leases)
    (hp : l.solvePermitAt.isSome = true) : l ∈ db.leases := by
  rcases (mem_admitLease _ _ _ _ _).mp hl with hl | rfl
  · exact hl
  · simp [newLease] at hp

theorem Lease.permitted_isSome {l : Lease} {sid : ℕ} (h : l.permitted sid = true) :
    l.solvePermitAt.isSome = true := by
  simp only [Lease.permitted, Bool.and_eq_true] at h
  exact h.2

theorem serial_rules {C : Db → Write → Prop} :
    WriteRules C (fun db ↦ Sound db ∧ Serial db) Serial where
  plain _ _ _ _ hmoves hdb := hdb.moved hmoves
  reserve {db terms tasks now _} _ _ _ _ hdb := by
    obtain ⟨_, hframe⟩ := reserve_frame terms tasks now db
    rw [hframe]
    exact ⟨hdb.working, hdb.past, hdb.current, hdb.alone⟩
  openCanary {db sid group profile slots expires now _} _ _ _ _ hdb := by
    obtain ⟨_, hframe⟩ := openCanary_frame sid group profile slots expires now db
    rw [hframe]
    exact ⟨hdb.working, hdb.past, hdb.current, hdb.alone⟩
  admitLease := by
    intro db q reservation canary now _ _ _ hdb
    have hold := @admitLease_permits db q reservation canary now
    refine ⟨fun l hl hlive hp ↦ hdb.working l (hold hl hp) hlive hp, ?_, ?_, ?_⟩
    · rw [admitLease_sessions]
      exact fun l hl s hs hsid hp ↦ hdb.past l (hold hl hp) s hs hsid hp
    · rw [admitLease_sessions]
      exact fun l hl s hs hp ↦ hdb.current l (hold hl (Lease.permitted_isSome hp)) s hs hp
    · exact fun a ha b hb sid hap hbp ↦ hdb.alone a (hold ha (Lease.permitted_isSome hap)) b
        (hold hb (Lease.permitted_isSome hbp)) sid hap hbp
  place := by
    rintro db l s slot offerExpires now ⟨hsound, -⟩ hl hq hmem hplace - - hdb
    have hrun := hsound.registered.running
      ⟨s, hmem, rfl, hsound.registered.assignable s hmem hplace.assignable⟩
    have hmoves : Moves (· ≠ .profiles) (Pool.seatLease l s.id slot offerExpires now db)
        (place l s.id slot offerExpires now db) := moves_place hrun fun h ↦ h rfl
    exact (hdb.seatLease hl hq).moved hmoves
  grantWave _ hmem hgrant _ hdb := hdb.grantWave hmem hgrant
  startSession := by
    rintro db key accountName nodeName allocationId slots now ⟨hsound, -⟩ hdb
    -- no lease is on a session that does not exist yet
    have hnew : ∀ l ∈ db.leases, l.sessionId ≠ some db.sessions.nextKey := by
      intro l hl hsid
      obtain ⟨x, hx, hid, -⟩ := hsound.registered.lease l hl _ hsid
      exact (Table.lt_nextKey hx).ne hid
    refine ⟨hdb.working, fun l hl s hs hsid hp ↦ ?_, fun l hl s hs hp ↦ ?_, hdb.alone⟩
    · rcases mem_startSession.mp hs with hs | rfl
      · exact hdb.past l hl s hs hsid hp
      · exact (hnew l hl hsid).elim
    · rcases mem_startSession.mp hs with hs | rfl
      · exact hdb.current l hl s hs hp
      · simp only [Lease.permitted, Bool.and_eq_true, beq_iff_eq] at hp
        exact (hnew l hl hp.1.1).elim
  scheduler _ _ _ _ h := ⟨h.working, h.past, h.current, h.alone⟩

theorem serial_invariant {C : Db → Write → Prop} : Invariant C fun db ↦ Sound db ∧ Serial db :=
  serial_rules.invariant serial_empty

/-- Only a grant writes a permit, and it does so for a lease of the session it seals. -/
theorem permit_written {w : Write} (hdb : Sound db) (hguard : Guard db w) {l l' : Lease}
    (hl : l ∈ db.leases) (hl' : l' ∈ (w.exec db).leases) (hid : l'.id = l.id)
    (hnone : l.solvePermitAt = none) (hsome : l'.solvePermitAt.isSome = true) :
    ∃ s ∈ db.sessions, ∃ leaseIds, Grantable db leaseIds s ∧ l.sessionId = some s.id := by
  have hsame : l' ∉ db.leases := fun hmem ↦ by
    rw [Table.eq_of_key_eq hmem hl hid, hnone] at hsome
    cases hsome
  obtain hplain | hplain := Bool.eq_false_or_eq_true w.plain
  · obtain ⟨x, hx, hm⟩ := (moves_of_plain hdb hguard hplain).leases.exists_left hl'
    have hxl : x = l := Table.eq_of_key_eq hx hl (hm.id.symm.trans hid)
    rw [(hm.permitted hsome).1, hxl, hnone] at hsome
    cases hsome
  cases w <;> try (cases hplain; done)
  case reserve terms tasks now =>
    obtain ⟨_, hframe⟩ := reserve_frame terms tasks now db
    rw [Write.exec, hframe] at hl'
    exact (hsame hl').elim
  case openCanary sid group profile slots expires now =>
    obtain ⟨_, hframe⟩ := openCanary_frame sid group profile slots expires now db
    rw [Write.exec, hframe] at hl'
    exact (hsame hl').elim
  case admitLease q reservation canary now => exact (hsame (admitLease_permits hl' hsome)).elim
  case place x sid slot offerExpires now =>
    obtain ⟨hx, hq, -⟩ := hguard
    rw [Write.exec, place_leases_eq] at hl'
    obtain ⟨y, hy, hm⟩ := (seatLease_leases sid slot offerExpires now hx hq).exists_left hl'
    by_cases hyx : y.id = x.id
    · obtain ⟨rfl, rfl⟩ := hm.seated hyx
      have hyl : y = l := Table.eq_of_key_eq hy hl hid
      simp [Lease.seated, hyl, hnone] at hsome
    · exact (hsame (hm.kept hyx ▸ hy)).elim
  case grantWave sid leaseIds now =>
    obtain ⟨s, hs, rfl, hgrant⟩ := hguard
    obtain ⟨x, hx, hm⟩ := (grantWave_leases hs leaseIds now).exists_left hl'
    have hxl : x = l := Table.eq_of_key_eq hx hl (hm.id.symm.trans hid)
    subst hxl
    rcases hm.permit with rfl | ⟨hsession, -⟩
    · exact (hsame hx).elim
    · exact ⟨s, hs, leaseIds, hgrant, hsession⟩
  case startSession => exact (hsame hl').elim

/-- In every reachable state a session has at most one live lease with a permit, which has the
session's current generation.  When a permit is written on a sealed session, every lease that was
granted one in the generation before is released and attested for it. -/
theorem native_solves_serial (svc : Service) (es : List PoolExecution) (db : Db)
    (h : History svc AnyWrite {} es db) :
    (∀ s ∈ db.sessions, ∀ a ∈ db.leases, a.permitted s.id = true →
      a.solvePermitGeneration = s.solveBatchGeneration ∧
      ∀ b ∈ db.leases, b.permitted s.id = true → b = a) ∧
    ∀ e ∈ es, ∀ s ∈ e.before.sessions, s.solveBatchSealedAt.isSome = true →
      ∀ l ∈ e.before.leases, ∀ l' ∈ e.after.leases, l'.id = l.id → l.sessionId = some s.id →
      l.solvePermitAt = none → l'.solvePermitAt.isSome = true →
      ∀ g ∈ e.before.leases, g.sessionId = some s.id → g.solvePermitAt.isSome = true →
        g.solvePermitGeneration = s.solveBatchGeneration →
        g.state = .released ∧ g.nativePipelineCompletedAt.isSome = true ∧
        g.nativePipelineSessionId = s.id ∧ g.nativePipelineGeneration = s.solveBatchGeneration := by
  have hstart : Sound {} ∧ Serial {} := ⟨sound_empty, serial_empty⟩
  have hdb := h.run.stable serial_invariant serial_invariant.stable hstart hstart
  refine ⟨fun s hs a ha hap ↦ ⟨(hdb.2.current a ha s hs hap).2, fun b hb hbp ↦
    hdb.2.alone b hb a ha s.id hbp hap⟩, ?_⟩
  intro e he s hs hsealed l hl l' hl' hid hsid hnone hsome g hg hgsid hgpermit hgen
  obtain ⟨hbefore, hguard, -⟩ := h.checked serial_invariant hstart e he
  obtain ⟨x, hx, leaseIds, hgrant, hxsid⟩ :=
    permit_written hbefore.1 hguard hl hl' hid hnone hsome
  have hxs : x = s := Table.eq_of_key_eq hx hs (Option.some.inj (hxsid.symm.trans hsid))
  subst hxs
  rcases hgrant.wave with ⟨hunsealed, -⟩ | ⟨-, -, hattested⟩
  · simp [hunsealed] at hsealed
  · have hrow : g ∈ e.before.granted x.id x.solveBatchGeneration :=
      Table.mem_select.mpr ⟨hg, by simp [hgsid, hgen, hgpermit]⟩
    have hended := hattested g hrow
    simp only [Lease.attested, Bool.and_eq_true, beq_iff_eq] at hended
    exact ⟨hended.1.1.1, hended.1.1.2, hended.1.2, hended.2⟩

def solvesInTurn : List Event :=
  openDesktop .empty ++
    [.call {} 100010 (.requestLease (sampleRequest 1 0)),
     .call {} 100010 (.requestLease (sampleRequest 2 0))] ++
    attach 1 100011 ++ attach 2 100012 ++
    [.call {} 100013 (.completeNativePipeline 1 (clientToken 1) 1),
     .call {} 100014 (.cancelLease 1 (clientToken 1) "client released lease"),
     .call {} 100015 (.completeRelease 1 "host-token" 1 true ""),
     .call {} 100016 (.requestSolvePermit 2 (clientToken 2) false)]

theorem native_solves_serial_in_turn :
    let es := scriptExecutions sampleService solvesInTurn {}
    let db := script sampleService solvesInTurn {}
    (∀ s ∈ db.sessions, ∀ a ∈ db.leases, a.permitted s.id = true →
      a.solvePermitGeneration = s.solveBatchGeneration ∧
      ∀ b ∈ db.leases, b.permitted s.id = true → b = a) ∧
    ∀ e ∈ es, ∀ s ∈ e.before.sessions, s.solveBatchSealedAt.isSome = true →
      ∀ l ∈ e.before.leases, ∀ l' ∈ e.after.leases, l'.id = l.id → l.sessionId = some s.id →
      l.solvePermitAt = none → l'.solvePermitAt.isSome = true →
      ∀ g ∈ e.before.leases, g.sessionId = some s.id → g.solvePermitAt.isSome = true →
        g.solvePermitGeneration = s.solveBatchGeneration →
        g.state = .released ∧ g.nativePipelineCompletedAt.isSome = true ∧
        g.nativePipelineSessionId = s.id ∧ g.nativePipelineGeneration = s.solveBatchGeneration :=
  native_solves_serial sampleService (scriptExecutions sampleService solvesInTurn {})
    (script sampleService solvesInTurn {}) (history_script sound_empty (by decide +kernel))

example : (script sampleService solvesInTurn {}).leases.rows.map
    (fun l ↦ (l.state, l.solvePermitGeneration)) = [(.released, 1), (.active, 2)] := by
  decide +kernel

end SlurmScheduler.Pool
