import SlurmScheduler.Pool.Routine
import SlurmScheduler.Pool.Soundness

namespace SlurmScheduler.Pool

open Relational

structure ProjectRecord where
  id : ℕ
  projectName : String
  protocolVersion : ℕ
  clientTokenHash : String

def Lease.project (l : Lease) : ProjectRecord :=
  ⟨l.id, l.projectName, l.protocolVersion, l.clientTokenHash⟩

def Write.naming : Write → Bool
  | .admitLease .. => true
  | .bindProjectName .. => true
  | _ => false

/-- The lease has kept its expiry, or `P` holds of the new one and of the heartbeat it counts
from. -/
def Lease.Lasts (P : Time → Time → Prop) (l l' : Lease) : Prop :=
  (l'.expiresAt = l.expiresAt ∧ l'.lastHeartbeatAt = l.lastHeartbeatAt) ∨
    P l'.expiresAt l'.lastHeartbeatAt

structure Lease.Keeps (P : Time → Time → Prop) (l l' : Lease) : Prop where
  project : l'.project = l.project
  lasts : l.Lasts P l'

variable {P : Time → Time → Prop}

theorem Lease.Keeps.of_same {l l' : Lease} (hproject : l'.project = l.project)
    (hexpires : l'.expiresAt = l.expiresAt) (hbeat : l'.lastHeartbeatAt = l.lastHeartbeatAt) :
    l.Keeps P l' := ⟨hproject, .inl ⟨hexpires, hbeat⟩⟩

theorem Lease.Keeps.refl (l : Lease) : l.Keeps P l := .of_same rfl rfl rfl

theorem Lease.Keeps.trans {l l' l'' : Lease} (h : l.Keeps P l') (h' : l'.Keeps P l'') :
    l.Keeps P l'' := by
  refine ⟨h'.project.trans h.project, ?_⟩
  rcases h'.lasts with ⟨hexpires, hbeat⟩ | hP
  · rcases h.lasts with hkept | hP
    · exact .inl ⟨hexpires.trans hkept.1, hbeat.trans hkept.2⟩
    · exact .inr (by rwa [hexpires, hbeat])
  · exact .inr hP

def KeepsLeases (P : Time → Time → Prop) (db db' : Db) : Prop :=
  Table.Moved (Lease.Keeps P) db.leases db'.leases

namespace KeepsLeases

variable {db db' db'' : Db}

theorem of_eq (h : db'.leases = db.leases) : KeepsLeases P db db' := by
  unfold KeepsLeases
  rw [h]
  exact .refl fun l _ ↦ .refl l

theorem trans (h : KeepsLeases P db db') (h' : KeepsLeases P db' db'') : KeepsLeases P db db'' :=
  Table.Moved.trans h h' fun _ _ _ ↦ Lease.Keeps.trans

theorem onLeases {p : Lease → Bool} {f : Lease → Lease}
    {hf : ∀ l, Keyed.key (f l) = Keyed.key l} (h : ∀ l : Lease, l.Keeps P (f l)) :
    KeepsLeases P db (db.onLeases p f hf) :=
  .update hf (fun l _ _ ↦ h l) fun l _ _ ↦ .refl l

theorem unchanged {p : Lease → Bool} {f : Lease → Lease}
    (h : ∀ l, (f l).project = l.project ∧ (f l).expiresAt = l.expiresAt ∧
      (f l).lastHeartbeatAt = l.lastHeartbeatAt) :
    KeepsLeases P db (db.onLeases p f fun l ↦ congrArg ProjectRecord.id (h l).1) :=
  onLeases fun l ↦ .of_same (h l).1 (h l).2.1 (h l).2.2

theorem renewal {p : Lease → Bool} {f : Lease → Lease} {expires now : Time} (hP : P expires now)
    (h : ∀ l, (f l).project = l.project ∧ (f l).expiresAt = expires ∧
      (f l).lastHeartbeatAt = now) :
    KeepsLeases P db (db.onLeases p f fun l ↦ congrArg ProjectRecord.id (h l).1) := by
  refine onLeases fun l ↦ ⟨(h l).1, .inr ?_⟩
  rw [(h l).2.1, (h l).2.2]
  exact hP

theorem refreshSessions (h : KeepsLeases P db db') (sids : List ℕ) (now : Time) :
    KeepsLeases P db (refreshSessions sids now db') := h.trans (of_eq (refreshSessions_leases sids now db'))

theorem unconsumeReservation (h : KeepsLeases P db db') (leaseId : ℕ) (now : Time) :
    KeepsLeases P db (unconsumeReservation leaseId now db') := h.trans (of_eq rfl)

variable (db)

theorem failCohort (key : String) (now : Time) (reason : String) (settle : Bool) :
    KeepsLeases P db (failCohort key now reason settle db) := by
  cases settle
  · exact unchanged (by intro l; exact ⟨rfl, rfl, rfl⟩)
  · exact trans (unchanged (by intro l; exact ⟨rfl, rfl, rfl⟩))
      (unchanged (by intro l; exact ⟨rfl, rfl, rfl⟩))

theorem failTargetCohorts (sid : ℕ) (now : Time) (reason : String) :
    KeepsLeases P db (failTargetCohorts sid now reason db) := by
  unfold Pool.failTargetCohorts
  generalize db.targetCohorts sid = keys
  induction keys generalizing db with
  | nil => exact of_eq rfl
  | cons key keys ih => exact (failCohort db key now reason false).trans (ih _)

theorem expireCohort (key : String) (now : Time) : KeepsLeases P db (expireCohort key now db) :=
  trans (unchanged (by intro l; exact ⟨rfl, rfl, rfl⟩)) (unchanged (by intro l; exact ⟨rfl, rfl, rfl⟩))

theorem abortCanary (admissionId sid : ℕ) (now : Time) :
    KeepsLeases P db (abortCanary admissionId sid now db) :=
  trans (unchanged (by intro l; exact ⟨rfl, rfl, rfl⟩)) (unchanged (by intro l; exact ⟨rfl, rfl, rfl⟩))

theorem place (l : Lease) (sid slot : ℕ) (offerExpires now : Time) :
    KeepsLeases P db (place l sid slot offerExpires now db) := by
  have hseat : KeepsLeases P db (seatLease l sid slot offerExpires now db) := by
    unfold seatLease
    dsimp only
    split
    · exact unchanged (by intro l; exact ⟨rfl, rfl, rfl⟩)
    · exact unchanged (by intro l; exact ⟨rfl, rfl, rfl⟩)
  exact hseat.trans (of_eq (place_leases_eq l sid slot offerExpires now db))

theorem revokeOffer (l : Lease) {expires now : Time} (hP : P expires now) :
    KeepsLeases P db (revokeOffer l expires now db) := by
  unfold Pool.revokeOffer
  refine refreshSessions ?_ _ now
  split
  · exact renewal hP (by intro l; exact ⟨rfl, rfl, rfl⟩)
  · exact renewal hP (by intro l; exact ⟨rfl, rfl, rfl⟩)

theorem rejectOffer (l : Lease) (cohort : Option String) (now : Time) :
    KeepsLeases P db (rejectOffer l cohort now db) := by
  unfold Pool.rejectOffer
  refine refreshSessions ?_ _ now
  cases cohort with
  | none => exact unchanged (by intro l; exact ⟨rfl, rfl, rfl⟩)
  | some key =>
      exact (failCohort db key now _ false).trans (unchanged (by intro l; exact ⟨rfl, rfl, rfl⟩))

theorem closeSession (sid aid : ℕ) (c : Closure) (live : ℕ) {expires now : Time}
    (hP : P expires now) : KeepsLeases P db (closeSession sid aid c live expires now db) := by
  have hoccupants : ∀ db : Db, KeepsLeases P db (closeOccupants sid c live expires now db) := by
    intro db
    unfold closeOccupants
    split
    · exact of_eq rfl
    · split
      · exact renewal hP (by intro l; exact ⟨rfl, rfl, rfl⟩)
      · exact unchanged (by intro l; exact ⟨rfl, rfl, rfl⟩)
  have hfinish : KeepsLeases P db (finishSession sid c now (closeOccupants sid c live expires now
      (Pool.failTargetCohorts sid now (closeReason sid c) db))) :=
    ((failTargetCohorts db sid now _).trans (hoccupants _)).trans (of_eq rfl)
  unfold Pool.closeSession
  dsimp only
  split
  · exact hfinish.trans (of_eq rfl)
  · exact hfinish

theorem exec {w : Write} (hw : w.naming = false) (hP : w.renews P) : KeepsLeases P db (w.exec db) := by
  cases w
  case admitLease => cases hw
  case bindProjectName => cases hw
  case failCohort key now reason settle refresh =>
    exact refreshSessions (failCohort db key now reason settle) refresh now
  case expireCohort => exact expireCohort ..
  case reserve terms tasks now =>
    obtain ⟨_, hframe⟩ := reserve_frame terms tasks now db
    exact of_eq ((congrArg Db.leases hframe).trans rfl)
  case openCanary sid group profile slots expires now =>
    obtain ⟨_, hframe⟩ := openCanary_frame sid group profile slots expires now db
    exact of_eq ((congrArg Db.leases hframe).trans rfl)
  case abortCanary => exact abortCanary ..
  case place => exact place ..
  case revokeOffer => exact revokeOffer db _ hP
  case rejectOffer => exact rejectOffer ..
  case attachLease => exact renewal hP (by intro l; exact ⟨rfl, rfl, rfl⟩)
  case heartbeatLease => exact renewal hP (by intro l; exact ⟨rfl, rfl, rfl⟩)
  case activateLease => exact renewal hP (by intro l; exact ⟨rfl, rfl, rfl⟩)
  case renewWaiting => exact renewal hP (by intro l; exact ⟨rfl, rfl, rfl⟩)
  case completePipeline => exact renewal hP (by intro l; exact ⟨rfl, rfl, rfl⟩)
  case closeSession => exact closeSession db _ _ _ _ hP
  case supersedeLease => exact refreshSessions (unchanged (by intro l; exact ⟨rfl, rfl, rfl⟩)) _ _
  case requeueOffer =>
    exact refreshSessions (unconsumeReservation (unchanged (by intro l; exact ⟨rfl, rfl, rfl⟩)) _ _) _ _
  case cancelLease => exact refreshSessions (unchanged (by intro l; exact ⟨rfl, rfl, rfl⟩)) _ _
  case expireOffer => exact refreshSessions (unchanged (by intro l; exact ⟨rfl, rfl, rfl⟩)) _ _
  case beginRelease leaseId sid reason now =>
    cases sid with
    | none => exact unchanged (by intro l; exact ⟨rfl, rfl, rfl⟩)
    | some sid => exact unchanged (by intro l; exact ⟨rfl, rfl, rfl⟩)
  case completeRelease sid leaseId success message now =>
    cases success
    · exact unchanged (by intro l; exact ⟨rfl, rfl, rfl⟩)
    · exact unchanged (by intro l; exact ⟨rfl, rfl, rfl⟩)
  -- the leases are not touched, or updated once
  all_goals first
    | exact of_eq rfl
    | exact unchanged (by intro l; exact ⟨rfl, rfl, rfl⟩)

end KeepsLeases

/-- Any write at all: a lease that was not there has been admitted. -/
theorem lasts_exec {db : Db} {w : Write} (hP : w.renews P) {l' : Lease}
    (hl' : l' ∈ (w.exec db).leases) :
    (∃ l ∈ db.leases, l.id = l'.id ∧ l.Lasts P l') ∨ P l'.expiresAt l'.lastHeartbeatAt := by
  cases hw : w.naming with
  | false =>
      obtain ⟨l, hl, hkeeps⟩ := (KeepsLeases.exec db hw hP).exists_left hl'
      exact .inl ⟨l, hl, congrArg ProjectRecord.id hkeeps.project.symm, hkeeps.lasts⟩
  | true =>
      cases w
      case admitLease q reservation canary now =>
        rcases (mem_admitLease q reservation canary now db).mp hl' with hl | rfl
        · exact .inl ⟨l', hl, rfl, .inl ⟨rfl, rfl⟩⟩
        · exact .inr hP
      case bindProjectName leaseId state tokenHash name now =>
        obtain ⟨l, hl, rfl⟩ := Db.mem_onLeases.mp hl'
        refine .inl ⟨l, hl, ?_⟩
        split
        · exact ⟨rfl, .inl ⟨rfl, rfl⟩⟩
        · exact ⟨rfl, .inl ⟨rfl, rfl⟩⟩
      all_goals cases hw

end SlurmScheduler.Pool
