import SlurmScheduler.Pool.Writes

namespace SlurmScheduler.Pool

open Relational PoolTx

namespace Db

variable (db : Db)

def slotLeases (admissionId : ℕ) : List Lease :=
  (db.canarySlots.select (·.admissionId == admissionId)).filterMap fun c ↦
    c.leaseId.bind db.leases.find?

def abortCandidates (now : Time) : List Admission :=
  db.admissions.select fun a ↦ a.state.pending &&
    !((db.slotLeases a.id).any (·.solvePermitAt.isSome)) &&
    (decide (a.expiresAt ≤ now) ||
      (db.slotLeases a.id).any fun l ↦ l.state == .releasing || l.state.terminal)

def mixedCanaryBatchIsComplete (sid : ℕ) : Bool :=
  match (db.admissions.select fun a ↦ a.sessionId == sid && a.state.reserving).getLast? with
  | none => true
  | some a => match db.sessions.find? sid with
    | none => true
    | some s =>
        a.state == .filled && a.expectedProjects == s.slotsTotal &&
        db.canarySlots.count (·.admissionId == a.id) == a.expectedProjects &&
        ((db.slotLeases a.id).filter fun l ↦ l.sessionId == some a.sessionId &&
          l.state == .active).length == a.expectedProjects

end Db

def refreshMixedCanaryAdmissions (now : Time) : PoolTx Unit := do
  let candidates ← read (·.abortCandidates now)
  Tx.forEach candidates fun a ↦ write (.abortCanary a.id a.sessionId now)
  write (.finishCanaries now)

structure CanaryFamily where
  workloadFamily : String
  projectNamespace : String
  projects : ℕ

structure CanaryRequest where
  sessionId : ℕ
  families : List CanaryFamily
  ttlSeconds : ℕ := 1800
  latestValidation : Option Validation := none
  groupToken : String
  /-- the random part of the dedupe key of each slot, in order -/
  slotTokens : List String

def canarySlotKeys (admissionId : ℕ) (cohort : List CanaryFamily) (tokens : List String) :
    List (String × String × String) :=
  let slots := cohort.flatMap fun f ↦ (List.range f.projects).map fun i ↦ (f, i)
  (slots.zip tokens).map fun slot ↦
    ("aedt-mixed-canary:" ++ toString admissionId ++ ":" ++ slot.1.1.workloadFamily ++ ":" ++
      toString slot.1.2 ++ ":" ++ slot.2, slot.1.1.workloadFamily, slot.1.1.projectNamespace)

def Service.createMixedCanaryAdmission (svc : Service) (now : Time) (q : CanaryRequest) :
    PoolTx (Option Admission) := do
  check (0 < q.sessionId) "session_id must be positive"
  check (2 ≤ q.families.length && q.families.length ≤ 8)
    "mixed canary requires two to eight explicit families"
  let cohort := q.families.map fun f ↦
    { f with
      workloadFamily := svc.lower (svc.strip f.workloadFamily)
      projectNamespace := svc.strip f.projectNamespace }
  check (cohort.all fun f ↦ f.workloadFamily != "" && f.projectNamespace != "" && 0 < f.projects)
    "mixed canary family names and positive project counts are required"
  check (decide (cohort.map (·.workloadFamily)).Nodup)
    "mixed canary workload families must be distinct"
  check (decide (cohort.map (·.projectNamespace)).Nodup)
    "mixed canary project namespaces must be distinct"
  let expectedProjects := (cohort.map (·.projects)).sum
  check (60 ≤ q.ttlSeconds && q.ttlSeconds ≤ 3600) "ttl_seconds must be between 60 and 3600"
  check (!(q.latestValidation.any (·.mixedFamilyIsolationPassed)))
    "mixed-family isolation has already passed validation"
  refreshMixedCanaryAdmissions now
  let session ← read (·.sessions.find? q.sessionId)
  let s ← require session (.value "mixed canary session does not exist")
  check (s.state == .ready) "mixed canary session must be ready"
  check (s.slotsTotal == expectedProjects) "mixed canary project count must match session slots"
  check s.solveBatchSealedAt.isNone "mixed canary session solve batch is already sealed"
  check s.drainRequestedAt.isNone "mixed canary session is draining"
  let profile ← lift (svc.canonicalExpectedSessionProfile s.sessionProfile)
  let occupied ← read (·.used q.sessionId)
  check (occupied == 0) "mixed canary session must be empty"
  let active ← read fun db ↦
    db.admissions.rows.any fun a ↦ a.sessionId == q.sessionId && a.state.pending
  check (!active) "mixed canary session already has an active admission"
  let held ← read (·.held q.sessionId)
  check (held == 0) "mixed canary session has exact-session reservations"
  let admissionId ← read (·.admissions.nextKey)
  let group := "mixed-canary-" ++ toString q.sessionId ++ "-" ++ q.groupToken
  let slots := canarySlotKeys admissionId cohort q.slotTokens
  Tx.require (slots.length == expectedProjects) (.runtime "one token for each slot")
  let groupTaken ← read fun db ↦ db.admissions.rows.any (·.placementGroup == group)
  Tx.require (!groupTaken) (.integrity "UNIQUE(placement_group)")
  let keyTaken ← read fun db ↦
    db.canarySlots.rows.any fun c ↦ (slots.map (·.1)).contains c.dedupeKey
  Tx.require (!keyTaken && decide (slots.map (·.1)).Nodup) (.integrity "UNIQUE(dedupe_key)")
  write (.openCanary q.sessionId group profile slots (now + q.ttlSeconds) now)
  read (·.admissions.find? admissionId)

/-- `_authorize_mixed_canary_lease` for a lease of the task. -/
def authorizeMixedCanaryLease (taskId : ℕ) (requestKey tokenHash family projectNamespace : String)
    (profile : String) (protocolVersion : ℕ) (now : Time) : PoolTx (CanarySlot × Admission) := do
  let unauthorized := "shared_if_compatible requires passed mixed-family isolation validation " ++
    "or a bootstrap-issued canary task"
  check (0 < taskId) unauthorized
  let task ← read (·.tasks.find? taskId)
  let t ← require (task.filter (!·.status.terminal))
    (.value "mixed canary task is missing or terminal")
  check (t.aedtBackend == "pooled") "mixed canary task must declare aedt_backend=pooled"
  check (protocolVersion == 2) "mixed canary task requires protocol_version=2"
  let slot ← read fun db ↦ (db.canarySlots.rows.find? (·.dedupeKey == t.dedupeKey)).bind fun c ↦
    (db.admissions.find? c.admissionId).map fun a ↦ (c, a)
  let (c, a) ← require slot (.value unauthorized)
  check a.state.pending "mixed canary admission is no longer active"
  check (c.workloadFamily == family)
    "mixed canary workload_family does not match its reserved slot"
  check (c.projectNamespace == projectNamespace)
    "mixed canary project_namespace does not match its reserved slot"
  check (a.sessionProfile == profile) "mixed canary session profile does not match its reservation"
  let session ← read (·.sessions.find? a.sessionId)
  let s ← require (session.filter (·.state.assignable))
    (.value "mixed canary session is not ready")
  check (s.slotsTotal == a.expectedProjects) "mixed canary session slot count changed"
  check (s.solveBatchSealedAt.isNone && s.drainRequestedAt.isNone)
    "mixed canary session is sealed or draining"
  check (s.sessionProfile == profile) "mixed canary host session profile drifted"
  match c.leaseId with
  | some leaseId =>
      let existing ← read (·.leases.find? leaseId)
      check (existing.any fun l ↦ l.requestKey == requestKey && l.clientTokenHash == tokenHash)
        "mixed canary task slot has already been consumed"
  | none => check (now < a.expiresAt) "mixed canary admission expired"
  return (c, a)

end SlurmScheduler.Pool
