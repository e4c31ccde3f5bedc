import SlurmScheduler.Dispatch.Schema

namespace SlurmScheduler.Dispatch

open Pool (Time)

abbrev LicenseClaims : Type := List (String × LicenseClaim)

abbrev Costs : Type := List (String × ℕ)

/-- `dict.get(key)` -/
def lookup {β : Type} (key : String) (d : List (String × β)) : Option β :=
  (d.find? (·.1 == key)).map (·.2)

/-- `dict[key] = value` -/
def assign {β : Type} (key : String) (value : β) (d : List (String × β)) : List (String × β) :=
  if d.any (·.1 == key) then d.map fun e ↦ if e.1 == key then (key, value) else e
  else d ++ [(key, value)]

def costOf (feature : String) (costs : Costs) : ℕ := (lookup feature costs).getD 0

namespace Site

variable (site : Site)

/-- `_license_costs_for_task`; `none` is a fail-closed profile error. -/
def licenseCostsForTask (task : Task) : Option Costs :=
  if !site.license.enabled then some [] else
  match lookup (site.svc.strip task.project) site.license.persistentCostByProject with
  | some (cost :: costs) =>
      some <|
        if site.svc.isPooled task.toTask then
          (cost :: costs).filter fun c ↦ site.svc.lower c.1 != "electronics_desktop"
        else cost :: costs
  | _ =>
      if task.schedulingProfile == .feaBursty && site.license.blockUnknownFeaProjects then none
      else some []

def licenseClaimKey (task : Task) : String :=
  let token := site.svc.strip task.attachToken
  if token != "" then token
  else "legacy:" ++ toString task.id ++ ":" ++
    toString (task.attachedAt.getD (task.startedAt.getD task.createdAt))

/-- `_license_claims_for_task_locked`: the claim of the attempt, or every claim of the task. -/
def licenseClaimsForTask (task : Task) (claims : LicenseClaims) : List String :=
  let token := site.svc.strip task.attachToken
  if token != "" && claims.any (·.1 == token) then [token]
  else (claims.filter (·.2.taskId == task.id)).map (·.1)

end Site

namespace LicenseClaim

def unlaunched (c : LicenseClaim) : Bool := c.launchStartedAt.isNone && c.runningAt.isNone

def launch (now : Time) (c : LicenseClaim) : Option LicenseClaim :=
  some { c with launchStartedAt := some (c.launchStartedAt.getD now) }

def run (now : Time) (c : LicenseClaim) : Option LicenseClaim :=
  some { c with state := .running, runningAt := some (c.runningAt.getD now) }

def finish (c : LicenseClaim) : Option LicenseClaim :=
  if c.unlaunched then none else some { c with state := .terminal }

def releasePrelaunch (c : LicenseClaim) : Option LicenseClaim :=
  if c.unlaunched then none else some c

/-- `_license_claim_from_task` -/
def fromTask (task : Task) (costs : Costs) : LicenseClaim where
  taskId := task.id
  project := task.project
  costs := costs
  state := if task.status == .running then .running else .attaching
  claimedAt := task.attachedAt.getD task.createdAt
  launchStartedAt := task.launchStartedAt
  runningAt := task.startedAt

def settledBy (settlementSeconds : ℕ) (queryStartedAt : Time) (c : LicenseClaim) : Bool :=
  c.state != .attaching &&
    ((c.runningAt.orElse fun _ ↦ c.launchStartedAt).any fun anchor ↦
      anchor + settlementSeconds ≤ queryStartedAt)

end LicenseClaim

inductive LicenseEvent
  | launchStarted | running | terminal | prelaunchReleased
  deriving DecidableEq, Repr

def LicenseEvent.apply (now : Time) : LicenseEvent → LicenseClaim → Option LicenseClaim
  | launchStarted, c => c.launch now
  | running, c => c.run now
  | terminal, c => c.finish
  | prelaunchReleased, c => c.releasePrelaunch

namespace LicenseClaims

def on (keys : List String) (e : LicenseEvent) (now : Time) (claims : LicenseClaims) :
    LicenseClaims :=
  claims.filterMap fun c ↦
    if keys.contains c.1 then (e.apply now c.2).map fun c' ↦ (c.1, c') else some c

/-- `_license_reconcile_claims_locked` -/
def reconcile (settlementSeconds : ℕ) (queryStartedAt : Time) (claims : LicenseClaims) :
    LicenseClaims :=
  claims.filter fun e ↦ !e.2.settledBy settlementSeconds queryStartedAt

/-- `_license_unsettled_costs_locked` -/
def unsettled (claims : LicenseClaims) (feature : String) : ℕ :=
  (claims.map fun e ↦ costOf feature e.2.costs).sum

end LicenseClaims

inductive LicenseBlock
  | monitorDisabled
  | noSnapshot
  | monitorError (message : String)
  | serverDown
  | stale
  | featureMissing (feature : String)
  | invalidCounts (feature : String)
  | exhausted (feature : String)
  | unconfiguredProject (project : String)
  deriving DecidableEq, Repr

/-- `by_name.get(feature)`: the last entry of a name wins. -/
def LicenseUsage.feature? (u : LicenseUsage) (feature : String) : Option LicenseFeature :=
  u.features.reverse.find? (·.feature == feature)

namespace Site

variable (site : Site)

def admitFeature (usage : LicenseUsage) (claims : LicenseClaims) (candidate : Costs)
    (exempt : Bool) (feature : String) : Except LicenseBlock Unit :=
  match usage.feature? feature with
  | none => .error (.featureMissing feature)
  | some item =>
      if item.total == 0 || item.total < item.used then .error (.invalidCounts feature) else
      let capacity := if exempt then item.total else item.total - site.license.reserve feature
      if capacity < item.used + claims.unsettled feature + costOf feature candidate then
        .error (.exhausted feature)
      else .ok ()

/-- `_license_admission_diagnostics_locked`, of which admission reads the blocked reason. -/
def licenseDiagnostics (m : Memory) (now maxAge : Time) (candidate : Costs) (exempt : Bool) :
    Except LicenseBlock Unit :=
  if !site.license.monitorEnabled then .error .monitorDisabled else
  match m.licenseUsage, m.licenseSnapshotCompletedAt with
  | none, _ => .error .noSnapshot
  | some usage, completed =>
      if usage.error != "" then .error (.monitorError usage.error) else
      if !usage.serverUp then .error .serverDown else
      match completed with
      | none => .error .noSnapshot
      | some at_ =>
          if maxAge < now - at_ then .error .stale else
          (site.license.configuredFeatures ++ candidate.map (·.1)).forM
            (site.admitFeature usage m.licenseClaims candidate exempt)

/-- `_license_task_admitted_locked` -/
def licenseTaskAdmitted (task : Task) (m : Memory) (now maxAge : Time) : Except LicenseBlock Unit :=
  if !site.license.enabled then .ok () else
  match site.licenseCostsForTask task with
  | none => .error (.unconfiguredProject task.project)
  | some [] => .ok ()
  | some costs =>
      site.licenseDiagnostics m now maxAge costs
        (site.license.reserveExemptProjects.contains (site.svc.strip task.project))

end Site

end SlurmScheduler.Dispatch
