import SlurmScheduler.Dispatch.Attach

namespace SlurmScheduler.Dispatch

open Relational Concurrent Proc
open Pool (Time TaskStatus AllocationStatus)

/-- `update_allocation_if_submission_claim` and whether it has changed a row. -/
def updateAllocationIfSubmissionClaim (id : ℕ) (phase : String) (change : AllocationChange) :
    Action Bool :=
  transact fun s ↦ ([.updateAllocationIfSubmissionClaim id phase change],
    (s.allocation? id).any (·.submissionClaim id phase))

inductive Claimed
  | unconfigured
  /-- Another thread has taken the row out of the reserved phase. -/
  | lost
  | vanished
  | claimed (current : Allocation)

def claimSubmissions (site : Site) (allocations : List Allocation) :
    Action (List (Allocation × Claimed)) :=
  fold allocations [] fun plan allocation ↦ do
    if !site.accounts.contains allocation.accountName then
      pure (plan ++ [(allocation, .unconfigured)]) else
    if !(← updateAllocationIfSubmissionClaim allocation.id submissionReserved
        .submissionStarted) then
      pure (plan ++ [(allocation, .lost)]) else
    match ← read (·.allocation? allocation.id) with
    | none => pure (plan ++ [(allocation, .vanished)])
    | some current => pure (plan ++ [(allocation, .claimed current)])

def Claimed.current? : Claimed → Option Allocation
  | claimed current => some current
  | _ => none

def submitAllocation (allocation : Allocation) : Action (ℕ × Submission) := do
  write (.remote (.submitAllocation allocation.id))
  let outcome ← submitAllocationCall allocation.id
  match outcome.created with
  | some slurmJobId => write (.remote (.createdJob allocation.id slurmJobId))
  | none => pure ()
  pure (allocation.id, outcome.reported)

/-- `submit_account`: one client submits the rows of an account one after the other. -/
def submitAccount (allocations : List Allocation) : Action (List (ℕ × Submission)) := do
  let clientRaised ← askDecision
  if clientRaised then do
    let error ← askText
    pure (allocations.map fun a ↦ (a.id, .notCreated error))
  else fold allocations [] fun outcomes allocation ↦ do
    let outcome ← submitAllocation allocation
    pure (outcomes ++ [outcome])

def submitAccountWorker (allocations : List Allocation) : Action Unit := do
  let outcomes ← submitAccount allocations
  write (.submitted outcomes)

/-- `_fan_out_by_account` of `submit_account`.  A single account is submitted by the caller;
otherwise the caller stops waiting for a worker when its budget is spent, which may be at any
time, and the worker goes on. -/
def submitByAccount (accounts : List (String × List Allocation)) :
    Action (List (ℕ × Submission)) :=
  match accounts with
  | [] => pure []
  | [(_, rows)] => submitAccount rows
  | accounts => do
      forEach accounts fun account ↦ spawn (.submitAccount account.2)
      fold accounts [] fun outcomes account ↦ do
        let returned ← read fun s ↦
          s.memory.submissions.filter fun o ↦ account.2.any (·.id == o.1)
        pure (outcomes ++ returned)

def submissionFailure (allocation : Allocation) (error : String) : AllocationChange :=
  .submissionFailed
    (Pool.orDefault allocation.drainReason "allocation submission" ++ ": " ++ error)

def submissionAmbiguity (error : String) : AllocationChange :=
  .submissionLost
    ("allocation sbatch outcome ambiguous; awaiting exact Slurm reconciliation: " ++ error)

def reapSubmission (site : Site) (allocation : Allocation) (slurmJobId : String) : Action Unit :=
  when (site.accounts.contains allocation.accountName && slurmJobId != "") do
    match ← cancelCall slurmJobId with
    | none => write (.remote (.reap allocation.id slurmJobId))
    | some _ => pure ()

def settleSubmission (site : Site) (outcomes : List (ℕ × Submission))
    (row : Allocation × Claimed) : Action Unit :=
  let allocation := row.1
  let claim (phase : String) (change : AllocationChange) : Action Unit := do
    let _ ← updateAllocationIfSubmissionClaim allocation.id phase change
  match row.2 with
  | .lost => pure ()
  | .unconfigured => claim submissionReserved (submissionFailure allocation
      ("allocation account '" ++ allocation.accountName ++ "' is not configured"))
  | .vanished => claim submissionInProgress
      (submissionAmbiguity "claimed allocation disappeared before remote submission")
  | .claimed _ =>
      let outcome : Option Submission := (outcomes.find? (·.1 == allocation.id)).map (·.2)
      match outcome with
      | none => claim submissionInProgress (submissionAmbiguity "")
      | some (.ambiguous e) => claim submissionInProgress (submissionAmbiguity e)
      | some (.notCreated e) => claim submissionInProgress (submissionFailure allocation e)
      | some (.created slurmJobId) => do
          if ← updateAllocationIfSubmissionClaim allocation.id submissionInProgress
              (.acknowledged slurmJobId) then pure ()
          else reapSubmission site allocation slurmJobId

def submitReservedAllocationRecords (site : Site) (allocations : List Allocation) :
    Action Unit := do
  let plan ← claimSubmissions site allocations
  let outcomes ← submitByAccount
    (byAccount (·.accountName) (plan.filterMap (·.2.current?)))
  forEach plan (settleSubmission site outcomes)

/-- `create_allocation` of a reserved row, which is read back. -/
def createReserved (shape : Allocation) (reason : String) : Action (Option Allocation) := do
  let id ← transact fun s ↦
    ([.createAllocation { shape with drainReason := reason, pendingReason := submissionReserved }],
      s.allocations.nextKey)
  read (·.allocation? id)

/-- `open_allocation_record`, when an account and a shape have been found. -/
def openAllocationRecord (site : Site) (reason : String) : Action Unit := do
  let chosen ← askDecision
  if !chosen then pure () else
  let shape ← chooseAllocationShape
  match ← createReserved shape reason with
  | none => pure ()
  | some allocation => submitReservedAllocationRecords site [allocation]

def openPlannedAllocations (site : Site) : Action Unit := do
  let rows ← askRows
  let reserved ← fold rows [] fun reserved _ ↦ do
    let reason ← askText
    let shape ← chooseAllocationShape
    let allocation ← createReserved shape reason
    pure (reserved ++ allocation.toList)
  submitReservedAllocationRecords site reserved

/-- `ALLOCATION_SUBMISSION_RECOVERY_GRACE_SECONDS` -/
def submissionRecoveryGraceSeconds : ℕ := 120

def reservedAbandoned : AllocationChange :=
  .abandoned "scheduler restarted before allocation sbatch began; safe to retry"

def inProgressAbandoned : AllocationChange :=
  .abandoned ("no exact Slurm allocation job appeared within " ++
    toString submissionRecoveryGraceSeconds ++ "s; safe to retry")

def holdRecovery (allocation : Allocation) (message : String) : Action Unit :=
  when (message != allocation.failureMessage)
    (write (.updateAllocation allocation (.recoveryHeld message)))

def abandonAfterGrace (allocation : Allocation) : Action Unit := do
  let now ← read (·.clock)
  let age := now - allocation.submittedAt.getD allocation.updatedAt
  if submissionRecoveryGraceSeconds ≤ age then do
    let _ ← updateAllocationIfSubmissionClaim allocation.id submissionInProgress
      inProgressAbandoned
  else
    write (.updateAllocation allocation (.recoveryHeld
      ("awaiting exact Slurm allocation job during recovery grace (" ++
        toString (max 1 (submissionRecoveryGraceSeconds - age)) ++ "s remaining)")))

/-- `find_allocation_submissions`: the jobs with the name of the row. -/
def findSubmissions (site : Site) (allocation : Allocation) : Action (Except String (List String)) :=
  if !site.accounts.contains allocation.accountName then
    pure (.error ("account " ++ Pool.orDefault allocation.accountName "<blank>" ++
      " not configured"))
  else findAllocationSubmissions allocation.id

def ambiguousRecovery (slurmJobIds : List String) : String :=
  "allocation submission recovery ambiguous; exact job name matched " ++
    ", ".intercalate (slurmJobIds.insertionSort (· ≤ ·))

def recoverSubmissionClaim (site : Site) (allocation : Allocation) : Action Unit := do
  if allocation.pendingReason == submissionReserved then do
    let _ ← updateAllocationIfSubmissionClaim allocation.id submissionReserved reservedAbandoned
  else
  match ← findSubmissions site allocation with
  | .error e => holdRecovery allocation ("allocation submission recovery query failed: " ++ e)
  | .ok (a :: b :: rest) => holdRecovery allocation (ambiguousRecovery (a :: b :: rest))
  | .ok [slurmJobId] =>
      if site.svc.strip slurmJobId != "" then do
        let _ ← updateAllocationIfSubmissionClaim allocation.id submissionInProgress
          (.adopted (site.svc.strip slurmJobId))
      else abandonAfterGrace allocation
  | .ok [] => abandonAfterGrace allocation

def Allocation.claimed (a : Allocation) : Bool :=
  a.state == .pending && a.slurmJobId == "" &&
    (a.pendingReason == submissionReserved || a.pendingReason == submissionInProgress)

def recoverAllocationSubmissionClaims (site : Site) : Action Unit := do
  let allocations ← read (·.listAllocationsWithLive 0 10000)
  forEach ((allocations.filter (·.claimed)).insertionSort fun a b ↦ a.id ≤ b.id)
    (recoverSubmissionClaim site)

def poolJobName (allocationId : ℕ) : String := "pool-" ++ toString allocationId

/-- `pool` or `pool-\d+` -/
def isPoolJobName (name : String) : Bool :=
  name == "pool" || Pool.startsWith "pool-" name && 5 < name.length &&
    (name.toList.drop 5).all Char.isDigit

def Site.protects (live : List Allocation) (accountName : String) (job : String × String) : Bool :=
  live.any (fun a ↦ a.slurmJobId != "" && a.slurmJobId == job.1) ||
    live.any fun a ↦ a.state == .pending && a.slurmJobId == "" &&
      a.pendingReason == submissionInProgress && a.accountName == accountName &&
      poolJobName a.id == job.2

def reconcileSlurmState (site : Site) : Action Unit := do
  let allocations ← read (·.listAllocationsWithLive 1000 5000)
  let live := allocations.filter fun a ↦ liveStates.contains a.state
  forEach site.accounts fun accountName ↦ do
    match ← squeue accountName with
    | .error _ => pure ()
    | .ok jobs =>
        forEach (jobs.filter fun job ↦ isPoolJobName job.2 && job.1 != "" &&
            !Site.protects live accountName job) fun job ↦ do
          write (.remote (.cancelOrphan job.1))
          let _ ← cancelCall job.1

def submitNextQueuedJob : Action Unit := do
  let next ← askRows
  let job ← read fun s ↦ next.head?.bind fun id ↦ (s.job? id).filter (·.status == .queued)
  let ready ← askDecision
  match job with
  | none => pure ()
  | some job =>
      if !ready then pure () else
      let accountName ← askText
      write (.updateJob job.id (.submitting accountName))
      write (.remote (.submitJob job.id))
      match ← submitJobCall job.id with
      | .error e => write (.updateJob job.id (.submitFailed e))
      | .ok slurmJobId => write (.updateJob job.id (.submitted slurmJobId))

def State.listJobs (s : State) (limit : ℕ) : List Job := s.jobs.rows.reverse.take limit

def refreshSubmittedJobs (site : Site) : Action Unit := do
  let jobs ← read (·.listJobs 500)
  let submitted := jobs.filter fun j ↦ (j.status == .submitted || j.status == .running) &&
    site.accounts.contains j.accountName && j.slurmJobId != ""
  let outcomes ← fanOutByAccount (byAccount (·.accountName) submitted) fun _ rows ↦
    jobStates (rows.map (·.slurmJobId))
  forEach outcomes fun (_, rows, outcome) ↦
    match outcome with
    | .error _ => pure ()
    | .ok states => forEach rows fun job ↦
        match lookup job.slurmJobId states with
        | none => pure ()
        | some info => write (.updateJob job.id (.refreshed info.status))

/-- `cancel` of a batch job: an exception leaves the row as it is. -/
def cancelJob (site : Site) (jobId : ℕ) : Action Unit := do
  match ← read (·.job? jobId) with
  | none => pure ()
  | some job =>
      if job.accountName == "" || job.slurmJobId == "" then write (.updateJob jobId .cancelled)
      else if !site.accounts.contains job.accountName then pure () else
      match ← cancelCall job.slurmJobId with
      | some _ => pure ()
      | none => write (.updateJob jobId .cancelled)

end SlurmScheduler.Dispatch
