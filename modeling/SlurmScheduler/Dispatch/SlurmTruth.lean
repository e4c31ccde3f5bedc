import SlurmScheduler.Dispatch.Submission
import SlurmScheduler.Dispatch.Effects
import SlurmScheduler.Slurm.Replies

namespace SlurmScheduler.Dispatch

open Relational Concurrent Proc Statement
open Pool (Time TaskStatus AllocationStatus)
open Slurm (Session Reply Report Python counted mapSlurmState jobIds)
open Slurm.Text (strip strip_idem)

def endedNames : List String :=
  ["BOOT_FAIL", "CANCELLED", "COMPLETED", "DEADLINE", "FAILED", "NODE_FAIL", "OUT_OF_MEMORY",
    "PREEMPTED", "TIMEOUT"]

def endedCodes : List String := ["BF", "CA", "CD", "DL", "F", "NF", "OOM", "PR", "TO"]

def liveNames : List String :=
  ["PENDING", "RUNNING", "SUSPENDED", "COMPLETING", "CONFIGURING", "REQUEUED", "REQUEUE_FED",
    "REQUEUE_HOLD", "RESIZING", "RESV_DEL_HOLD", "REVOKED", "SIGNALING", "SPECIAL_EXIT",
    "STAGE_OUT", "STOPPED"]

/-- A name that a narrow column has cut, as in `CANCELLED+`, and that is of no live state. -/
def cutShort (state : String) : Bool :=
  match state.toList.reverse with
  | '+' :: begun => endedNames.any (begun.reverse.isPrefixOf ·.toList) &&
      !liveNames.any (begun.reverse.isPrefixOf ·.toList)
  | _ => false

def endedState (state : String) : Bool :=
  endedNames.contains state || endedCodes.contains state ||
    Pool.startsWith "CANCELLED by " state || cutShort state

variable (py : Python)

def reportsEnded (log : List Reply) (jobId : String) : Bool :=
  log.any fun r ↦ (r.states py jobId).any endedState

def showsGone (log : List Reply) (jobId : String) : Bool :=
  log.any (·.lacks jobId) && log.all fun r ↦ (r.states py jobId).all endedState

def accounted (log : List Reply) (jobId : String) (closing : Bool) : Bool :=
  reportsEnded py log jobId || log.any (·.denies py jobId) || closing && showsGone py log jobId

section Probes

variable {β : Type} (sessions : String → Session) (rows : List β) (accountName jobId : β → String)

/-- The ids of an account's rows, as its session is asked for them. -/
def asked (name : String) : List String :=
  (rows.filter (accountName · == name)).map jobId

def heard (name : String) : List Reply :=
  ((sessions name).ask py (asked rows accountName jobId name)).2

def slurmAnswers : Oracle Question Question.Answer := fun n q ↦
  match q with
  | .jobStates ids => ((sessions (((rows.map accountName).dedup).getD n "")).ask py ids).1
  | q => sampleAnswers q

end Probes

namespace Site

variable (site : Site)

def refreshesAllocation (a : Allocation) : Bool :=
  liveStates.contains a.state && a.slurmJobId != "" && site.accounts.contains a.accountName

def refreshesJob (j : Job) : Bool :=
  (j.status == .submitted || j.status == .running) && site.accounts.contains j.accountName &&
    j.slurmJobId != ""

end Site

namespace State

variable (s : State) (site : Site) (sessions : String → Session)

def refreshedRows : List Allocation :=
  (s.listAllocationsWithLive 500 10000).filter site.refreshesAllocation

def refreshedJobs : List Job := (s.listJobs 500).filter site.refreshesJob

def afterRefreshAllocations : State :=
  ((refreshAllocations site).solo
    (slurmAnswers py sessions (s.refreshedRows site) (·.accountName)) 0 s).state

/-- The state that `refresh_submitted_jobs` leaves. -/
def afterRefreshSubmittedJobs : State :=
  ((refreshSubmittedJobs site).solo
    (slurmAnswers py sessions (s.refreshedJobs site) (·.accountName)) 0 s).state

def heardOf (a : Allocation) : List Reply :=
  heard py sessions (s.refreshedRows site) (·.accountName) (·.slurmJobId) a.accountName

def heardOfJob (j : Job) : List Reply :=
  heard py sessions (s.refreshedJobs site) (·.accountName) (·.slurmJobId) j.accountName

end State

def closesRow (report : Option Report) : Bool :=
  report.any fun r ↦ r == .denied || r.info.status.terminal

def showsRunning (report : Option Report) : Bool := report.any (·.info.status == .running)

def endsJob (report : Option Report) : Bool := report.any (·.info.status.terminal)

namespace State

variable (s : State) (site : Site) (sessions : String → Session)

def probed (a : Allocation) : Bool :=
  (s.refreshedRows site).any (·.id == a.id) &&
    ((sessions a.accountName).ask py
      (asked (s.refreshedRows site) (·.accountName) (·.slurmJobId) a.accountName)).1.isOk

def probedJob (j : Job) : Bool :=
  (s.refreshedJobs site).any (·.id == j.id) &&
    ((sessions j.accountName).ask py
      (asked (s.refreshedJobs site) (·.accountName) (·.slurmJobId) j.accountName)).1.isOk

def reportOf (a : Allocation) : Option Report :=
  if strip a.slurmJobId = a.slurmJobId then
    counted py (s.heardOf py site sessions a) a.slurmJobId
  else none

def reportOfJob (j : Job) : Option Report :=
  if strip j.slurmJobId = j.slurmJobId then
    counted py (s.heardOfJob py site sessions j) j.slurmJobId
  else none

end State

/-- A row is closed or failed only if Slurm accounts for it, and a row whose job has ended does
not stay. -/
structure FollowsSlurm (site : Site) (sessions : String → Session) (s : State) : Prop where
  closed : ∀ a ∈ s.allocations, liveStates.contains a.state = true → ∀ a',
    (s.afterRefreshAllocations py site sessions).allocation? a.id = some a' →
      a'.state = .closed ∨ a'.state = .failed →
        accounted py (s.heardOf py site sessions a) (strip a.slurmJobId)
          (a.state == .closing) = true
  left : ∀ a ∈ s.allocations, a.state.serving = true →
    reportsEnded py (s.heardOf py site sessions a) (strip a.slurmJobId) = true → ∀ a',
      (s.afterRefreshAllocations py site sessions).allocation? a.id = some a' →
        a'.state.serving = false
  finished : ∀ j ∈ s.jobs, j.status.terminal = false → ∀ j',
    (s.afterRefreshSubmittedJobs py site sessions).job? j.id = some j' →
      j'.status.terminal = true →
        accounted py (s.heardOfJob py site sessions j) (strip j.slurmJobId) false = true
  ended : ∀ j ∈ s.jobs, j.status = .submitted ∨ j.status = .running →
    reportsEnded py (s.heardOfJob py site sessions j) (strip j.slurmJobId) = true → ∀ j',
      (s.afterRefreshSubmittedJobs py site sessions).job? j.id = some j' →
        j'.status ≠ .submitted ∧ j'.status ≠ .running

/-- A closing row is closed with a reason unless its job runs, and the report that counts is one
that ends the job where any report does. -/
structure Heeds (site : Site) (sessions : String → Session) (s : State) : Prop where
  closing : ∀ a ∈ s.allocations, a.state = .closing → s.probed py site sessions a = true →
    showsRunning (s.reportOf py site sessions a) = true ∨
      accounted py (s.heardOf py site sessions a) (strip a.slurmJobId) true = true
  left : ∀ a ∈ s.allocations, a.state.serving = true →
    reportsEnded py (s.heardOf py site sessions a) (strip a.slurmJobId) = true →
      s.probed py site sessions a = true ∧ closesRow (s.reportOf py site sessions a) = true
  ended : ∀ j ∈ s.jobs, j.status = .submitted ∨ j.status = .running →
    reportsEnded py (s.heardOfJob py site sessions j) (strip j.slurmJobId) = true →
      s.probedJob py site sessions j = true ∧ endsJob (s.reportOfJob py site sessions j) = true

section Loop

variable {py} {β : Type} {sessions : String → Session} {rows : List β} {accountName jobId : β → String}

theorem solo_fanOut (s : State) :
    (fanOutByAccount (byAccount accountName rows) fun _ rs ↦ jobStates (rs.map jobId)).solo
        (slurmAnswers py sessions rows accountName) 0 s =
      ⟨(byAccount accountName rows).map fun g ↦
        (g.1, g.2, ((sessions g.1).ask py (g.2.map jobId)).1),
        (byAccount accountName rows).length, s⟩ := by
  have hround (done rest : List (String × List β)) (outcomes) (n : ℕ)
      (hnames : done.map (·.1) ++ rest.map (·.1) = (rows.map accountName).dedup)
      (hn : n = done.length) :
      (Proc.fold rest outcomes fun outcomes item ↦ (do
          let outcome ← jobStates (item.2.map jobId)
          pure (outcomes ++ [(item.1, item.2, outcome)]) : Action _)).solo
        (slurmAnswers py sessions rows accountName) n s =
      ⟨outcomes ++ rest.map fun g ↦ (g.1, g.2, ((sessions g.1).ask py (g.2.map jobId)).1),
        n + rest.length, s⟩ := by
    induction rest generalizing done outcomes n with
    | nil => simp [Proc.fold]
    | cons g rest ih =>
        have hname : (rows.map accountName).dedup.getD n "" = g.1 := by
          rw [← hnames, hn, List.getD_eq_getElem?_getD, List.getElem?_append_right (by simp)]
          simp
        have hrest := ih (done ++ [g])
          (outcomes ++ [(g.1, g.2, ((sessions g.1).ask py (g.2.map jobId)).1)]) (n + 1)
          (by simpa using hnames) (by simp [hn])
        simp only [Proc.fold, solo_andThen, solo_bind, solo_query, solo_pure, slurmAnswers, hname]
        rw [hrest]
        simp [Nat.add_assoc, Nat.add_comm 1]
  have hall := hround [] (byAccount accountName rows) [] 0
    (by simp [byAccount, List.map_map, Function.comp_def]) rfl
  rw [List.nil_append, Nat.zero_add] at hall
  exact hall

def refreshRows (outcomes : List (String × List β × Except String (List (String × JobStateInfo))))
    (f : List (String × JobStateInfo) → β → Action Unit) : Action Unit :=
  forEach outcomes fun (_, rs, outcome) ↦
    match outcome with
    | .error _ => pure ()
    | .ok states => forEach rs (f states)

variable {f : List (String × JobStateInfo) → β → Action Unit} {o : Oracle Question Question.Answer}
  {I J : State → Prop} {n : ℕ} {s : State}

def outcomesOf (py : Python) (sessions : String → Session) (rows : List β)
    (accountName jobId : β → String) :
    List (String × List β × Except String (List (String × JobStateInfo))) :=
  (byAccount accountName rows).map fun g ↦
    (g.1, g.2, ((sessions g.1).ask py (g.2.map jobId)).1)

theorem mem_outcomesOf {g} : g ∈ outcomesOf py sessions rows accountName jobId ↔
    ∃ name ∈ rows.map accountName, g = (name, rows.filter (accountName · == name),
      ((sessions name).ask py (asked rows accountName jobId name)).1) := by
  unfold outcomesOf byAccount asked
  simp [List.mem_map, eq_comm]

theorem mem_jobIds_asked {b : β} (hb : b ∈ rows) (hid : (jobId b != "") = true) :
    jobId b ∈ jobIds (asked rows accountName jobId (accountName b)) ↔
      strip (jobId b) = jobId b := by
  unfold jobIds asked
  rw [List.mem_filter, List.mem_map]
  constructor
  · rintro ⟨⟨id, -, h⟩, -⟩
    rw [← h, strip_idem]
  · intro hstrip
    refine ⟨⟨jobId b, List.mem_map.mpr ⟨b, ?_, rfl⟩, hstrip⟩, hid⟩
    exact List.mem_filter.mpr ⟨hb, beq_self_eq_true (accountName b)⟩

theorem refreshRows_keeps
    (hI : ∀ c ∈ rows, ∀ states n s, I s → I ((f states c).solo o n s).state) (hs : I s) :
    I ((refreshRows (outcomesOf py sessions rows accountName jobId) f).solo o n s).state := by
  refine solo_forEach (fun g hg n s h ↦ ?_) hs
  obtain ⟨name, -, rfl⟩ := mem_outcomesOf.mp hg
  dsimp only
  cases ((sessions name).ask py (asked rows accountName jobId name)).1 with
  | error e => exact h
  | ok states =>
      exact solo_forEach (fun c hc n s h ↦ hI c (List.mem_of_mem_filter hc) states n s h) h

theorem refreshRows_row {b : β} (hb : b ∈ rows) (hnodup : rows.Nodup)
    (hI : ∀ c ∈ rows, c ≠ b → ∀ states n s, I s → I ((f states c).solo o n s).state)
    (hJ : ∀ c ∈ rows, c ≠ b → ∀ states n s, J s → J ((f states c).solo o n s).state)
    (hanswered : ∀ states, ((sessions (accountName b)).ask py
        (asked rows accountName jobId (accountName b))).1 = .ok states →
      ∀ n s, I s → J ((f states b).solo o n s).state)
    (hfailed : ∀ e, ((sessions (accountName b)).ask py
        (asked rows accountName jobId (accountName b))).1 = .error e → ∀ s, I s → J s)
    (hs : I s) :
    J ((refreshRows (outcomesOf py sessions rows accountName jobId) f).solo o n s).state := by
  have hother (name : String) (hname : name ≠ accountName b) {K : State → Prop}
      (hK : ∀ c ∈ rows, c ≠ b → ∀ states n s, K s → K ((f states c).solo o n s).state)
      (c) (hc : c ∈ rows.filter (accountName · == name)) (states n s) (h : K s) :
      K ((f states c).solo o n s).state := by
    obtain ⟨hmem, hkey⟩ := List.mem_filter.mp hc
    exact hK c hmem (fun hcb ↦ hname ((beq_iff_eq.mp hkey).symm.trans (congrArg _ hcb))) states n s h
  refine solo_forEach_once (b := (accountName b, rows.filter (accountName · == accountName b),
    ((sessions (accountName b)).ask py (asked rows accountName jobId (accountName b))).1))
    (mem_outcomesOf.mpr ⟨_, List.mem_map_of_mem hb, rfl⟩) ?_ ?_ ?_ ?_ hs
  · unfold outcomesOf byAccount
    rw [List.map_map]
    exact (List.nodup_dedup _).map fun name name' h ↦ congrArg Prod.fst h
  · intro n s h
    dsimp only
    cases hanswer : ((sessions (accountName b)).ask py
        (asked rows accountName jobId (accountName b))).1 with
    | error e => exact hfailed e hanswer s h
    | ok states =>
        have hmem : b ∈ rows.filter (accountName · == accountName b) :=
          List.mem_filter.mpr ⟨hb, beq_self_eq_true (accountName b)⟩
        refine solo_forEach_once hmem
          (hnodup.filter _) (hanswered states hanswer) ?_ ?_ h
        · exact fun c hc hne n s h ↦ hI c (List.mem_of_mem_filter hc) hne states n s h
        · exact fun c hc hne n s h ↦ hJ c (List.mem_of_mem_filter hc) hne states n s h
  all_goals
    intro g hg hne n s h
    obtain ⟨name, -, rfl⟩ := mem_outcomesOf.mp hg
    have hname : name ≠ accountName b := by
      rintro rfl
      exact hne rfl
    dsimp only
    cases ((sessions name).ask py (asked rows accountName jobId name)).1 with
    | error e => exact h
    | ok states =>
        refine solo_forEach (fun c hc n s h ↦ ?_) h
        first
        | exact hother name hname hI c hc states n s h
        | exact hother name hname hJ c hc states n s h

end Loop

section Allocations

variable {py} {site : Site} {sessions : String → Session} {o : Oracle Question Question.Answer}
  {n : ℕ} {s : State} {a c : Allocation} {states : List (String × JobStateInfo)}

def HasState (id : ℕ) (x : AllocationStatus) (s : State) : Prop :=
  ∃ a, s.allocation? id = some a ∧ a.state = x

/-- What `_apply_allocation_state` makes of the state of a row. -/
def follow : JobStatus → AllocationStatus → AllocationStatus
  | .running, .pending => .warm
  | .submitted, .closing => .closed
  | .completed, _ => .closed
  | .cancelled, _ => .closed
  | .failed, _ => .failed
  | _, state => state

def settled (info : Option JobStateInfo) (state : AllocationStatus) : AllocationStatus :=
  match info with
  | none => if state == .closing then .closed else state
  | some info => if info.missing then .closed else follow info.status state

theorem hasState_update {change : AllocationChange} {x y : AllocationStatus}
    (h : HasState a.id x s) (hx : ∀ now r, r.state = x → (change.apply now r).state = y) :
    HasState a.id y (Statement.apply (Write.updateAllocation a change) s) := by
  obtain ⟨r, hr, hstate⟩ := h
  exact ⟨_, allocation?_updateAllocation hr rfl, hx s.clock r hstate⟩

theorem hasState_update_of_ne {change : AllocationChange} {id : ℕ} {x : AllocationStatus}
    (hne : a.id ≠ id) (h : HasState id x s) :
    HasState id x (Statement.apply (Write.updateAllocation a change) s) := by
  obtain ⟨r, hr, hstate⟩ := h
  have hkey := (mem_of_allocation? hr).2
  refine ⟨r, (allocation?_onAllocations id).trans ?_, hstate⟩
  have hother : ¬ r.id = a.id := fun h ↦ hne (h.symm.trans hkey)
  simp [hr, hother]

theorem applyAllocationState_row (h : HasState a.id a.state s) (info : JobStateInfo) :
    HasState a.id (follow info.status a.state)
      ((applyAllocationState a info).solo o n s).state := by
  have hsame {x : AllocationStatus} (hx : HasState a.id x s) {c : Bool}
      {change : AllocationChange} (hc : ∀ now r, (change.apply now r).state = r.state) :
      HasState a.id x
        ((when c (write (Write.updateAllocation a change)) : Action Unit).solo o n s).state := by
    cases c with
    | false => exact hx
    | true => exact hasState_update hx fun now r hr ↦ (hc now r).trans hr
  unfold applyAllocationState
  dsimp only
  cases hstatus : info.status <;> cases hstate : a.state <;> rw [hstate] at h <;>
    first
    | exact h
    | exact hasState_update h fun _ _ _ ↦ rfl
    | exact hsame h fun _ _ ↦ rfl

theorem refreshAllocation_row (h : HasState a.id a.state s) :
    HasState a.id (settled (lookup a.slurmJobId states) a.state)
      ((refreshAllocation states a).solo o n s).state := by
  unfold refreshAllocation
  cases lookup a.slurmJobId states with
  | none =>
      unfold settled
      cases hclosing : a.state == .closing with
      | false => exact h
      | true => exact hasState_update h fun _ _ _ ↦ rfl
  | some info =>
      cases hmissing : info.missing with
      | true =>
          simp only [settled, hmissing, if_true]
          exact hasState_update h fun _ _ _ ↦ rfl
      | false =>
          simp only [settled, hmissing, Bool.false_eq_true, if_false]
          exact applyAllocationState_row h info

theorem refreshAllocation_of_ne {id : ℕ} {x : AllocationStatus} (hne : c.id ≠ id)
    (h : HasState id x s) : HasState id x ((refreshAllocation states c).solo o n s).state := by
  have hwhen {b : Bool} {change : AllocationChange} : HasState id x
      ((when b (write (Write.updateAllocation c change)) : Action Unit).solo o n s).state := by
    cases b with
    | false => exact h
    | true => exact hasState_update_of_ne hne h
  unfold refreshAllocation
  cases lookup c.slurmJobId states with
  | none => exact hwhen
  | some info =>
      dsimp only
      split
      · exact hasState_update_of_ne hne h
      · unfold applyAllocationState
        dsimp only
        split <;> first | exact hwhen | exact hasState_update_of_ne hne h | exact h

def Recounted (x y : AllocationStatus) : Prop :=
  if x.serving then y.serving = true else y = x

theorem recalculate_row {id : ℕ} {x : AllocationStatus} (h : HasState id x s) :
    ∃ y, Recounted x y ∧
      HasState id y ((recalculateAllocationCapacity none).solo o n s).state := by
  have hreplay (ws : List Write) (hws : ∀ w ∈ ws, ∃ b ∈ s.allocations, ∃ stats,
      servingStates.contains b.state = true ∧ w = .updateAllocationCapacity b stats) :
      ∀ s' y, Recounted x y → HasState id y s' → ∃ y, Recounted x y ∧
        HasState id y (replay ws s') := by
    induction ws with
    | nil => exact fun s' y hy hs' ↦ ⟨y, hy, hs'⟩
    | cons w ws ih =>
        intro s' y hy hs'
        obtain ⟨b, hb, stats, hserving, rfl⟩ := hws w List.mem_cons_self
        obtain ⟨r, hr, hstate⟩ := hs'
        have hkey := (mem_of_allocation? hr).2
        have hnext : ((Write.updateAllocationCapacity b stats).exec s').allocation? id =
            some (if r.id == b.id then (capacityRow b stats).stamp s'.clock r else r) :=
          (allocation?_onAllocations id).trans (by rw [hr, Option.map_some])
        have hrest := ih (fun w hw ↦ hws w (List.mem_cons_of_mem _ hw))
          ((Write.updateAllocationCapacity b stats).exec s')
        by_cases hid : r.id = b.id
        · rw [if_pos (beq_iff_eq.mpr hid)] at hnext
          refine hrest _ ?_ ⟨_, hnext, rfl⟩
          obtain ⟨a, ha, hax⟩ := h
          have hab : a = b := Table.eq_of_key_eq (mem_of_allocation? ha).1 hb
            ((mem_of_allocation? ha).2.trans (hkey.symm.trans hid))
          subst hab hax
          simp only [servingStates, List.contains_iff_mem, List.mem_cons, List.not_mem_nil,
            or_false] at hserving
          unfold Recounted CapacityRow.stamp capacityRow
          rcases hserving with hs | hs | hs <;> rw [hs]
          · by_cases hactive : stats.activeTasks = 0 <;> simp [hactive, AllocationStatus.serving]
          · by_cases hactive : stats.activeTasks = 0 <;> simp [hactive, AllocationStatus.serving]
          · simp [AllocationStatus.serving]
        · rw [if_neg (by simpa using hid)] at hnext
          exact hrest y hy ⟨r, hnext, hstate⟩
  unfold recalculateAllocationCapacity
  simp only [solo_bind, solo_read, solo_writeAll]
  refine hreplay _ (fun w hw ↦ ?_) s x ?_ h
  · unfold capacityWrites at hw
    obtain ⟨b, hb, rfl⟩ := List.mem_map.mp hw
    obtain ⟨hmem, hserving⟩ := List.mem_filter.mp hb
    exact ⟨b, mem_listAllocationsWithLive hmem, _, hserving, rfl⟩
  · unfold Recounted
    split <;> simp_all

theorem settled_none (x : AllocationStatus) : settled none x = follow .submitted x := by
  cases x <;> rfl

def reported (report : Option Report) (x : AllocationStatus) : AllocationStatus :=
  match report with
  | none => follow .submitted x
  | some r => if r == .denied then .closed else follow r.info.status x

theorem settled_lookup (ha : a ∈ s.refreshedRows site)
    (h : ((sessions a.accountName).ask py
      (asked (s.refreshedRows site) (·.accountName) (·.slurmJobId) a.accountName)).1 =
        .ok states) (x : AllocationStatus) :
    settled (lookup a.slurmJobId states) x = reported (s.reportOf py site sessions a) x := by
  rw [Slurm.lookup_ask h, State.reportOf]
  have hrefreshes := (List.mem_filter.mp ha).2
  simp only [Site.refreshesAllocation, Bool.and_eq_true] at hrefreshes
  have hid := @mem_jobIds_asked _ _ (·.accountName) (·.slurmJobId) a ha hrefreshes.1.2
  by_cases hstrip : strip a.slurmJobId = a.slurmJobId
  · rw [if_pos (hid.mpr hstrip), if_pos hstrip]
    change settled (some (((counted py (s.heardOf py site sessions a) a.slurmJobId).map
      Report.info).getD { status := .submitted })) x = _
    cases counted py (s.heardOf py site sessions a) a.slurmJobId with
    | none => rfl
    | some r => cases r <;> rfl
  · rw [if_neg (hid.not.mpr hstrip), if_neg hstrip, settled_none]
    rfl

theorem afterRefreshAllocations_row (ha : a ∈ s.allocations) : ∃ y,
    Recounted (if s.probed py site sessions a then
      reported (s.reportOf py site sessions a) a.state else a.state) y ∧
    HasState a.id y (s.afterRefreshAllocations py site sessions) := by
  have hrow : HasState a.id a.state s := ⟨a, allocation?_of_mem ha, rfl⟩
  have hrows : ∀ c ∈ s.refreshedRows site, c ∈ s.allocations := fun c hc ↦
    mem_listAllocationsWithLive (List.mem_of_mem_filter hc)
  have hother {c : Allocation} (hc : c ∈ s.refreshedRows site) (hne : c ≠ a) : c.id ≠ a.id :=
    fun h ↦ hne (Table.eq_of_key_eq (hrows c hc) ha h)
  obtain ⟨n, m, hafter⟩ : ∃ n m, s.afterRefreshAllocations py site sessions =
      ((recalculateAllocationCapacity none).solo
        (slurmAnswers py sessions (s.refreshedRows site) (·.accountName)) n
        ((refreshRows (outcomesOf py sessions (s.refreshedRows site) (·.accountName)
          (·.slurmJobId)) refreshAllocation).solo
          (slurmAnswers py sessions (s.refreshedRows site) (·.accountName)) m s).state).state := by
    have hfan := @solo_fanOut py _ sessions (s.refreshedRows site) (·.accountName)
      (·.slurmJobId) s
    unfold State.afterRefreshAllocations refreshAllocations
    simp only [solo_bind, solo_read]
    unfold State.refreshedRows Site.refreshesAllocation at hfan ⊢
    rw [hfan]
    exact ⟨_, _, rfl⟩
  rw [hafter]
  refine recalculate_row ?_
  by_cases hlisted : a ∈ s.refreshedRows site
  · have hany : (s.refreshedRows site).any (·.id == a.id) = true :=
      List.any_eq_true.mpr ⟨a, hlisted, beq_self_eq_true a.id⟩
    have hnodup : (s.refreshedRows site).Nodup := by
      unfold State.refreshedRows State.listAllocationsWithLive
      exact ((List.nodup_reverse.mpr s.allocations.nodup_rows).filter _).filter _
    refine refreshRows_row (I := HasState a.id a.state) hlisted hnodup
      (fun c hc hne states n s h ↦ refreshAllocation_of_ne (hother hc hne) h)
      (fun c hc hne states n s h ↦ refreshAllocation_of_ne (hother hc hne) h)
      (fun states hstates n s' h ↦ ?_) (fun e he s' h ↦ ?_) hrow
    · rw [State.probed, hany, hstates, ← settled_lookup hlisted hstates]
      exact refreshAllocation_row h
    · rw [State.probed, hany, he]
      exact h
  · have hany : (s.refreshedRows site).any (·.id == a.id) = false := by
      refine List.any_eq_false.mpr fun c hc h ↦ hlisted ?_
      exact Table.eq_of_key_eq (hrows c hc) ha (beq_iff_eq.mp h) ▸ hc
    rw [State.probed, hany, Bool.false_and, if_neg Bool.false_ne_true]
    exact refreshRows_keeps (fun c hc states n s h ↦
      refreshAllocation_of_ne (hother hc fun h ↦ hlisted (h ▸ hc)) h) hrow

end Allocations

section Jobs

variable {py} {site : Site} {sessions : String → Session} {o : Oracle Question Question.Answer}
  {n : ℕ} {s : State} {j c : Job} {states : List (String × JobStateInfo)}

def HasStatus (id : ℕ) (x : JobStatus) (s : State) : Prop :=
  ∃ j, s.job? id = some j ∧ j.status = x

def refreshJob (states : List (String × JobStateInfo)) (job : Job) : Action Unit :=
  match lookup job.slurmJobId states with
  | none => pure ()
  | some info => write (.updateJob job.id (.refreshed info.status))

theorem job?_updateJob (id : ℕ) (change : JobChange) (k : ℕ) :
    ((Write.updateJob id change).exec s).job? k =
      (s.job? k).map fun j ↦ if j.id == id then change.stamp s.clock j else j :=
  @Table.find?_update _ _ _ _ _ (change.id_stamp s.clock) k

theorem refreshJob_row {x : JobStatus} (h : HasStatus j.id x s) :
    HasStatus j.id (((lookup j.slurmJobId states).map (·.status)).getD x)
      ((refreshJob states j).solo o n s).state := by
  unfold refreshJob
  cases lookup j.slurmJobId states with
  | none => exact h
  | some info =>
      obtain ⟨r, hr, -⟩ := h
      have hkey : r.id = j.id := (Table.find?_eq_some.mp hr).2
      refine ⟨(JobChange.refreshed info.status).stamp s.clock r,
        (job?_updateJob j.id (.refreshed info.status) j.id).trans ?_, rfl⟩
      rw [hr, Option.map_some, if_pos (beq_iff_eq.mpr hkey)]

theorem refreshJob_of_ne {id : ℕ} {x : JobStatus} (hne : c.id ≠ id) (h : HasStatus id x s) :
    HasStatus id x ((refreshJob states c).solo o n s).state := by
  unfold refreshJob
  cases lookup c.slurmJobId states with
  | none => exact h
  | some info =>
      obtain ⟨r, hr, hstatus⟩ := h
      have hkey : r.id = id := (Table.find?_eq_some.mp hr).2
      refine ⟨r, (job?_updateJob c.id (.refreshed info.status) id).trans ?_, hstatus⟩
      rw [hr, Option.map_some, if_neg (by simpa [hkey] using Ne.symm hne)]

def reportedStatus (job : Job) (report : Option Report) : JobStatus :=
  if strip job.slurmJobId = job.slurmJobId then
    ((report.map Report.info).map (·.status)).getD .submitted
  else job.status

theorem status_lookup (hj : j ∈ s.refreshedJobs site)
    (h : ((sessions j.accountName).ask py
      (asked (s.refreshedJobs site) (·.accountName) (·.slurmJobId) j.accountName)).1 =
        .ok states) :
    ((lookup j.slurmJobId states).map (·.status)).getD j.status =
      reportedStatus j (s.reportOfJob py site sessions j) := by
  rw [Slurm.lookup_ask h, reportedStatus, State.reportOfJob]
  have hrefreshes := (List.mem_filter.mp hj).2
  simp only [Site.refreshesJob, Bool.and_eq_true] at hrefreshes
  have hid := @mem_jobIds_asked _ _ (·.accountName) (·.slurmJobId) j hj hrefreshes.2
  by_cases hstrip : strip j.slurmJobId = j.slurmJobId
  · rw [if_pos (hid.mpr hstrip), if_pos hstrip, if_pos hstrip]
    change (some (((counted py (s.heardOfJob py site sessions j) j.slurmJobId).map
      Report.info).getD { status := .submitted }).status).getD j.status = _
    cases counted py (s.heardOfJob py site sessions j) j.slurmJobId <;> rfl
  · rw [if_neg (hid.not.mpr hstrip), if_neg hstrip]
    rfl

theorem afterRefreshSubmittedJobs_row (hj : j ∈ s.jobs) :
    HasStatus j.id (if s.probedJob py site sessions j then
      reportedStatus j (s.reportOfJob py site sessions j) else j.status)
      (s.afterRefreshSubmittedJobs py site sessions) := by
  have hrow : HasStatus j.id j.status s := ⟨j, Table.find?_eq_some.mpr ⟨hj, rfl⟩, rfl⟩
  have hrows : ∀ c ∈ s.refreshedJobs site, c ∈ s.jobs := fun c hc ↦
    List.mem_reverse.mp (List.mem_of_mem_take (List.mem_of_mem_filter hc))
  have hother {c : Job} (hc : c ∈ s.refreshedJobs site) (hne : c ≠ j) : c.id ≠ j.id :=
    fun h ↦ hne (Table.eq_of_key_eq (hrows c hc) hj h)
  obtain ⟨m, hafter⟩ : ∃ m, s.afterRefreshSubmittedJobs py site sessions =
      ((refreshRows (outcomesOf py sessions (s.refreshedJobs site) (·.accountName)
        (·.slurmJobId)) refreshJob).solo
        (slurmAnswers py sessions (s.refreshedJobs site) (·.accountName)) m s).state := by
    have hfan := @solo_fanOut py _ sessions (s.refreshedJobs site) (·.accountName)
      (·.slurmJobId) s
    unfold State.afterRefreshSubmittedJobs refreshSubmittedJobs
    simp only [solo_bind, solo_read]
    unfold State.refreshedJobs Site.refreshesJob at hfan ⊢
    rw [hfan]
    exact ⟨_, rfl⟩
  rw [hafter]
  by_cases hlisted : j ∈ s.refreshedJobs site
  · have hany : (s.refreshedJobs site).any (·.id == j.id) = true :=
      List.any_eq_true.mpr ⟨j, hlisted, beq_self_eq_true j.id⟩
    have hnodup : (s.refreshedJobs site).Nodup :=
      ((List.nodup_reverse.mpr s.jobs.nodup_rows).sublist (List.take_sublist _ _)).filter _
    refine refreshRows_row (I := HasStatus j.id j.status) hlisted hnodup
      (fun c hc hne states n s h ↦ refreshJob_of_ne (hother hc hne) h)
      (fun c hc hne states n s h ↦ refreshJob_of_ne (hother hc hne) h)
      (fun states hstates n s' h ↦ ?_) (fun e he s' h ↦ ?_) hrow
    · rw [State.probedJob, hany, hstates, ← status_lookup hlisted hstates]
      exact refreshJob_row h
    · rw [State.probedJob, hany, he]
      exact h
  · have hany : (s.refreshedJobs site).any (·.id == j.id) = false := by
      refine List.any_eq_false.mpr fun c hc h ↦ hlisted ?_
      exact Table.eq_of_key_eq (hrows c hc) hj (beq_iff_eq.mp h) ▸ hc
    rw [State.probedJob, hany, Bool.false_and, if_neg Bool.false_ne_true]
    exact refreshRows_keeps (fun c hc states n s h ↦
      refreshJob_of_ne (hother hc fun h ↦ hlisted (h ▸ hc)) h) hrow

end Jobs

section Accounts

variable {py} {site : Site} {sessions : String → Session} {s : State}

theorem mapSlurmState_cases (state : String) : mapSlurmState state = .running ∨
    mapSlurmState state = .submitted ∨ (mapSlurmState state).terminal = true := by
  unfold mapSlurmState
  repeat' split
  all_goals simp [JobStatus.terminal]

theorem endedState_of_mapped {state : String} (h : (mapSlurmState state).terminal = true) :
    endedState state = true := by
  have hends : ∀ names : List String, (∀ n ∈ names, endedState n = true) →
      names.contains state = true → endedState state = true :=
    fun names hnames hmem ↦ hnames state (List.contains_iff_mem.mp hmem)
  unfold mapSlurmState at h
  split at h
  · cases h
  · split at h
    · cases h
    · split at h
      · exact hends ["CD", "COMPLETED"] (by decide) ‹_›
      · split at h
        · exact hends ["CA", "CANCELLED"] (by decide) ‹_›
        · split at h
          · exact hends ["F", "FAILED", "TO", "TIMEOUT", "NF", "NODE_FAIL", "OOM",
              "OUT_OF_MEMORY"] (by decide) ‹_›
          · cases h

theorem info_status (r : Report) :
    r.info.status = (r.state?.map mapSlurmState).getD .submitted := by
  cases r <;> rfl

theorem info_status_cases (r : Report) : r.info.status = .running ∨
    r.info.status = .submitted ∨ r.info.status.terminal = true := by
  rw [info_status]
  cases r.state? with
  | none => exact Or.inr (Or.inl rfl)
  | some state => exact mapSlurmState_cases state

theorem reportsEnded_of_counted {log : List Reply} {jobId : String} {r : Report}
    (h : counted py log jobId = some r) (hends : r.info.status.terminal = true) :
    reportsEnded py log jobId = true := by
  have hheard := Slurm.heard_of_counted h
  rw [info_status] at hends
  unfold Slurm.Heard at hheard
  cases hstate : r.state? with
  | none =>
      rw [hstate] at hends
      cases hends
  | some state =>
      rw [hstate] at hheard hends
      obtain ⟨q, hq, hstates⟩ := hheard
      exact List.any_eq_true.mpr ⟨q, hq, List.any_eq_true.mpr
        ⟨state, hstates, endedState_of_mapped hends⟩⟩

theorem accounted_of_closesRow {log : List Reply} {jobId : String}
    (h : closesRow (counted py log jobId) = true) (closing : Bool) :
    accounted py log jobId closing = true := by
  unfold accounted
  obtain ⟨r, hr, hcloses⟩ := (Option.any_eq_true _ _).mp h
  rcases Bool.or_eq_true_iff.mp hcloses with hdenied | hends
  · have hheard := Slurm.heard_of_counted hr
    rw [beq_iff_eq.mp hdenied] at hheard
    have hany : log.any (·.denies py jobId) = true := List.any_eq_true.mpr hheard
    simp [hany]
  · simp [reportsEnded_of_counted hr hends]

variable {x : AllocationStatus} {report : Option Report}

theorem follow_of_terminal {status : JobStatus} (h : status.terminal = true) :
    follow status x = .closed ∨ follow status x = .failed := by
  cases status with
  | completed => exact Or.inl rfl
  | cancelled => exact Or.inl rfl
  | failed => exact Or.inr rfl
  | _ => cases h

theorem reported_closing (h : showsRunning report = false) :
    reported report .closing = .closed ∨ reported report .closing = .failed := by
  cases report with
  | none => exact Or.inl rfl
  | some r =>
      unfold reported
      dsimp only
      split
      · exact Or.inl rfl
      · have hrunning : r.info.status ≠ .running := by simpa [showsRunning] using h
        rcases info_status_cases r with hstatus | hstatus | hends
        · exact absurd hstatus hrunning
        · rw [hstatus]
          exact Or.inl rfl
        · exact follow_of_terminal hends

theorem reported_of_closesRow (h : closesRow report = true) :
    reported report x = .closed ∨ reported report x = .failed := by
  obtain ⟨r, rfl, hcloses⟩ := (Option.any_eq_true _ _).mp h
  unfold reported
  dsimp only
  split
  · exact Or.inl rfl
  · rename_i hdenied
    exact follow_of_terminal ((Bool.or_eq_true_iff.mp hcloses).resolve_left hdenied)

/-- A report that does not close the row leaves it, unless it is closing. -/
theorem reported_of_not_closesRow (h : closesRow report = false) (hx : x ≠ .closing) :
    reported report x = x ∨ x = .pending ∧ reported report x = .warm := by
  have hsubmitted : follow .submitted x = x := by cases x <;> first | rfl | exact absurd rfl hx
  cases report with
  | none => exact Or.inl hsubmitted
  | some r =>
      obtain ⟨hdenied, hends⟩ : (r == .denied) = false ∧ r.info.status.terminal = false := by
        simpa [closesRow] using h
      unfold reported
      dsimp only
      rw [hdenied, if_neg Bool.false_ne_true]
      rcases info_status_cases r with hstatus | hstatus | hterminal
      · rw [hstatus]
        cases x <;> first | exact Or.inl rfl | exact Or.inr ⟨rfl, rfl⟩
      · rw [hstatus]
        exact Or.inl hsubmitted
      · rw [hends] at hterminal
        cases hterminal

theorem reported_of_showsRunning (h : showsRunning report = true)
    (hcloses : closesRow report = false) : reported report .closing = .closing := by
  obtain ⟨r, rfl, hstatus⟩ := (Option.any_eq_true _ _).mp h
  obtain ⟨hdenied, -⟩ : (r == .denied) = false ∧ r.info.status.terminal = false := by
    simpa [closesRow] using hcloses
  unfold reported
  dsimp only
  rw [hdenied, if_neg Bool.false_ne_true, beq_iff_eq.mp hstatus]
  rfl

theorem Recounted.ended_iff {y : AllocationStatus} (h : Recounted x y) :
    (y = .closed ∨ y = .failed) ↔ (x = .closed ∨ x = .failed) := by
  unfold Recounted at h
  split at h
  · cases x <;> cases y <;> simp_all [AllocationStatus.serving]
  · rw [h]

theorem Recounted.serving_eq {y : AllocationStatus} (h : Recounted x y) :
    y.serving = x.serving := by
  unfold Recounted at h
  split at h
  · simp_all
  · rw [h]

theorem not_serving_of_ended (h : x = .closed ∨ x = .failed) : x.serving = false := by
  rcases h with rfl | rfl <;> rfl

theorem live_ne_ended (h : liveStates.contains x = true) : ¬ (x = .closed ∨ x = .failed) := by
  rintro (rfl | rfl) <;> simp [liveStates] at h

end Accounts

section Follows

variable {py} {site : Site} {sessions : String → Session} {s : State}

theorem closesRow_reportOf {a : Allocation}
    (h : closesRow (s.reportOf py site sessions a) = true) (closing : Bool) :
    accounted py (s.heardOf py site sessions a) (strip a.slurmJobId) closing = true := by
  unfold State.reportOf at h
  split at h
  · rename_i hstrip
    rw [hstrip]
    exact accounted_of_closesRow h closing
  · cases h

theorem accounted_reportOfJob {j : Job}
    (h : endsJob (s.reportOfJob py site sessions j) = true) :
    accounted py (s.heardOfJob py site sessions j) (strip j.slurmJobId) false = true := by
  obtain ⟨r, hr, hends⟩ := (Option.any_eq_true _ _).mp h
  unfold State.reportOfJob at hr
  split at hr
  · rename_i hstrip
    rw [hstrip]
    simp [accounted, reportsEnded_of_counted hr hends]
  · cases hr

theorem reportedStatus_cases {j : Job} {report : Option Report}
    (hreport : strip j.slurmJobId ≠ j.slurmJobId → report = none) :
    reportedStatus j report = j.status ∨ reportedStatus j report = .submitted ∨
      reportedStatus j report = .running ∨
      endsJob report = true ∧ (reportedStatus j report).terminal = true := by
  unfold reportedStatus
  split
  · cases report with
    | none => exact Or.inr (Or.inl rfl)
    | some r =>
        change r.info.status = _ ∨ r.info.status = _ ∨ r.info.status = _ ∨
          endsJob (some r) = true ∧ r.info.status.terminal = true
        rcases info_status_cases r with hstatus | hstatus | hends
        · exact Or.inr (Or.inr (Or.inl hstatus))
        · exact Or.inr (Or.inl hstatus)
        · exact Or.inr (Or.inr (Or.inr ⟨hends, hends⟩))
  · exact Or.inl rfl

theorem HasState.eq {id : ℕ} {x : AllocationStatus} (h : HasState id x s) {a : Allocation}
    (ha : s.allocation? id = some a) : a.state = x := by
  obtain ⟨b, hb, hx⟩ := h
  rw [ha] at hb
  cases hb
  exact hx

theorem HasStatus.eq {id : ℕ} {x : JobStatus} (h : HasStatus id x s) {j : Job}
    (hj : s.job? id = some j) : j.status = x := by
  obtain ⟨k, hk, hx⟩ := h
  rw [hj] at hk
  cases hk
  exact hx

theorem Heeds.closed (h : Heeds py site sessions s) {a a' : Allocation} (ha : a ∈ s.allocations)
    (hlive : liveStates.contains a.state = true)
    (ha' : (s.afterRefreshAllocations py site sessions).allocation? a.id = some a')
    (hends : a'.state = .closed ∨ a'.state = .failed) :
    accounted py (s.heardOf py site sessions a) (strip a.slurmJobId) (a.state == .closing) =
      true := by
  obtain ⟨y, hy, hrow⟩ := @afterRefreshAllocations_row py site sessions s a ha
  have hsettled := hy.ended_iff.mp (hrow.eq ha' ▸ hends)
  by_cases hprobed : s.probed py site sessions a = true
  · rw [if_pos hprobed] at hsettled
    by_cases hcloses : closesRow (s.reportOf py site sessions a) = true
    · exact closesRow_reportOf hcloses _
    · by_cases hclosing : a.state = .closing
      · rcases h.closing a ha hclosing hprobed with hrunning | haccounted
        · rw [hclosing, reported_of_showsRunning hrunning (Bool.eq_false_iff.mpr hcloses)]
            at hsettled
          rcases hsettled with hsettled | hsettled <;> cases hsettled
        · rwa [hclosing]
      · rcases reported_of_not_closesRow (Bool.eq_false_iff.mpr hcloses) hclosing with hsame | hwarm
        · exact absurd (hsame ▸ hsettled) (live_ne_ended hlive)
        · rw [hwarm.2] at hsettled
          rcases hsettled with hsettled | hsettled <;> cases hsettled
  · rw [if_neg hprobed] at hsettled
    exact absurd hsettled (live_ne_ended hlive)

theorem Heeds.finished {j j' : Job} (hj : j ∈ s.jobs) (hlive : j.status.terminal = false)
    (hj' : (s.afterRefreshSubmittedJobs py site sessions).job? j.id = some j')
    (hends : j'.status.terminal = true) :
    accounted py (s.heardOfJob py site sessions j) (strip j.slurmJobId) false = true := by
  have hstatus := (@afterRefreshSubmittedJobs_row py site sessions s j hj).eq hj'
  rw [hstatus] at hends
  split at hends
  · have hreport : strip j.slurmJobId ≠ j.slurmJobId → s.reportOfJob py site sessions j = none :=
      fun hstrip ↦ if_neg hstrip
    rcases reportedStatus_cases hreport with hsame | hsame | hsame | ⟨hreports, -⟩
    · rw [hsame, hlive] at hends
      cases hends
    · rw [hsame] at hends
      cases hends
    · rw [hsame] at hends
      cases hends
    · exact accounted_reportOfJob hreports
  · rw [hlive] at hends
    cases hends

/-- Rows follow Slurm exactly when every closing row is closed with a reason, and of the reports
of a job that has ended, one that counts and is understood says so. -/
theorem rows_follow_slurm_iff (py : Python) (site : Site) (sessions : String → Session)
    (s : State) : FollowsSlurm py site sessions s ↔ Heeds py site sessions s := by
  constructor
  · intro h
    refine ⟨fun a ha hclosing hprobed ↦ ?_, fun a ha hserving hreports ↦ ?_,
      fun j hj hlive hreports ↦ ?_⟩
    · cases hrunning : showsRunning (s.reportOf py site sessions a) with
      | true => exact Or.inl rfl
      | false =>
          obtain ⟨y, hy, a', ha', hstate⟩ := @afterRefreshAllocations_row py site sessions s a ha
          rw [if_pos hprobed, hclosing] at hy
          have hends := hy.ended_iff.mpr (reported_closing hrunning)
          have haccounted := h.closed a ha (by rw [hclosing]; rfl) a' ha' (hstate ▸ hends)
          rw [hclosing] at haccounted
          exact Or.inr haccounted
    · obtain ⟨y, hy, a', ha', hstate⟩ := @afterRefreshAllocations_row py site sessions s a ha
      have hleft := h.left a ha hserving hreports a' ha'
      rw [hstate, hy.serving_eq] at hleft
      by_cases hprobed : s.probed py site sessions a = true
      · rw [if_pos hprobed] at hleft
        refine ⟨hprobed, ?_⟩
        cases hcloses : closesRow (s.reportOf py site sessions a) with
        | true => rfl
        | false =>
            have hclosing : a.state ≠ .closing := fun h ↦ by rw [h] at hserving; cases hserving
            rcases reported_of_not_closesRow hcloses hclosing with hsame | hwarm
            · rw [hsame, hserving] at hleft
              cases hleft
            · rw [hwarm.1] at hserving
              cases hserving
      · rw [if_neg hprobed, hserving] at hleft
        cases hleft
    · have hrow := @afterRefreshSubmittedJobs_row py site sessions s j hj
      obtain ⟨j', hj', hstatus⟩ := hrow
      obtain ⟨hsubmitted, hrunning⟩ := h.ended j hj hlive hreports j' hj'
      rw [hstatus] at hsubmitted hrunning
      have hstay : ¬ (j.status ≠ .submitted ∧ j.status ≠ .running) := fun h ↦
        hlive.elim h.1 h.2
      by_cases hprobed : s.probedJob py site sessions j = true
      · rw [if_pos hprobed] at hsubmitted hrunning
        have hreport : strip j.slurmJobId ≠ j.slurmJobId →
            s.reportOfJob py site sessions j = none := fun hstrip ↦ if_neg hstrip
        rcases reportedStatus_cases hreport with hsame | hsame | hsame | ⟨hends, -⟩
        · rw [hsame] at hsubmitted hrunning
          exact absurd ⟨hsubmitted, hrunning⟩ hstay
        · exact absurd hsame hsubmitted
        · exact absurd hsame hrunning
        · exact ⟨hprobed, hends⟩
      · rw [if_neg hprobed] at hsubmitted hrunning
        exact absurd ⟨hsubmitted, hrunning⟩ hstay
  · intro h
    refine ⟨fun a ha hlive a' ha' ↦ h.closed ha hlive ha', fun a ha hserving hreports a' ha' ↦ ?_,
      fun j hj hlive j' hj' ↦ Heeds.finished hj hlive hj', fun j hj hlive hreports j' hj' ↦ ?_⟩
    · obtain ⟨hprobed, hcloses⟩ := h.left a ha hserving hreports
      obtain ⟨y, hy, hrow⟩ := @afterRefreshAllocations_row py site sessions s a ha
      rw [if_pos hprobed] at hy
      rw [hrow.eq ha']
      exact not_serving_of_ended (hy.ended_iff.mpr (reported_of_closesRow hcloses))
    · obtain ⟨hprobed, hends⟩ := h.ended j hj hlive hreports
      have hstatus := (@afterRefreshSubmittedJobs_row py site sessions s j hj).eq hj'
      rw [if_pos hprobed] at hstatus
      have hstrip : strip j.slurmJobId = j.slurmJobId := by
        by_contra hstrip
        rw [State.reportOfJob, if_neg hstrip] at hends
        cases hends
      obtain ⟨r, hr, hterminal⟩ := (Option.any_eq_true _ _).mp hends
      rw [reportedStatus, if_pos hstrip, hr] at hstatus
      change j'.status = r.info.status at hstatus
      rw [hstatus]
      constructor <;> intro hlive <;> rw [hlive] at hterminal <;> cases hterminal

def deafSession : Session where
  answer _ _ := .ok { exitCode := 1, stderr := "Unable to contact slurm controller" }

/-- A session in which `sacct` prints a narrow column. -/
def narrowSession : Session where
  answer _ command :=
    match command with
    | .sacct _ => .ok { stdout := "77 CANCELLED+\n" }
    | _ => .ok {}

def asciiPython : Python where
  isWord c := c.isAlphanum || c == '_'
  lower s := String.ofList (s.toList.map Char.toLower)

def nodeIn (x : AllocationStatus) : State where
  allocations := Table.empty.insert fun id ↦
    { id, accountName := "alpha", slurmJobId := "77", state := x }

/-- A closing row is closed although nothing has been heard of its job, and an active one stays
although its job has been cancelled. -/
theorem rows_miss_slurm :
    ¬ FollowsSlurm asciiPython sampleSite (fun _ ↦ deafSession) (nodeIn .closing) ∧
    ¬ FollowsSlurm asciiPython sampleSite (fun _ ↦ narrowSession) (nodeIn .active) := by
  constructor
  · intro h
    have hafter : (((nodeIn .closing).afterRefreshAllocations asciiPython sampleSite fun _ ↦
        deafSession).allocation? 1).map (·.state) = some .closed := by decide
    obtain ⟨a', ha', hclosed⟩ := Option.map_eq_some_iff.mp hafter
    have haccounted := h.closed
      { id := 1, accountName := "alpha", slurmJobId := "77", state := .closing }
      List.mem_cons_self rfl a' ha' (Or.inl hclosed)
    exact absurd haccounted (by decide)
  · intro h
    have hafter : (((nodeIn .active).afterRefreshAllocations asciiPython sampleSite fun _ ↦
        narrowSession).allocation? 1).map (·.state.serving) = some true := by decide
    obtain ⟨a', ha', hserving⟩ := Option.map_eq_some_iff.mp hafter
    have hleft := h.left
      { id := 1, accountName := "alpha", slurmJobId := "77", state := .active }
      List.mem_cons_self rfl (by decide) a' ha'
    rw [hserving] at hleft
    cases hleft

end Follows

end SlurmScheduler.Dispatch
