import SlurmScheduler.Pool.Plan
import SlurmScheduler.Pool.Hosts

namespace SlurmScheduler.Pool

open Relational PoolTx

theorem grant_total {κ : Type} (budget : ℕ) (es : List (κ × ℕ)) :
    ((grant budget es).1.map (·.2)).sum + (grant budget es).2 = budget := by
  induction es generalizing budget with
  | nil => exact Nat.zero_add budget
  | cons e es ih =>
      have hlater := ih (budget - min e.2 budget)
      have hmin : min e.2 budget ≤ budget := min_le_right _ _
      rw [grant]
      dsimp only
      split
      · omega
      · rw [List.map_cons, List.sum_cons]
        dsimp only
        omega

namespace Turns

/-- Every turn moves one unit from the budget to an account. -/
theorem pass_total (order : List String) (t : Turns) (h : 0 < t.budget) :
    (t.pass order).limited.total + (t.pass order).budget = t.limited.total + t.budget := by
  induction order generalizing t with
  | nil => rfl
  | cons account rest ih =>
      rw [pass]
      split
      · exact ih t h
      · dsimp only
        split
        · rename_i hspent
          dsimp only at hspent ⊢
          rw [Counter.total_add]
          omega
        · rename_i hleft
          rw [ih _ (Nat.pos_of_ne_zero hleft), Counter.total_add]
          dsimp only at hleft ⊢
          omega

theorem rounds_total (order : List String) (fuel : ℕ) (t : Turns) :
    (Turns.rounds order fuel t).limited.total + (Turns.rounds order fuel t).budget =
      t.limited.total + t.budget := by
  induction fuel generalizing t with
  | zero => rfl
  | succ fuel ih =>
      rw [rounds]
      split
      · rename_i hopen
        rw [ih, pass_total order t (of_decide_eq_true (Bool.and_eq_true _ _ ▸ hopen).1)]
      · rfl

end Turns

def placedFor (account : String) (ps : List Placement) : ℕ := ps.countP (·.accountName == account)

theorem placedFor_append (account : String) (ps qs : List Placement) :
    placedFor account (ps ++ qs) = placedFor account ps + placedFor account qs :=
  List.countP_append

theorem placedFor_replicate (account : String) (n : ℕ) (p : Placement) :
    placedFor account (List.replicate n p) = if p.accountName = account then n else 0 := by
  simp [placedFor, List.countP_replicate]

variable {free : Counter ℕ → Allocation → ℕ} {fits : Allocation → Bool}

theorem Placing.put_placements (st : Placing) (a : Allocation) (account nodeName : String)
    (granted : ℕ) : (st.put a account nodeName granted).placements =
      st.placements ++ List.replicate granted ⟨a.id, account, nodeName⟩ := by
  unfold Placing.put
  split
  · rename_i hnone
    rw [hnone, List.replicate_zero, List.append_nil]
  · rfl

/-- A strict route places what it needs at most, for its account and on allocations that fit. -/
theorem placeRoute_placements (route : Route) (allocations : List Allocation) (need : ℕ)
    (st : Placing) : ∃ new, (placeRoute free fits route allocations need st).2.placements =
      st.placements ++ new ∧ new.length ≤ need ∧ ∀ p ∈ new, p.accountName = route.account ∧
        ∃ a ∈ allocations, fits a = true ∧ p.allocationId = a.id := by
  induction allocations generalizing need st with
  | nil => exact ⟨[], (List.append_nil _).symm, Nat.zero_le _, List.forall_mem_nil _⟩
  | cons a rest ih =>
      have hlater {P : Allocation → Prop} (h : ∃ a ∈ rest, P a) : ∃ b ∈ a :: rest, P b :=
        h.imp fun _ h ↦ ⟨List.mem_cons_of_mem _ h.1, h.2⟩
      rw [placeRoute]
      split
      · exact ⟨[], (List.append_nil _).symm, Nat.zero_le _, List.forall_mem_nil _⟩
      split
      · obtain ⟨new, hnew, hlength, hfor⟩ := ih need st
        exact ⟨new, hnew, hlength, fun p hp ↦ ⟨(hfor p hp).1, hlater (hfor p hp).2⟩⟩
      · rename_i hfits
        have hhere : fits a = true := by simpa using hfits
        obtain ⟨new, hnew, hlength, hfor⟩ := ih (need - min (free st.planned a) need)
          (st.put a route.account route.nodeName (min (free st.planned a) need))
        rw [Placing.put_placements, List.append_assoc] at hnew
        refine ⟨_, hnew, ?_, fun p hp ↦ ?_⟩
        · rw [List.length_append, List.length_replicate]
          have hmin : min (free st.planned a) need ≤ need := min_le_right _ _
          omega
        · rcases List.mem_append.mp hp with hp | hp
          · rw [List.eq_of_mem_replicate hp]
            exact ⟨rfl, a, List.mem_cons_self, hhere, rfl⟩
          · exact ⟨(hfor p hp).1, hlater (hfor p hp).2⟩

theorem placedFor_le_length (account : String) (ps : List Placement) :
    placedFor account ps ≤ ps.length := List.countP_le_length

theorem placeRoutes_placements (fits : Route → Allocation → Bool) (allocations : List Allocation)
    (routes : List (Route × ℕ)) (st : Placing) :
    ∃ new, (placeRoutes free fits allocations routes st).placements = st.placements ++ new ∧
      new.length ≤ (routes.map (·.2)).sum ∧
      (∀ account, placedFor account new ≤ Counter.sumWhere (·.account = account) routes) ∧
      ∀ p ∈ new, ∃ route : Route, p.accountName = route.account ∧
        ∃ a ∈ allocations, fits route a = true ∧ p.allocationId = a.id := by
  unfold placeRoutes
  induction routes generalizing st with
  | nil =>
      exact ⟨[], (List.append_nil _).symm, le_rfl, fun _ ↦ le_rfl, List.forall_mem_nil _⟩
  | cons e routes ih =>
      obtain ⟨first, hfirst, hlength, hfor⟩ := @placeRoute_placements free (fits e.1) e.1
        allocations e.2 st
      obtain ⟨rest, hrest, hlengths, haccounts, hall⟩ :=
        ih (placeRoute free (fits e.1) e.1 allocations e.2 st).2
      rw [hfirst, List.append_assoc] at hrest
      refine ⟨first ++ rest, hrest, ?_, fun account ↦ ?_, fun p hp ↦ ?_⟩
      · rw [List.length_append, List.map_cons, List.sum_cons]
        exact Nat.add_le_add hlength hlengths
      · rw [placedFor_append, Counter.sumWhere_cons]
        refine Nat.add_le_add ?_ (haccounts account)
        split
        · exact (placedFor_le_length account first).trans hlength
        · rename_i hother
          refine le_of_eq (List.countP_eq_zero.mpr fun p hp ↦ ?_)
          rw [(hfor p hp).1]
          simpa using hother
      · rcases List.mem_append.mp hp with hp | hp
        · exact ⟨e.1, hfor p hp⟩
        · exact hall p hp

theorem placeGeneric_placements (allocations : List Allocation) (remaining : Counter String)
    (st : Placing) : ∃ new, (placeGeneric free allocations remaining st).placements =
      st.placements ++ new ∧ new.length ≤ remaining.total ∧
      (∀ account, placedFor account new ≤ remaining.get account) ∧
      ∀ p ∈ new, ∃ a ∈ allocations, p.allocationId = a.id ∧ p.accountName = a.accountName := by
  induction allocations generalizing remaining st with
  | nil =>
      exact ⟨[], (List.append_nil _).symm, Nat.zero_le _, fun _ ↦ Nat.zero_le _,
        List.forall_mem_nil _⟩
  | cons a rest ih =>
      have hlater {P : Allocation → Prop} (h : ∃ a ∈ rest, P a) : ∃ b ∈ a :: rest, P b :=
        h.imp fun _ h ↦ ⟨List.mem_cons_of_mem _ h.1, h.2⟩
      rw [placeGeneric]
      dsimp only
      split
      · obtain ⟨new, hnew, hlength, haccounts, hall⟩ := ih remaining st
        exact ⟨new, hnew, hlength, haccounts, fun p hp ↦ hlater (hall p hp)⟩
      · rename_i hneed
        have hmin : min (free st.planned a) (remaining.get a.accountName) ≤
            remaining.get a.accountName := min_le_right _ _
        have htotal := Counter.total_put (n := remaining.get a.accountName -
          min (free st.planned a) (remaining.get a.accountName)) (Nat.pos_of_ne_zero hneed)
        obtain ⟨new, hnew, hlength, haccounts, hall⟩ := ih
          (remaining.put a.accountName (remaining.get a.accountName -
            min (free st.planned a) (remaining.get a.accountName)))
          (st.put a a.accountName a.nodeName
            (min (free st.planned a) (remaining.get a.accountName)))
        rw [Placing.put_placements, List.append_assoc] at hnew
        refine ⟨_, hnew, ?_, fun account ↦ ?_, fun p hp ↦ ?_⟩
        · rw [List.length_append, List.length_replicate]
          omega
        · have hcount := haccounts account
          rw [Counter.get_put] at hcount
          rw [placedFor_append, placedFor_replicate]
          dsimp only
          split at hcount
          · rename_i hsame
            rw [if_pos hsame, ← hsame]
            rw [← hsame] at hcount
            omega
          · rename_i hother
            rw [if_neg hother]
            omega
        · rcases List.mem_append.mp hp with hp | hp
          · rw [List.eq_of_mem_replicate hp]
            exact ⟨a, List.mem_cons_self, rfl, rfl⟩
          · exact hlater (hall p hp)

section Plan

variable {svc : Service} {cfg : AedtPoolConfig} {settings : ScaleSettings} {now : Time}
  {inputs : PlanInputs} {excluded : List String} {db : Db}

theorem mem_sortBy {α κ : Type} [LinearOrder κ] {key : α → κ} {l : List α} {a : α} :
    a ∈ sortBy key l ↔ a ∈ l := List.mem_insertionSort _

theorem sortBy_perm {α κ : Type} [LinearOrder κ] (key : α → κ) (l : List α) :
    (sortBy key l).Perm l := List.perm_insertionSort _ l

theorem limitStarts_total (excluded : List String) (budget : ℕ) (demand : StartDemand) :
    ((limitStarts excluded budget demand).limitedStrict.map (·.2)).sum +
      (limitStarts excluded budget demand).limitedGeneric.total ≤ budget := by
  unfold limitStarts
  dsimp only
  set routes := sortBy (fun e : Route × ℕ ↦ e.1.order)
    (demand.strictStartNeededByRoute.select (!excluded.contains ·.account)).entries with hroutes
  refine le_of_le_of_eq (Nat.add_le_add_left ?_ _) (grant_total budget routes)
  refine le_trans (Nat.le_add_right _ _) (le_of_eq_of_le (Turns.rounds_total _ _ _) ?_)
  exact le_of_eq (Nat.zero_add _)

theorem startNeededByAccount_get (b : StartBudget) (account : String) :
    b.startNeededByAccount.get account =
      Counter.sumWhere (·.account = account) b.limitedStrict +
        Counter.sumWhere (· = account) b.limitedGeneric.entries := by
  unfold StartBudget.startNeededByAccount
  rw [Counter.get_sumBy, Counter.get_sumBy]
  exact congrArg (· + _) (Nat.zero_add _)

theorem orderedAllocations_eligible {a : Allocation}
    (h : a ∈ db.orderedAllocations svc excluded) : a.accountName ∉ excluded := by
  rw [Db.orderedAllocations, mem_sortBy, List.mem_filter, Bool.and_eq_true, Bool.not_eq_true'] at h
  exact fun hmem ↦ absurd (List.contains_iff_mem.mpr hmem) (Bool.eq_false_iff.mp h.2.1)

/-- What a plan places fits into the budget and into the needs of the accounts, and is on their
eligible allocations. -/
theorem planStarts_fit (svc : Service) (cfg : AedtPoolConfig) (settings : ScaleSettings)
    (now : Time) (inputs : PlanInputs) (excluded : List String) (db : Db) :
    let plan := planStarts svc cfg settings now inputs excluded db
    plan.placements.length ≤ globalStartBudget settings db ∧
      (∀ account, placedFor account plan.placements ≤ plan.startNeededByAccount.get account) ∧
      ∀ p ∈ plan.placements, ∃ a ∈ db.orderedAllocations svc excluded,
        p.allocationId = a.id ∧ p.accountName = a.accountName := by
  dsimp only [planStarts]
  set budget := limitStarts excluded (globalStartBudget settings db)
    (startDemand svc cfg settings now inputs db) with hbudget
  have htotal := limitStarts_total excluded (globalStartBudget settings db)
    (startDemand svc cfg settings now inputs db)
  rw [← hbudget] at htotal
  unfold placeStarts
  dsimp only
  set free := fun (planned : Counter ℕ) (a : Allocation) ↦
    allocationSessionCapacity cfg settings (inputs.resources a.id)
      (db.currentSessions a.id + planned.get a.id) -
        (db.currentSessions a.id + planned.get a.id) with hfree
  set fits := fun (route : Route) (a : Allocation) ↦
    a.accountName == route.account && a.nodeName == route.nodeName &&
      partitionSpecAllows svc route.partition a.partition with hfits
  obtain ⟨strict, hstrict, hlength, haccounts, hall⟩ := @placeRoutes_placements free fits
    (db.orderedAllocations svc excluded) (sortBy (·.1.order) budget.limitedStrict) {}
  obtain ⟨generic, hgeneric, hlength', haccounts', hall'⟩ := @placeGeneric_placements free
    (db.orderedAllocations svc excluded) budget.limitedGeneric
    (placeRoutes free fits (db.orderedAllocations svc excluded)
      (sortBy (·.1.order) budget.limitedStrict) {})
  have hperm := sortBy_perm (fun e : Route × ℕ ↦ e.1.order) budget.limitedStrict
  rw [hgeneric, hstrict]
  refine ⟨?_, fun account ↦ ?_, fun p hp ↦ ?_⟩
  · have hsum := (hperm.map (·.2)).sum_eq
    rw [hsum] at hlength
    rw [List.nil_append, List.length_append]
    omega
  · rw [List.nil_append, placedFor_append, startNeededByAccount_get]
    have hstrictly := haccounts account
    rw [Counter.sumWhere_perm hperm] at hstrictly
    exact Nat.add_le_add hstrictly ((haccounts' account).trans (Counter.get_le_sumWhere _ _))
  · rw [List.nil_append] at hp
    rcases List.mem_append.mp hp with hp | hp
    · obtain ⟨route, haccount, a, ha, hfit, hid⟩ := hall p hp
      rw [hfits, Bool.and_eq_true, Bool.and_eq_true, beq_iff_eq] at hfit
      exact ⟨a, ha, hid, haccount.trans hfit.1.1.symm⟩
    · exact hall' p hp

end Plan

theorem keepsHosts_of_routine {w : Write} (h : w.routine) : w.keepsHosts := by
  cases w
  case startSession => exact h
  case claimStart => exact h
  case registerSession => exact h
  all_goals trivial

theorem beforePlan_hosts (svc : Service) (env : Env) (args : ReconcileArgs) (db : Db) :
    Tx.wp (fun _ _ ↦ True) (svc.beforePlan env args) (fun _ db' ↦ db'.hosts = db.hosts) db := by
  have hroutine := (beforePlan_renews (P := env.renewal) svc env args).guarded db
  have hkept := Tx.wp_invariant (I := fun d : Db ↦ d.hosts = db.hosts) hroutine
    (fun d w hd hw ↦ (hosts_exec_eq (keepsHosts_of_routine hw.1)).trans hd) rfl
  exact ⟨hkept.1.mono fun _ _ _ ↦ trivial, fun a ha ↦ (hkept.2 a ha).2⟩

def Db.countsAsHard (db : Db) (s : Session) : Bool := s.state.hardCap && !db.deadParent s

def Db.hardSessions (db : Db) : ℕ := db.sessions.count db.countsAsHard

theorem hardSessions_eq (db : Db) : db.hardSessions = db.effectiveHardCount := by
  unfold Db.hardSessions Db.effectiveHardCount Table.count Db.countsAsHard
  refine Nat.eq_sub_of_add_eq ?_
  induction db.sessions.rows with
  | nil => rfl
  | cons s rows ih =>
      simp only [List.countP_cons]
      cases s.state.hardCap <;> cases db.deadParent s <;> simp <;> omega

/-- The rows of one state of the database that an earlier one does not have. -/
def Db.insertedSince (db' db : Db) : List Session :=
  db'.sessions.select fun s ↦ (db.sessions.find? s.id).isNone

structure Grown (db : Db) (accounts : List String) (db' : Db) : Prop where
  allocations : db'.allocations = db.allocations
  rows : ∃ old new, db'.sessions.rows = old ++ new ∧
    old.map Session.hostRecord = db.hosts ∧ new.map (·.accountName) = accounts
  hard : db'.hardSessions ≤ db.hardSessions + accounts.length

theorem Grown.refl (db : Db) : Grown db [] db where
  allocations := rfl
  rows := ⟨db.sessions.rows, [], (List.append_nil _).symm, rfl, rfl⟩
  hard := le_rfl

theorem Grown.drain {db db' : Db} (h : Grown db [] db') {p : Session → Bool} {f : Session → Session}
    (hf : ∀ s, Keyed.key (f s) = Keyed.key s) (hrecord : ∀ s, (f s).hostRecord = s.hostRecord)
    (hstate : ∀ s, (f s).state.hardCap = false) : Grown db [] (db'.onSessions p f hf) := by
  obtain ⟨old, new, hrows, hold, hnew⟩ := h.rows
  have hhosts : db'.hosts = db.hosts := by
    rw [List.map_eq_nil_iff.mp hnew, List.append_nil] at hrows
    exact (congrArg (List.map Session.hostRecord) hrows).trans hold
  refine ⟨h.allocations, ⟨_, [], (List.append_nil _).symm,
    (hosts_onSessions hrecord).trans hhosts, rfl⟩, le_trans ?_ h.hard⟩
  refine le_of_eq_of_le (@Table.count_update _ _ _ _ _ _ hf)
    (List.countP_mono_left fun s _ hcount ↦ ?_)
  split at hcount
  · rw [Db.countsAsHard, hstate] at hcount
    cases hcount
  · exact hcount

theorem Grown.drainForRebalance {db db' : Db} (h : Grown db [] db') (sid : ℕ) (now : Time) :
    Grown db [] (drainForRebalance sid now db') := by
  unfold Pool.drainForRebalance
  apply h.drain
  all_goals exact fun _ ↦ rfl

theorem Grown.drainForScaleIn {db db' : Db} (h : Grown db [] db') (sid : ℕ) (now : Time) :
    Grown db [] (drainForScaleIn sid now db') := by
  unfold Pool.drainForScaleIn
  apply h.drain
  all_goals exact fun _ ↦ rfl

theorem Grown.start {db db' : Db} {accounts : List String} (h : Grown db accounts db')
    (key : String) (allocationId : ℕ) (accountName nodeName : String) (slots : ℕ) (now : Time) :
    Grown db (accounts ++ [accountName])
      (startSession key allocationId accountName nodeName slots now db') := by
  obtain ⟨old, new, hrows, hold, hnew⟩ := h.rows
  refine ⟨h.allocations, ⟨old, new ++ [newSession key allocationId accountName nodeName slots now
    db'.sessions.nextKey], ?_, hold, ?_⟩, ?_⟩
  · rw [← List.append_assoc, ← hrows]
    rfl
  · rw [List.map_append, hnew]
    rfl
  · have hhard := h.hard
    rw [List.length_append, List.length_singleton]
    have hcount := @Table.count_insert _ _ db'.sessions
      (newSession key allocationId accountName nodeName slots now) (fun _ ↦ rfl) db'.countsAsHard
    have hsame : (startSession key allocationId accountName nodeName slots now db').hardSessions =
        (db'.sessions.insert (newSession key allocationId accountName nodeName slots now)).count
          db'.countsAsHard := rfl
    have hbefore : db'.sessions.count db'.countsAsHard = db'.hardSessions := rfl
    rw [hsame, hcount, hbefore]
    split <;> omega

theorem scale_grown {G : Db → Write → Prop} (hG : ∀ db w, G db w) (cfg : AedtPoolConfig)
    (now : Time) (plan : Plan) (db : Db) : Tx.wp G (scale cfg now plan)
      (fun _ db' ↦ Grown db (plan.placements.map (·.accountName)) db') db := by
  unfold scale
  refine Tx.wp_bind.mpr (Tx.wp_mono (Tx.wp_forEach (I := Grown db [])
    (fun drain _ d hd ↦ ?_) (Grown.refl db)) fun _ d hd ↦ ?_)
  · refine Tx.wp_bind.mpr (wp_read.mpr ?_)
    exact Tx.wp_forEach (fun s _ d hd ↦ wp_write.mpr ⟨hG _ _, hd.drainForRebalance s.id now⟩) hd
  refine Tx.wp_bind.mpr (wp_read.mpr ?_)
  refine Tx.wp_bind.mpr (Tx.wp_mono (Tx.wp_forEach (I := Grown db [])
    (fun s _ d hd ↦ wp_write.mpr ⟨hG _ _, hd.drainForScaleIn s.id now⟩) hd)
    fun _ d hd ↦ ?_)
  refine Tx.wp_mono (Tx.wp_forEach_suffix (I := fun rest d ↦ ∃ done, plan.placements = done ++ rest ∧
    Grown db (done.map (·.accountName)) d) (fun p rest d hd ↦ ?_) ⟨[], rfl, hd⟩) fun _ d hd ↦ ?_
  · obtain ⟨done, hplan, hgrown⟩ := hd
    refine wp_write.mpr ⟨hG _ _, done ++ [p], ?_, ?_⟩
    · rw [hplan, List.append_assoc]
      rfl
    · rw [List.map_append]
      exact hgrown.start ..
  · obtain ⟨done, hplan, hgrown⟩ := hd
    rw [hplan, List.append_nil]
    exact hgrown

theorem insertedSince_of_rows {db db' : Db} {old new : List Session}
    (hrows : db'.sessions.rows = old ++ new) (hold : old.map Session.hostRecord = db.hosts) :
    db'.insertedSince db = new := by
  have hids : old.map (·.id) = db.sessions.rows.map (·.id) := by
    have h := congrArg (List.map HostRecord.id) hold
    rwa [Db.hosts, List.map_map, List.map_map] at h
  have hknown : ∀ s ∈ old, (db.sessions.find? s.id).isNone = false := by
    intro s hs
    obtain ⟨x, hx, hid⟩ := List.mem_map.mp (hids ▸ List.mem_map_of_mem hs)
    rw [← hid]
    exact Option.isNone_eq_false_iff.mpr (Table.find?_key hx ▸ rfl)
  have hfresh : ∀ s ∈ new, (db.sessions.find? s.id).isNone = true := by
    intro s hs
    rw [Option.isNone_iff_eq_none]
    by_contra hfound
    obtain ⟨x, hx⟩ := Option.ne_none_iff_exists'.mp hfound
    obtain ⟨hmem, hid⟩ := Table.find?_eq_some.mp hx
    obtain ⟨o, ho, hoid⟩ := List.mem_map.mp (hids ▸ List.mem_map_of_mem hmem)
    have hordered := db'.sessions.ordered
    rw [hrows, List.map_append] at hordered
    have hlt := (List.pairwise_append.mp hordered).2.2 _ (List.mem_map_of_mem ho) _
      (List.mem_map_of_mem hs)
    exact absurd (hoid.trans hid) (Nat.ne_of_lt hlt)
  unfold Db.insertedSince Table.select
  rw [hrows, List.filter_append, List.filter_eq_nil_iff.mpr fun s hs ↦ by simp [hknown s hs],
    List.filter_eq_self.mpr hfresh, List.nil_append]

theorem reconcile_split (svc : Service) (env : Env) (args : ReconcileArgs) :
    svc.reconcile env args = (do
      svc.beforePlan env args
      when (args.execute && env.cfg.operational) (scale env.cfg env.now args.plan)) := by
  have hwhen (c : Bool) (first last : PoolTx Unit) :
      (do when c first; when c last) = when c (do first; last) := by
    cases c <;> rfl
  unfold Service.reconcile Service.beforePlan
  simp only [Tx.andThen_assoc, hwhen]

theorem insertedSince_of_hosts {db db' : Db} (h : db'.hosts = db.hosts) :
    db'.insertedSince db = [] := insertedSince_of_rows (List.append_nil _).symm h

/-- A pass that scales leaves the sessions that its plan has started on the rows before it. -/
theorem reconcileByPlan_grown (svc : Service) (env : Env) (settings : ScaleSettings)
    (inputs : Db → PlanInputs) (args : ReconcileArgs) (db : Db) :
    Tx.wp (fun _ _ ↦ True) (svc.reconcileByPlan env settings inputs args)
      (fun result db' ↦ match result with
        | none => db'.hosts = db.hosts
        | some plan => ∃ d : Db, d.hosts = db.hosts ∧
            plan = planStarts svc env.cfg settings env.now (inputs d)
              (accountSet svc args.excludedStartAccounts) d ∧
            Grown d (plan.placements.map (·.accountName)) db') db := by
  unfold Service.reconcileByPlan
  refine Tx.wp_bind.mpr (Tx.wp_mono (beforePlan_hosts svc env args db) fun _ d hd ↦ ?_)
  split
  · refine Tx.wp_bind.mpr (wp_read.mpr (Tx.wp_bind.mpr ?_))
    refine Tx.wp_mono (scale_grown (fun _ _ ↦ trivial) env.cfg env.now _ d) fun _ d' hgrown ↦ ?_
    refine Tx.wp_pure.mpr ⟨d, hd, rfl, ?_⟩
    have haccounts : ((planStarts svc env.cfg settings env.now (inputs d)
        (accountSet svc args.excludedStartAccounts) d).toPlan (inputs d)).placements.map
          (·.accountName) = (planStarts svc env.cfg settings env.now (inputs d)
            (accountSet svc args.excludedStartAccounts) d).placements.map (·.accountName) := by
      rw [StartPlan.toPlan, List.map_map]
      conv_rhs => rw [← List.zipIdx_map_fst 0 (planStarts svc env.cfg settings env.now (inputs d)
        (accountSet svc args.excludedStartAccounts) d).placements, List.map_map]
      rfl
    exact haccounts ▸ hgrown
  · exact Tx.wp_pure.mpr hd

/-- The pass below is `reconcile`, with the plan that it makes on the way. -/
theorem reconcileByPlan_commit (svc : Service) (env : Env) (settings : ScaleSettings)
    (inputs : Db → PlanInputs) (args : ReconcileArgs) (db : Db) :
    let d := (svc.beforePlan env args).commit db
    (svc.reconcileByPlan env settings inputs args).commit db =
      (svc.reconcile env { args with
        plan := (planStarts svc env.cfg settings env.now (inputs d)
          (accountSet svc args.excludedStartAccounts) d).toPlan (inputs d) }).commit db := by
  dsimp only
  rw [reconcile_split]
  unfold Service.reconcileByPlan
  refine (Tx.EndsAlike.bind fun _ ↦ ?_).commit
  cases args.execute && env.cfg.operational with
  | false => exact ⟨rfl, rfl⟩
  | true => exact (Tx.endsAlike_read_bind _ _).trans (Tx.endsAlike_bind_pure _ _)

/-- The start ceiling: what a reconciliation inserts fits under the ceiling of sessions and into
the needs of its plan, and none of it is for an account that is excluded. -/
theorem reconcile_start_ceiling (svc : Service) (env : Env) (settings : ScaleSettings)
    (inputs : Db → PlanInputs) (args : ReconcileArgs) (db : Db) :
    let run := svc.reconcileByPlan env settings inputs args
    let db' := run.commit db
    db'.insertedSince db ≠ [] →
      db'.hardSessions ≤ settings.maxSessions ∧
      ∃ plan, (run db).1 = .ok (some plan) ∧ ∀ account,
        (db'.insertedSince db).countP (·.accountName == account) ≤
          plan.startNeededByAccount.get account ∧
        (account ∈ accountSet svc args.excludedStartAccounts →
          (db'.insertedSince db).countP (·.accountName == account) = 0) := by
  dsimp only
  intro hinserted
  have hgrown := reconcileByPlan_grown svc env settings inputs args db
  cases hrun : (svc.reconcileByPlan env settings inputs args db).1 with
  | error e =>
      have hsame : (svc.reconcileByPlan env settings inputs args).commit db = db := by
        unfold Tx.commit
        split
        · rename_i hok
          rw [hok] at hrun
          cases hrun
        · rfl
      rw [hsame] at hinserted
      exact absurd (insertedSince_of_hosts rfl) hinserted
  | ok result =>
      have hdone := Tx.wp_commit hgrown hrun
      cases result with
      | none => exact absurd (insertedSince_of_hosts hdone) hinserted
      | some plan =>
          obtain ⟨d, hhosts, rfl, hgrows⟩ := hdone
          obtain ⟨old, new, hrows, hold, hnew⟩ := hgrows.rows
          have hsince := insertedSince_of_rows hrows (hold.trans hhosts)
          obtain ⟨hlength, hneeds, hplaced⟩ := planStarts_fit svc env.cfg settings env.now
            (inputs d) (accountSet svc args.excludedStartAccounts) d
          have hcount (account : String) : new.countP (·.accountName == account) =
              placedFor account (planStarts svc env.cfg settings env.now (inputs d)
                (accountSet svc args.excludedStartAccounts) d).placements := by
            have h := congrArg (List.countP (· == account)) hnew
            rwa [List.countP_map, List.countP_map] at h
          rw [hsince] at hinserted ⊢
          refine ⟨?_, _, rfl, fun account ↦ ⟨?_, fun hmem ↦ ?_⟩⟩
          · have hsome : 0 < new.length := List.length_pos_iff.mpr hinserted
            have hnumber := congrArg List.length hnew
            rw [List.length_map, List.length_map] at hnumber
            have hhard := hgrows.hard
            rw [List.length_map, hardSessions_eq d] at hhard
            rw [globalStartBudget] at hlength
            omega
          · exact (hcount account).trans_le (hneeds account)
          · rw [hcount account]
            refine List.countP_eq_zero.mpr fun p hp hp' ↦ ?_
            obtain ⟨a, ha, -, hfor⟩ := hplaced p hp
            have hsame : a.accountName = account := hfor.symm.trans (beq_iff_eq.mp hp')
            exact orderedAllocations_eligible ha (hsame ▸ hmem)

def bareNode : Db where
  allocations := Table.empty.insert fun id ↦
    { id, accountName := "lab", nodeName := "n1", state := .active
      drainReason := demandDrainReason, createdAt := 100 }

def oneProject : PlanInputs where
  demandEntries := [{ account := "lab", family := "maxwell" }]
  resources _ := { totalCpus := 64, totalMemoryMb := 262144 }
  sessionKey i := "aedt-" ++ toString (i + 1)

theorem reconcile_start_ceiling_one :
    let run := sampleService.reconcileByPlan ⟨{}, 100, 100, {}⟩ { maxSessions := 1 }
      (fun _ ↦ oneProject) { execute := true, excludedStartAccounts := ["guest"] }
    let db' := run.commit bareNode
    db'.hardSessions ≤ 1 ∧
      ∃ plan, (run bareNode).1 = .ok (some plan) ∧ ∀ account,
        (db'.insertedSince bareNode).countP (·.accountName == account) ≤
          plan.startNeededByAccount.get account ∧
        (account ∈ accountSet sampleService ["guest"] →
          (db'.insertedSince bareNode).countP (·.accountName == account) = 0) :=
  reconcile_start_ceiling sampleService ⟨{}, 100, 100, {}⟩ { maxSessions := 1 }
    (fun _ ↦ oneProject) { execute := true, excludedStartAccounts := ["guest"] } bareNode
    (List.isEmpty_eq_false_iff.mp (by decide +kernel))

end SlurmScheduler.Pool
