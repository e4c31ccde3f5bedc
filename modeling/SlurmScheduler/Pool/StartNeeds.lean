import SlurmScheduler.Pool.Starts

namespace SlurmScheduler.Pool

open Relational

theorem sumWhere_countEach {κ : Type} [DecidableEq κ] (p : κ → Bool) (ks : List κ) :
    Counter.sumWhere p (countEach ks).entries = ks.countP p := by
  suffices hfold : ∀ c : Counter κ, Counter.sumWhere p
      (ks.foldl (fun c k ↦ c.add k 1) c).entries = Counter.sumWhere p c.entries + ks.countP p by
    exact (hfold {}).trans (Nat.zero_add _)
  induction ks with
  | nil => exact fun _ ↦ rfl
  | cons k ks ih =>
      intro c
      rw [List.foldl_cons, ih, Counter.sumWhere_add, List.countP_cons]
      omega

theorem distinct_countEach {κ : Type} [DecidableEq κ] (ks : List κ) : (countEach ks).Distinct := by
  suffices hfold : ∀ c : Counter κ, c.Distinct →
      (ks.foldl (fun c k ↦ c.add k 1) c).Distinct by
    exact hfold {} List.nodup_nil
  induction ks with
  | nil => exact fun _ h ↦ h
  | cons k ks ih => exact fun c h ↦ ih _ h.add

theorem get_countEach {κ : Type} [DecidableEq κ] (ks : List κ) (k : κ) :
    (countEach ks).get k = ks.countP (· = k) := by
  rw [(distinct_countEach ks).get_eq, sumWhere_countEach]

theorem mem_keys_countEach {κ : Type} [DecidableEq κ] {ks : List κ} {k : κ}
    (h : k ∈ (countEach ks).keys) : k ∈ ks := by
  suffices hfold : ∀ c : Counter κ, k ∈ (ks.foldl (fun c k ↦ c.add k 1) c).keys →
      k ∈ c.keys ∨ k ∈ ks by
    exact (hfold {} h).resolve_left List.not_mem_nil
  clear h
  induction ks with
  | nil => exact fun _ h ↦ .inl h
  | cons j ks ih =>
      intro c h
      rcases ih _ h with h | h
      · rcases Counter.mem_keys_addIn.mp h with rfl | h
        · exact .inr List.mem_cons_self
        · exact .inl h
      · exact .inr (List.mem_cons_of_mem _ h)

def projectsOf (account : String) (entries : List DemandEntry) : ℕ :=
  entries.countP fun e ↦ e.actionableRoute && e.account == account

theorem sessionsFor_le (projectsPerSession : ℕ) (group : String) (projects : ℕ) :
    sessionsFor projectsPerSession group projects ≤ projects := by
  unfold sessionsFor
  split
  · exact le_rfl
  · rcases Nat.eq_zero_or_pos projectsPerSession with hnone | hsome
    · simp [hnone]
    · refine Nat.le_of_lt_succ (Nat.div_lt_of_lt_mul ?_)
      have hmul : projectsPerSession * (projects + 1) =
          projectsPerSession * projects + projectsPerSession := Nat.mul_succ ..
      have hle : projects ≤ projectsPerSession * projects := Nat.le_mul_of_pos_left _ hsome
      rw [Nat.succ_eq_add_one, hmul]
      omega

theorem sessionsFor_zero (projectsPerSession : ℕ) (group : String) :
    sessionsFor projectsPerSession group 0 = 0 :=
  Nat.le_zero.mp (sessionsFor_le projectsPerSession group 0)

section Strict

variable {svc : Service} {projectsPerSession : ℕ} {placed : Counter (ℕ × RouteGroup)}

theorem consume_le (rg : RouteGroup) (projects : ℕ) (records : List CapacityRecord) :
    (consume svc rg projects records).1 ≤ projects := by
  induction records generalizing projects with
  | nil => exact le_rfl
  | cons record records ih => exact (ih _).trans (Nat.sub_le _ _)

theorem sumWhere_strictStarts_le (p : RouteGroup → Bool) (es : List (RouteGroup × ℕ))
    (records : List CapacityRecord) :
    Counter.sumWhere p (strictStartNeededByRouteGroup svc projectsPerSession placed es records) ≤
      Counter.sumWhere p es := by
  induction es generalizing records with
  | nil => exact le_rfl
  | cons e es ih =>
      obtain ⟨rg, projects⟩ := e
      rw [strictStartNeededByRouteGroup, Counter.sumWhere_cons]
      dsimp only
      split
      · rw [Counter.sumWhere_cons]
        refine Nat.add_le_add ?_ (ih _)
        split
        · exact ((sessionsFor_le _ _ _).trans (consume_le _ _ _)).trans (Nat.sub_le _ _)
        · exact le_rfl
      · exact (ih _).trans (Nat.le_add_left _ _)

theorem mem_strictStarts {e : RouteGroup × ℕ} {es : List (RouteGroup × ℕ)}
    {records : List CapacityRecord}
    (h : e ∈ strictStartNeededByRouteGroup svc projectsPerSession placed es records) :
    e.1 ∈ es.map (·.1) := by
  induction es generalizing records with
  | nil => cases h
  | cons e' es ih =>
      obtain ⟨rg, projects⟩ := e'
      rw [strictStartNeededByRouteGroup] at h
      split at h
      · rcases List.mem_cons.mp h with rfl | h
        · exact List.mem_cons_self
        · exact List.mem_cons_of_mem _ (ih h)
      · exact List.mem_cons_of_mem _ (ih h)

/-- Without a session that takes projects of the account, none of its projects is placed. -/
theorem consume_none {rg : RouteGroup} {records : List CapacityRecord}
    (h : ∀ record ∈ records, record.accountName ≠ rg.account) (projects : ℕ) :
    (consume svc rg projects records).1 = projects := by
  induction records generalizing projects with
  | nil => rfl
  | cons record records ih =>
      rw [List.forall_mem_cons] at h
      have hno : rg.toRoute.matches svc record = false := by
        simp [Route.matches, h.1]
      simp only [consume, hno, Bool.false_and, Bool.false_eq_true, if_false, Nat.sub_zero]
      exact ih h.2 projects

theorem consume_accounts {account : String} {rg : RouteGroup} {records : List CapacityRecord}
    (h : ∀ record ∈ records, record.accountName ≠ account) (projects : ℕ) :
    ∀ record ∈ (consume svc rg projects records).2, record.accountName ≠ account := by
  induction records generalizing projects with
  | nil => exact List.forall_mem_nil _
  | cons record records ih =>
      rw [List.forall_mem_cons] at h
      rw [consume]
      dsimp only
      refine List.forall_mem_cons.mpr ⟨?_, ih h.2 _⟩
      rw [apply_ite CapacityRecord.accountName]
      dsimp only
      rw [ite_self]
      exact h.1

/-- Each group of such an account wants sessions for all of its projects. -/
theorem sumWhere_strictStarts_all {account : String} (es : List (RouteGroup × ℕ))
    {records : List CapacityRecord} (h : ∀ record ∈ records, record.accountName ≠ account) :
    Counter.sumWhere (·.account = account)
        (strictStartNeededByRouteGroup svc projectsPerSession placed es records) =
      Counter.sumWhere (·.account = account)
        (es.map fun e ↦ (e.1, sessionsFor projectsPerSession e.1.group e.2)) := by
  induction es generalizing records with
  | nil => rfl
  | cons e es ih =>
      obtain ⟨rg, projects⟩ := e
      have hrest := ih (@consume_accounts svc _ rg _ h
        (projects - ((records.filter (rg.toRoute.matches svc)).map fun record ↦
          placed.get (record.sessionId, rg)).sum))
      rw [strictStartNeededByRouteGroup, List.map_cons, Counter.sumWhere_cons, ← hrest]
      dsimp only
      by_cases hrg : rg.account = account
      · have hno : records.filter (rg.toRoute.matches svc) = [] := by
          refine List.filter_eq_nil_iff.mpr fun record hrecord ↦ ?_
          simp [Route.matches, hrg, h record hrecord]
        have hconsumed := @consume_none svc rg records
          (fun record hrecord ↦ hrg ▸ h record hrecord) projects
        rw [hno, List.map_nil, List.sum_nil, Nat.sub_zero, hconsumed]
        split
        · rw [Counter.sumWhere_cons]
        · rename_i hnone
          rw [Nat.eq_zero_of_not_pos hnone, sessionsFor_zero, ite_self, Nat.zero_add]
      · have hother : ¬ decide (rg.account = account) = true := by simpa using hrg
        rw [if_neg hother, Nat.zero_add]
        split
        · rw [Counter.sumWhere_cons, if_neg hother, Nat.zero_add]
        · rfl

end Strict

theorem sumWhere_grant_le {κ : Type} (p : κ → Bool) (budget : ℕ) (es : List (κ × ℕ)) :
    Counter.sumWhere p (grant budget es).1 ≤ Counter.sumWhere p es := by
  induction es generalizing budget with
  | nil => exact le_rfl
  | cons e es ih =>
      rw [grant, Counter.sumWhere_cons]
      dsimp only
      split
      · exact (ih _).trans (Nat.le_add_left _ _)
      · rw [Counter.sumWhere_cons]
        refine Nat.add_le_add ?_ (ih _)
        split
        · exact min_le_left _ _
        · exact le_rfl

theorem grant_keys {κ : Type} (budget : ℕ) (es : List (κ × ℕ)) :
    ((grant budget es).1.map (·.1)).Sublist (es.map (·.1)) := by
  induction es generalizing budget with
  | nil => exact .slnil
  | cons e es ih =>
      rw [grant]
      dsimp only
      split
      · exact (ih _).cons _
      · exact (ih _).cons_cons _

namespace Turns

/-- A turn of an account moves a unit of what it still needs to what it is granted. -/
theorem pass_account (order : List String) (t : Turns) (account : String) :
    Counter.sumWhere (· = account) (t.pass order).limited.entries +
        (t.pass order).remaining.get account =
      Counter.sumWhere (· = account) t.limited.entries + t.remaining.get account := by
  induction order generalizing t with
  | nil => rfl
  | cons a rest ih =>
      have hturn : Counter.sumWhere (· = account) (t.limited.add a 1).entries +
          (t.remaining.put a (t.remaining.get a - 1)).get account =
          Counter.sumWhere (· = account) t.limited.entries + t.remaining.get account ∨
          t.remaining.get a = 0 := by
        rw [Counter.sumWhere_add, Counter.get_put]
        by_cases ha : a = account
        · subst ha
          simp only [decide_true, if_true]
          omega
        · simp [ha]
      rw [pass]
      split
      · exact ih t
      · rename_i hneed
        have hturn := hturn.resolve_right hneed
        dsimp only
        split
        · exact hturn
        · exact (ih _).trans hturn

theorem rounds_account (order : List String) (fuel : ℕ) (t : Turns) (account : String) :
    Counter.sumWhere (· = account) (Turns.rounds order fuel t).limited.entries +
        (Turns.rounds order fuel t).remaining.get account =
      Counter.sumWhere (· = account) t.limited.entries + t.remaining.get account := by
  induction fuel generalizing t with
  | zero => rfl
  | succ fuel ih =>
      rw [rounds]
      split
      · rw [ih, pass_account]
      · rfl

end Turns

section Limits

variable {excluded : List String} {budget : ℕ} {demand : StartDemand} {account : String}

def StartDemand.strictOf (demand : StartDemand) (account : String) : ℕ :=
  Counter.sumWhere (·.account = account) demand.strictStartNeededByRoute.entries

theorem limitedStrict_le (excluded : List String) (budget : ℕ) (demand : StartDemand)
    (account : String) : Counter.sumWhere (·.account = account)
      (limitStarts excluded budget demand).limitedStrict ≤ demand.strictOf account := by
  refine (sumWhere_grant_le _ _ _).trans ?_
  rw [Counter.sumWhere_perm (sortBy_perm _ _), Counter.sumWhere_select]
  refine Counter.sumWhere_mono fun e _ he ↦ ?_
  rw [Bool.and_eq_true] at he
  exact he.1

/-- Beyond its strict routes an account is granted no more than it needs beyond them. -/
theorem limitedGeneric_le (hdistinct : demand.startNeededByAccount.Distinct)
    (haccount : account ∉ excluded) : Counter.sumWhere (· = account)
      (limitStarts excluded budget demand).limitedGeneric.entries ≤
        demand.startNeededByAccount.get account - demand.strictOf account := by
  have hnot : (!excluded.contains account) = true := by simpa using haccount
  have hrequested : (Counter.sumBy (·.account) (demand.strictStartNeededByRoute.select
      (!excluded.contains ·.account)).entries {}).get account = demand.strictOf account := by
    rw [Counter.get_sumBy, Counter.sumWhere_select]
    refine (Nat.zero_add _).trans (le_antisymm ?_ ?_)
    · refine Counter.sumWhere_mono fun e _ he ↦ ?_
      rw [Bool.and_eq_true] at he
      exact he.1
    · refine Counter.sumWhere_mono fun e _ he ↦ ?_
      rw [decide_eq_true_eq] at he
      rw [Bool.and_eq_true, decide_eq_true_eq, he]
      exact ⟨rfl, hnot⟩
  unfold limitStarts
  dsimp only
  refine (Nat.le_add_right _ _).trans (le_of_eq_of_le (Turns.rounds_account _ _ _ account) ?_)
  dsimp only
  rw [show Counter.sumWhere (· = account) ({} : Counter String).entries = 0 from rfl,
    Nat.zero_add]
  refine hdistinct.select.mapWith.get_select_le.trans (le_of_eq_of_le (Counter.get_mapWith ?_) ?_)
  · exact Nat.zero_sub _
  · rw [hrequested]
    exact Nat.sub_le_sub_right hdistinct.get_select_le _

end Limits

theorem distinct_addSpares {accounts : List String} {authorized : ℕ} {c : Counter String}
    (h : c.Distinct) : (addSpares accounts authorized c).Distinct := by
  unfold addSpares
  induction List.range authorized generalizing c with
  | nil => exact h
  | cons i is ih => exact ih h.add

theorem get_addSpares_le (accounts : List String) (authorized : ℕ) (c : Counter String)
    (account : String) : (addSpares accounts authorized c).get account ≤
      c.get account + authorized := by
  suffices hfold : ∀ (is : List ℕ) (c : Counter String), (is.foldl
      (fun c i ↦ c.add (accounts.getD (i % accounts.length) "") 1) c).get account ≤
        c.get account + is.length by
    exact (hfold _ c).trans_eq (by rw [List.length_range])
  intro is
  induction is with
  | nil => exact fun _ ↦ le_rfl
  | cons i is ih =>
      intro c
      rw [List.foldl_cons]
      refine (ih _).trans ?_
      rw [Counter.get_add, List.length_cons]
      split <;> omega

theorem distinct_maxWith {es : List (String × ℕ)} {c : Counter String} (h : c.Distinct) :
    (es.foldl (fun c e ↦ c.put e.1 (max (c.get e.1) e.2)) c).Distinct := by
  induction es generalizing c with
  | nil => exact h
  | cons e es ih => exact ih h.put

theorem get_maxWith_le (es : List (String × ℕ)) (c : Counter String) (account : String) :
    (es.foldl (fun c e ↦ c.put e.1 (max (c.get e.1) e.2)) c).get account ≤
      max (c.get account) (Counter.sumWhere (· = account) es) := by
  induction es generalizing c with
  | nil => exact le_max_left _ _
  | cons e es ih =>
      refine (ih _).trans ?_
      rw [Counter.get_put, Counter.sumWhere_cons]
      by_cases hkey : e.1 = account
      · subst hkey
        simp only [decide_true, if_true]
        omega
      · simp only [hkey, decide_false, if_false, Bool.false_eq_true]
        omega

theorem warmSpareStartsAuthorized_le (operational : Bool) (admission : Option (Option ℤ))
    (needed unclaimed demand : ℕ) :
    warmSpareStartsAuthorized operational admission needed unclaimed demand ≤ needed := by
  unfold warmSpareStartsAuthorized
  split
  · exact Nat.zero_le _
  split
  · exact Nat.zero_le _
  split
  · exact le_rfl
  · omega

section Demand

variable (svc : Service) (cfg : AedtPoolConfig) (settings : ScaleSettings) (now : Time)
  (inputs : PlanInputs) (db : Db) (account : String)

/-- The groups of an account want no more than `n` sessions. -/
def GroupsWithin (n : ℕ) : Prop :=
  ∀ ks : List (String × String), ks.Nodup → (∀ key ∈ ks, decide (key.1 = account) = true) →
    (ks.map (groupDemand cfg.projectsPerSession inputs.demandEntries).get).sum ≤ n

theorem distinct_startNeeded :
    (startDemand svc cfg settings now inputs db).startNeededByAccount.Distinct := by
  unfold startDemand
  refine distinct_addSpares (distinct_maxWith ?_)
  exact Counter.distinct_empty.sumBy.mapWith.select

/-- What is not bound yet of the sessions of a group is part of what the group wants. -/
theorem unsatisfied_le {demand bound : Counter (String × String)} {n : ℕ}
    (h : ∀ ks : List (String × String), ks.Nodup →
      (∀ key ∈ ks, decide (key.1 = account) = true) → (ks.map demand.get).sum ≤ n) :
    (Counter.sumBy (·.1) ((Counter.ofKeys (demand.keys ++ bound.keys) fun key ↦
        max (demand.get key) (bound.get key)).mapWith fun key n ↦ n - bound.get key).entries
      {}).get account ≤ n := by
  have hentries : ((Counter.ofKeys (demand.keys ++ bound.keys) fun key ↦
      max (demand.get key) (bound.get key)).mapWith fun key n ↦ n - bound.get key).entries =
      (demand.keys ++ bound.keys).dedup.map fun key ↦
        (key, max (demand.get key) (bound.get key) - bound.get key) := by
    simp [Counter.ofKeys, Counter.mapWith]
  rw [Counter.get_sumBy, hentries, Counter.sumWhere_keys]
  refine (le_of_eq_of_le (Nat.zero_add _) (List.sum_le_sum fun key _ ↦ ?_)).trans
    (h _ ((List.nodup_dedup (demand.keys ++ bound.keys)).filter _)
      fun key hkey ↦ (List.mem_filter.mp hkey).2)
  omega

theorem startNeeded_le {n : ℕ} (h : GroupsWithin cfg inputs account n) :
    (startDemand svc cfg settings now inputs db).startNeededByAccount.get account ≤
      max n ((startDemand svc cfg settings now inputs db).strictOf account) +
        settings.minIdleSessions := by
  unfold startDemand StartDemand.strictOf
  dsimp only
  refine (get_addSpares_le _ _ _ _).trans (Nat.add_le_add ((get_maxWith_le _ _ _).trans ?_) ?_)
  · refine max_le_max ?_ ?_
    · refine (Counter.Distinct.get_select_le (Counter.Distinct.mapWith
        (Counter.Distinct.sumBy Counter.distinct_empty))).trans
        (le_of_eq_of_le (Counter.get_mapWith ?_) ?_)
      · exact Nat.zero_sub _
      · exact (Nat.sub_le _ _).trans (unsatisfied_le account h)
    · rw [Counter.sumWhere_sumBy]
      exact le_of_eq (Nat.zero_add _)
  · refine (warmSpareStartsAuthorized_le _ _ _ _ _).trans ?_
    omega

theorem get_groupDemand (key : String × String) :
    (groupDemand cfg.projectsPerSession inputs.demandEntries).get key =
      sessionsFor cfg.projectsPerSession key.2
        (inputs.demandEntries.countP fun e ↦ e.actionableRoute && (e.account, e.group) = key) := by
  refine (Counter.get_mapWith (f := fun (key : String × String) projects ↦
    sessionsFor cfg.projectsPerSession key.2 projects) (sessionsFor_zero _ _)).trans ?_
  rw [get_countEach, List.countP_map, List.countP_filter]
  refine congrArg _ (List.countP_congr fun e _ ↦ ?_)
  simp [and_comm]

theorem groupsWithin_projects :
    GroupsWithin cfg inputs account (projectsOf account inputs.demandEntries) := by
  intro ks hnodup hks
  let projects := countEach ((inputs.demandEntries.filter (·.actionableRoute)).map fun e ↦
    (e.account, e.group))
  have hprojects : Counter.sumWhere (fun key : String × String ↦ decide (key.1 = account))
      projects.entries = projectsOf account inputs.demandEntries := by
    rw [sumWhere_countEach, List.countP_map, List.countP_filter, projectsOf]
    refine List.countP_congr fun e _ ↦ ?_
    simp [and_comm]
  rw [← hprojects]
  refine le_trans (List.sum_le_sum fun key _ ↦ ?_) (projects.sum_get_le hnodup hks)
  exact (Counter.get_mapWith (f := fun (key : String × String) projects ↦
    sessionsFor cfg.projectsPerSession key.2 projects) (sessionsFor_zero _ _)).trans_le
      (sessionsFor_le _ _ _)

/-- The strict starts of an account are those of its route groups. -/
theorem strictOf_startDemand : (startDemand svc cfg settings now inputs db).strictOf account =
    Counter.sumWhere (·.account = account) (strictStartNeededByRouteGroup svc
      cfg.projectsPerSession (strictPlacedProjects svc inputs.demandEntries)
      (sortBy (·.1.order) (strictProjectCountsByRouteGroup inputs.demandEntries).entries)
      (db.strictCapacityRecords (now - cfg.sessionHeartbeatTimeoutSeconds)
        (db.boundSessions svc (now - cfg.sessionHeartbeatTimeoutSeconds)))) := by
  unfold startDemand StartDemand.strictOf
  dsimp only
  rw [Counter.sumWhere_sumBy]
  exact Nat.zero_add _

theorem strictOf_le_projects : (startDemand svc cfg settings now inputs db).strictOf account ≤
    projectsOf account inputs.demandEntries := by
  rw [strictOf_startDemand]
  refine (sumWhere_strictStarts_le _ _ _).trans ?_
  rw [Counter.sumWhere_perm (sortBy_perm _ _), strictProjectCountsByRouteGroup, sumWhere_countEach,
    strictEntries, List.countP_map, List.countP_filter, projectsOf]
  refine List.countP_mono_left fun e _ he ↦ ?_
  simp only [Function.comp_apply, Bool.and_eq_true, decide_eq_true_eq, beq_iff_eq] at he ⊢
  exact ⟨he.2.1, he.1⟩

/-- An account is granted no more starts than it has projects and there are spares. -/
theorem plan_starts_le {excluded : List String} (haccount : account ∉ excluded) :
    (planStarts svc cfg settings now inputs excluded db).startNeededByAccount.get account ≤
      projectsOf account inputs.demandEntries + settings.minIdleSessions := by
  have hneeded := startNeeded_le svc cfg settings now inputs db account
    (groupsWithin_projects cfg inputs account)
  have hstrict := strictOf_le_projects svc cfg settings now inputs db account
  have hlimited := limitedStrict_le excluded (globalStartBudget settings db)
    (startDemand svc cfg settings now inputs db) account
  have hgeneric := @limitedGeneric_le excluded (globalStartBudget settings db) _ account
    (distinct_startNeeded svc cfg settings now inputs db) haccount
  rw [planStarts, startNeededByAccount_get]
  omega

/-- Every project of the account is bound to the node of one route, and no session of the account
is left that could take one of them. -/
structure OnlyRoute (route : Route) : Prop where
  ofAccount : route.account = account
  bound : ∀ e ∈ inputs.demandEntries, e.actionableRoute = true → e.account = account →
    e.strictNode ≠ "" ∧ e.routeGroup.toRoute = route
  spares : settings.minIdleSessions = 0
  sessions : ∀ s ∈ db.sessions.rows, s.state.hardCap = true →
    ∀ a, db.allocationOf s = some a → a.accountName ≠ account

variable {svc cfg settings now inputs db account}

/-- The starts of strict routes are those of projects that are bound to a node. -/
theorem mem_limitedStrict {excluded : List String} {budget : ℕ} {e : Route × ℕ}
    (h : e ∈ (limitStarts excluded budget
      (startDemand svc cfg settings now inputs db)).limitedStrict) :
    ∃ project ∈ inputs.demandEntries, project.actionableRoute = true ∧
      project.strictNode ≠ "" ∧ project.routeGroup.toRoute = e.1 := by
  have hkey := (grant_keys _ _).subset (List.mem_map_of_mem h)
  obtain ⟨e', he', hroute⟩ := List.mem_map.mp hkey
  have hselected := List.mem_of_mem_filter (mem_sortBy.mp he')
  have hbyRoute := List.mem_map_of_mem (f := (·.1)) hselected
  unfold startDemand at hbyRoute
  obtain ⟨start, hstart, hstartRoute⟩ := Counter.mem_keys_sumBy hbyRoute
  obtain ⟨counted, hcounted, hgroup⟩ := List.mem_map.mp (mem_strictStarts hstart)
  have hcount := mem_keys_countEach (List.mem_map_of_mem (f := (·.1)) (mem_sortBy.mp hcounted))
  obtain ⟨project, hproject, hrg⟩ := List.mem_map.mp hcount
  obtain ⟨hmem, hstrict⟩ := List.mem_filter.mp hproject
  rw [Bool.and_eq_true, bne_iff_ne] at hstrict
  refine ⟨project, hmem, hstrict.1, hstrict.2, ?_⟩
  rw [hrg, hgroup, hstartRoute, hroute]

theorem nodup_limitedStrict (excluded : List String) (budget : ℕ) :
    ((limitStarts excluded budget
      (startDemand svc cfg settings now inputs db)).limitedStrict.map (·.1)).Nodup := by
  have hdistinct : (startDemand svc cfg settings now inputs db).strictStartNeededByRoute.Distinct :=
    Counter.distinct_empty.sumBy
  exact (((sortBy_perm _ _).map _).nodup_iff.mpr hdistinct.select).sublist (grant_keys _ _)

theorem OnlyRoute.records {route : Route} (h : OnlyRoute settings inputs db account route)
    (cutoff : Time) (bound : List BoundSession) :
    ∀ record ∈ db.strictCapacityRecords cutoff bound, record.accountName ≠ account := by
  intro record hrecord
  obtain ⟨s, hs, hsome⟩ := List.mem_filterMap.mp hrecord
  obtain ⟨a, ha, hrow⟩ := Option.bind_eq_some_iff.mp hsome
  split at hrow
  · rename_i hopen
    have hcap : s.state.hardCap = true := by
      rw [Bool.or_eq_true] at hopen
      rcases hopen with hstarting | hserving
      · simp only [Db.undrainedStarting, Bool.and_eq_true, beq_iff_eq] at hstarting
        rw [hstarting.1.1]
        rfl
      · simp only [Bool.and_eq_true] at hserving
        revert hserving
        cases s.state <;> simp [SessionState.assignable, SessionState.hardCap]
    rw [← Option.some.inj hrow]
    exact h.sessions s hs hcap a ha
  · cases hrow

theorem OnlyRoute.groupsWithin {route : Route} (h : OnlyRoute settings inputs db account route) :
    GroupsWithin cfg inputs account
      ((startDemand svc cfg settings now inputs db).strictOf account) := by
  intro ks hnodup hks
  let strict := (strictProjectCountsByRouteGroup inputs.demandEntries).mapWith fun rg projects ↦
    sessionsFor cfg.projectsPerSession rg.group projects
  have hstrict : (startDemand svc cfg settings now inputs db).strictOf account =
      Counter.sumWhere (·.account = account) strict.entries := by
    rw [strictOf_startDemand, sumWhere_strictStarts_all _ (h.records _ _)]
    exact Counter.sumWhere_perm ((sortBy_perm _ _).map _)
  have hsame : ∀ key ∈ ks, (groupDemand cfg.projectsPerSession inputs.demandEntries).get key =
      strict.get ⟨route, key.2⟩ := by
    intro key hkey
    have haccount : key.1 = account := of_decide_eq_true (hks key hkey)
    rw [get_groupDemand]
    refine Eq.symm ((Counter.get_mapWith (f := fun (rg : RouteGroup) projects ↦
      sessionsFor cfg.projectsPerSession rg.group projects) (sessionsFor_zero _ _)).trans ?_)
    rw [strictProjectCountsByRouteGroup, get_countEach, strictEntries, List.countP_map,
      List.countP_filter]
    refine congrArg _ (List.countP_congr fun e he ↦ ?_)
    have hbound := h.bound e he
    simp only [Function.comp_apply, Bool.and_eq_true, decide_eq_true_eq, bne_iff_ne]
    constructor
    · rintro ⟨hgroup, hactionable, -⟩
      refine ⟨hactionable, Prod.ext ?_ (congrArg RouteGroup.group hgroup)⟩
      exact (congrArg (·.account) hgroup).trans (h.ofAccount.trans haccount.symm)
    · rintro ⟨hactionable, rfl⟩
      obtain ⟨hnode, hroute⟩ := hbound hactionable haccount
      exact ⟨by rw [← hroute]; rfl, hactionable, hnode⟩
  rw [hstrict, List.map_congr_left hsame]
  have hinjective : (ks.map fun key ↦ (⟨route, key.2⟩ : RouteGroup)).Nodup := by
    refine hnodup.map_on fun key hkey key' hkey' heq ↦ ?_
    have haccount := (of_decide_eq_true (hks key hkey)).trans
      (of_decide_eq_true (hks key' hkey')).symm
    exact Prod.ext haccount (congrArg RouteGroup.group heq)
  have hsum := strict.sum_get_le (p := fun rg ↦ decide (rg.account = account)) hinjective
    (fun rg hrg ↦ by
      obtain ⟨key, -, rfl⟩ := List.mem_map.mp hrg
      exact decide_eq_true h.ofAccount)
  rw [List.map_map] at hsum
  exact hsum

/-- The generic loop has nothing to place for such an account. -/
theorem OnlyRoute.limitedGeneric {route : Route} {excluded : List String}
    (h : OnlyRoute settings inputs db account route) (haccount : account ∉ excluded) :
    (limitStarts excluded (globalStartBudget settings db)
      (startDemand svc cfg settings now inputs db)).limitedGeneric.get account = 0 := by
  have hneeded := startNeeded_le svc cfg settings now inputs db account
    (@OnlyRoute.groupsWithin svc cfg settings now inputs db account route h)
  have hgeneric := @limitedGeneric_le excluded (globalStartBudget settings db) _ account
    (distinct_startNeeded svc cfg settings now inputs db) haccount
  have hspares := h.spares
  refine Nat.le_zero.mp ((Counter.get_le_sumWhere _ _).trans (hgeneric.trans ?_))
  omega

end Demand

end SlurmScheduler.Pool
