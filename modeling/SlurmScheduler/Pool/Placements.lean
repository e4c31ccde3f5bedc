import SlurmScheduler.Pool.StartNeeds
import SlurmScheduler.Relational.Filling

namespace SlurmScheduler.Pool

open Relational

def sessionsIn (cfg : AedtPoolConfig) (settings : ScaleSettings) (cpus memoryMb : ℕ) : ℕ :=
  min (cpus / max 1 (1 + cfg.projectCpus * cfg.projectsPerSession))
    (memoryMb / max 1024 (settings.projectMemoryMb * cfg.projectsPerSession))

namespace Resources

variable (cfg : AedtPoolConfig) (settings : ScaleSettings) (r : Resources)

def freeSessions : ℕ :=
  sessionsIn cfg settings (r.freeCpus.getD r.totalCpus) (r.freeMemoryMb.getD r.totalMemoryMb)

def totalSessions : ℕ := sessionsIn cfg settings r.totalCpus r.totalMemoryMb

/-- Of what an allocation takes beside `n` sessions, only the totals depend on `n`. -/
theorem capacity_sub (n : ℕ) : allocationSessionCapacity cfg settings r n - n =
    min (r.freeSessions cfg settings) (r.totalSessions cfg settings - n) := by
  unfold allocationSessionCapacity freeSessions totalSessions sessionsIn
  dsimp only
  generalize r.totalCpus / _ = totalByCpus, r.totalMemoryMb / _ = totalByMemory,
    r.freeCpus.getD _ / _ = freeByCpus, r.freeMemoryMb.getD _ / _ = freeByMemory
  omega

end Resources

section Visits

variable (free : Counter ℕ → Allocation → ℕ)

def routeVisits (fits : Allocation → Bool) (route : Route) :
    List Allocation → ℕ → Placing → List (ℕ × ℕ)
  | [], _, _ => []
  | a :: rest, need, st =>
      if need = 0 then [] else
      if !fits a then routeVisits fits route rest need st else
      let granted := min (free st.planned a) need
      (a.id, need) :: routeVisits fits route rest (need - granted)
        (st.put a route.account route.nodeName granted)

def routesVisits (fits : Route → Allocation → Bool) (allocations : List Allocation) :
    List (Route × ℕ) → Placing → List (ℕ × ℕ)
  | [], _ => []
  | e :: routes, st =>
      routeVisits free (fits e.1) e.1 allocations e.2 st ++
        routesVisits fits allocations routes (placeRoute free (fits e.1) e.1 allocations e.2 st).2

def genericVisits : List Allocation → Counter String → Placing → List (ℕ × ℕ)
  | [], _, _ => []
  | a :: rest, remaining, st =>
      let need := remaining.get a.accountName
      if need = 0 then genericVisits rest remaining st else
      let granted := min (free st.planned a) need
      (a.id, need) :: genericVisits rest (remaining.put a.accountName (need - granted))
        (st.put a a.accountName a.nodeName granted)

end Visits

def placedOn (aid : ℕ) (ps : List Placement) : ℕ := ps.countP (·.allocationId == aid)

/-- `planned_sessions_by_allocation` counts the placements. -/
def Placing.Counted (st : Placing) : Prop := ∀ aid, placedOn aid st.placements = st.planned.get aid

section Loops

variable (freeOf totalOf : ℕ → ℕ) {free : Counter ℕ → Allocation → ℕ}

theorem Placing.put_planned (st : Placing) (a : Allocation) (account nodeName : String)
    (granted aid : ℕ) : (st.put a account nodeName granted).planned.get aid =
      st.planned.get aid + if a.id = aid then granted else 0 := by
  unfold Placing.put
  split
  · rename_i hnone
    rw [hnone, ite_self, Nat.add_zero]
  · exact Counter.get_add

theorem Placing.Counted.put {st : Placing} (h : st.Counted) (a : Allocation)
    (account nodeName : String) (granted : ℕ) : (st.put a account nodeName granted).Counted := by
  intro aid
  rw [Placing.put_placements, Placing.put_planned, ← h aid, placedOn, List.countP_append,
    List.countP_replicate]
  simp [placedOn]

theorem planned_visit (hfree : ∀ planned a, free planned a =
      min (freeOf a.id) (totalOf a.id - planned.get a.id))
    (st : Placing) (a : Allocation) (account nodeName : String) (need : ℕ) :
    (st.put a account nodeName (min (free st.planned a) need)).planned.get =
      fill freeOf totalOf st.planned.get (a.id, need) := by
  funext aid
  rw [Placing.put_planned, hfree, fill]
  by_cases haid : a.id = aid
  · subst haid
    rw [if_pos rfl, Function.update_self]
  · rw [if_neg haid, Nat.add_zero, Function.update_of_ne (Ne.symm haid)]

variable (hfree : ∀ planned a, free planned a =
  min (freeOf a.id) (totalOf a.id - planned.get a.id))

include hfree

theorem placeRoute_fills (fits : Allocation → Bool) (route : Route) (allocations : List Allocation)
    (need : ℕ) (st : Placing) :
    (placeRoute free fits route allocations need st).2.planned.get =
        (routeVisits free fits route allocations need st).foldl (fill freeOf totalOf)
          st.planned.get ∧
      (st.Counted → (placeRoute free fits route allocations need st).2.Counted) := by
  induction allocations generalizing need st with
  | nil => exact ⟨rfl, id⟩
  | cons a rest ih =>
      rw [placeRoute, routeVisits]
      split
      · exact ⟨rfl, id⟩
      split
      · exact ih need st
      · obtain ⟨hplanned, hcounted⟩ := ih (need - min (free st.planned a) need)
          (st.put a route.account route.nodeName (min (free st.planned a) need))
        refine ⟨?_, fun h ↦ hcounted (h.put a _ _ _)⟩
        rw [List.foldl_cons, ← planned_visit freeOf totalOf hfree st a route.account route.nodeName]
        exact hplanned

theorem placeRoutes_fills (fits : Route → Allocation → Bool) (allocations : List Allocation)
    (routes : List (Route × ℕ)) (st : Placing) :
    (placeRoutes free fits allocations routes st).planned.get =
        (routesVisits free fits allocations routes st).foldl (fill freeOf totalOf)
          st.planned.get ∧
      (st.Counted → (placeRoutes free fits allocations routes st).Counted) := by
  induction routes generalizing st with
  | nil => exact ⟨rfl, id⟩
  | cons e routes ih =>
      obtain ⟨hfirst, hcounts⟩ :=
        placeRoute_fills freeOf totalOf hfree (fits e.1) e.1 allocations e.2 st
      obtain ⟨hrest, hcounted⟩ := ih (placeRoute free (fits e.1) e.1 allocations e.2 st).2
      rw [routesVisits, List.foldl_append, ← hfirst]
      exact ⟨hrest, fun h ↦ hcounted (hcounts h)⟩

theorem placeGeneric_fills (allocations : List Allocation) (remaining : Counter String)
    (st : Placing) :
    (placeGeneric free allocations remaining st).planned.get =
        (genericVisits free allocations remaining st).foldl (fill freeOf totalOf)
          st.planned.get ∧
      (st.Counted → (placeGeneric free allocations remaining st).Counted) := by
  induction allocations generalizing remaining st with
  | nil => exact ⟨rfl, id⟩
  | cons a rest ih =>
      rw [placeGeneric, genericVisits]
      dsimp only
      split
      · exact ih remaining st
      · obtain ⟨hplanned, hcounted⟩ := ih
          (remaining.put a.accountName (remaining.get a.accountName -
            min (free st.planned a) (remaining.get a.accountName)))
          (st.put a a.accountName a.nodeName
            (min (free st.planned a) (remaining.get a.accountName)))
        refine ⟨?_, fun h ↦ hcounted (h.put a _ _ _)⟩
        rw [List.foldl_cons, ← planned_visit freeOf totalOf hfree st a a.accountName a.nodeName]
        exact hplanned

end Loops

section Visitors

variable {free : Counter ℕ → Allocation → ℕ}

theorem routeVisits_keys (fits : Allocation → Bool) (route : Route) (allocations : List Allocation)
    (need : ℕ) (st : Placing) : ((routeVisits free fits route allocations need st).map (·.1)).Sublist
      ((allocations.filter fits).map (·.id)) := by
  induction allocations generalizing need st with
  | nil => exact .slnil
  | cons a rest ih =>
      rw [routeVisits]
      split
      · exact List.nil_sublist _
      split
      · rename_i hfits
        rw [List.filter_cons_of_neg (by simpa using hfits)]
        exact ih _ _
      · rename_i hfits
        rw [List.filter_cons_of_pos (by simpa using hfits), List.map_cons]
        exact (ih _ _).cons_cons _

theorem genericVisits_keys {p : Allocation → Bool} (allocations : List Allocation)
    {remaining : Counter String} (hp : ∀ a, p a = false → remaining.get a.accountName = 0)
    (st : Placing) : ((genericVisits free allocations remaining st).map (·.1)).Sublist
      ((allocations.filter p).map (·.id)) := by
  induction allocations generalizing remaining st with
  | nil => exact .slnil
  | cons a rest ih =>
      rw [genericVisits]
      dsimp only
      split
      · exact (ih hp st).trans ((((List.sublist_cons_self a rest).filter p)).map _)
      · rename_i hneed
        have hpa : p a = true := by
          by_contra hnot
          exact hneed (hp a (Bool.not_eq_true _ ▸ hnot))
        rw [List.filter_cons_of_pos hpa, List.map_cons]
        refine (ih (fun b hb ↦ ?_) _).cons_cons _
        rw [Counter.get_put]
        split
        · rename_i hsame
          exact absurd (hsame ▸ hp b hb) hneed
        · exact hp b hb

variable {allocations : List Allocation} {a : Allocation}

theorem count_visits_le (hnodup : (allocations.map (·.id)).Nodup)
    (hself : ∀ b ∈ allocations, b.id = a.id → b = a) {p : Allocation → Bool} {keys : List ℕ}
    (h : keys.Sublist ((allocations.filter p).map (·.id))) :
    keys.count a.id ≤ if p a = true then 1 else 0 := by
  refine (h.count_le a.id).trans ?_
  split
  · exact List.nodup_iff_count_le_one.mp (hnodup.sublist (List.filter_sublist.map _)) a.id
  · rename_i hnot
    refine le_of_eq (List.count_eq_zero.mpr fun hmem ↦ ?_)
    obtain ⟨b, hb, hid⟩ := List.mem_map.mp hmem
    obtain ⟨hb, hpb⟩ := List.mem_filter.mp hb
    exact hnot (hself b hb hid ▸ hpb)

theorem count_routesVisits_le (hnodup : (allocations.map (·.id)).Nodup)
    (hself : ∀ b ∈ allocations, b.id = a.id → b = a) (fits : Route → Allocation → Bool)
    (routes : List (Route × ℕ)) (st : Placing) :
    ((routesVisits free fits allocations routes st).map (·.1)).count a.id ≤
      routes.countP fun e ↦ fits e.1 a := by
  induction routes generalizing st with
  | nil => exact le_rfl
  | cons e routes ih =>
      rw [routesVisits, List.map_append, List.count_append, List.countP_cons, Nat.add_comm]
      exact Nat.add_le_add (ih _)
        (count_visits_le hnodup hself (routeVisits_keys (fits e.1) e.1 allocations e.2 st))

theorem length_needsAt (k : ℕ) (visits : List (ℕ × ℕ)) :
    (needsAt k visits).length = (visits.map (·.1)).count k := by
  rw [needsAt, List.length_map, List.count, List.countP_map, List.countP_eq_length_filter]
  rfl

theorem sum_min_le {needs : List ℕ} (h : needs.length ≤ 1) (n : ℕ) :
    (needs.map (min n)).sum ≤ n := by
  match needs with
  | [] => exact Nat.zero_le _
  | [need] => simp
  | _ :: _ :: _ => simp at h

end Visitors

section Plan

variable (svc : Service) (cfg : AedtPoolConfig) (settings : ScaleSettings) (now : Time)
  (inputs : PlanInputs) (excluded : List String) (db : Db)

def planVisits : List (ℕ × ℕ) :=
  let b := limitStarts excluded (globalStartBudget settings db)
    (startDemand svc cfg settings now inputs db)
  let free (planned : Counter ℕ) (a : Allocation) : ℕ :=
    let current := db.currentSessions a.id + planned.get a.id
    allocationSessionCapacity cfg settings (inputs.resources a.id) current - current
  let fits (route : Route) (a : Allocation) : Bool :=
    a.accountName == route.account && a.nodeName == route.nodeName &&
      partitionSpecAllows svc route.partition a.partition
  let allocations := db.orderedAllocations svc excluded
  let routes := sortBy (·.1.order) b.limitedStrict
  routesVisits free fits allocations routes {} ++
    genericVisits free allocations b.limitedGeneric (placeRoutes free fits allocations routes {})

/-- What the plan puts on an allocation fits what it has free and, with the sessions that it has,
into its totals. -/
def PlacementsFit (aid : ℕ) : Prop :=
  placedOn aid (planStarts svc cfg settings now inputs excluded db).placements ≤
      (inputs.resources aid).freeSessions cfg settings ∧
    db.currentSessions aid +
        placedOn aid (planStarts svc cfg settings now inputs excluded db).placements ≤
      (inputs.resources aid).totalSessions cfg settings

def roomFor (aid : ℕ) : ℕ :=
  (inputs.resources aid).totalSessions cfg settings - db.currentSessions aid

/-- The needs that come to an allocation, cut off at what it has free, add up to no more than that;
or its totals leave no more than that. -/
def VisitsFit (aid : ℕ) : Prop :=
  let freeSessions := (inputs.resources aid).freeSessions cfg settings
  roomFor cfg settings inputs db aid ≤ freeSessions ∨
    ((needsAt aid (planVisits svc cfg settings now inputs excluded db)).map
      (min freeSessions)).sum ≤ freeSessions

/-- The placements of a plan, counted for each allocation. -/
theorem placedOn_planStarts (aid : ℕ) :
    placedOn aid (planStarts svc cfg settings now inputs excluded db).placements =
      (planVisits svc cfg settings now inputs excluded db).foldl
        (fill (fun aid ↦ (inputs.resources aid).freeSessions cfg settings)
          (roomFor cfg settings inputs db)) (fun _ ↦ 0) aid := by
  have hfree (planned : Counter ℕ) (a : Allocation) :
      allocationSessionCapacity cfg settings (inputs.resources a.id)
            (db.currentSessions a.id + planned.get a.id) -
          (db.currentSessions a.id + planned.get a.id) =
        min ((inputs.resources a.id).freeSessions cfg settings)
          (roomFor cfg settings inputs db a.id - planned.get a.id) := by
    rw [Resources.capacity_sub, roomFor, Nat.sub_sub]
  unfold planStarts placeStarts planVisits
  dsimp only
  set free : Counter ℕ → Allocation → ℕ := fun planned a ↦
    allocationSessionCapacity cfg settings (inputs.resources a.id)
        (db.currentSessions a.id + planned.get a.id) -
      (db.currentSessions a.id + planned.get a.id)
  set fits : Route → Allocation → Bool := fun route a ↦
    a.accountName == route.account && a.nodeName == route.nodeName &&
      partitionSpecAllows svc route.partition a.partition
  set b := limitStarts excluded (globalStartBudget settings db)
    (startDemand svc cfg settings now inputs db)
  set allocations := db.orderedAllocations svc excluded
  set routes := sortBy (·.1.order) b.limitedStrict
  set freeOf : ℕ → ℕ := fun aid ↦ (inputs.resources aid).freeSessions cfg settings
  set totalOf := roomFor cfg settings inputs db
  obtain ⟨hstrict, hstrictCounted⟩ :=
    placeRoutes_fills freeOf totalOf hfree fits allocations routes {}
  obtain ⟨hgeneric, hcounted⟩ := placeGeneric_fills freeOf totalOf hfree allocations
    b.limitedGeneric (placeRoutes free fits allocations routes {})
  rw [hcounted (hstrictCounted fun _ ↦ rfl) aid, hgeneric, hstrict, ← List.foldl_append]
  rfl

theorem placed_le_free_iff (aid : ℕ) :
    placedOn aid (planStarts svc cfg settings now inputs excluded db).placements ≤
      (inputs.resources aid).freeSessions cfg settings ↔
        VisitsFit svc cfg settings now inputs excluded db aid := by
  rw [placedOn_planStarts]
  exact filled_le_free_iff _ _ _ aid

def DemandEntry.boundTo (e : DemandEntry) (a : Allocation) : Bool :=
  e.actionableRoute && e.strictNode != "" && (a.accountName == e.account &&
    a.nodeName == e.strictNode && partitionSpecAllows svc e.strictPartition a.partition)

/-- What is free of an allocation cannot be spent twice: its totals leave no more than it has free,
no project is bound to its node, its account has no more projects and spares than it has free, or
all that its account has is the projects of one route. -/
inductive SpentOnce (a : Allocation) : Prop
  | noShortage (h : roomFor cfg settings inputs db a.id ≤
      (inputs.resources a.id).freeSessions cfg settings)
  | noRoute (h : ∀ e ∈ inputs.demandEntries, e.boundTo svc a = false)
  | fewProjects (h : projectsOf a.accountName inputs.demandEntries + settings.minIdleSessions ≤
      (inputs.resources a.id).freeSessions cfg settings)
  | onlyRoute (route : Route) (h : OnlyRoute settings inputs db a.accountName route)

variable {svc cfg settings now inputs excluded db}

theorem orderedAllocations_nodup :
    ((db.orderedAllocations svc excluded).map (·.id)).Nodup := by
  have hrows : (db.allocations.rows.map (·.id)).Nodup := db.allocations.ordered.imp ne_of_lt
  have hselected : ((db.allocations.select (·.state.serving)).reverse.map (·.id)).Nodup := by
    rw [List.map_reverse, List.nodup_reverse]
    exact hrows.sublist (List.filter_sublist.map _)
  refine ((sortBy_perm _ _).map _).nodup_iff.mpr (hselected.sublist (List.Sublist.map _ ?_))
  exact ((List.filter_sublist.trans List.filter_sublist).trans List.filter_sublist).trans
    (List.take_sublist _ _)

theorem mem_orderedAllocations {a : Allocation} (h : a ∈ db.orderedAllocations svc excluded) :
    a ∈ db.allocations := by
  rw [Db.orderedAllocations, mem_sortBy] at h
  have hselected := List.mem_of_mem_take
    (List.mem_of_mem_filter (List.mem_of_mem_filter (List.mem_of_mem_filter h)))
  exact (Table.mem_select.mp (List.mem_reverse.mp hselected)).1

/-- What is free is not spent twice where one loop at most comes to the allocation. -/
theorem visitsFit_of_count {aid : ℕ}
    (h : ((planVisits svc cfg settings now inputs excluded db).map (·.1)).count aid ≤ 1) :
    VisitsFit svc cfg settings now inputs excluded db aid :=
  .inr (sum_min_le ((length_needsAt _ _).trans_le h) _)

/-- A granted route comes to the allocations that fit it, and the generic loop to those of the
accounts that are granted starts beyond their routes. -/
theorem count_planVisits_le {a : Allocation} (ha : a ∈ db.allocations) :
    let b := limitStarts excluded (globalStartBudget settings db)
      (startDemand svc cfg settings now inputs db)
    ((planVisits svc cfg settings now inputs excluded db).map (·.1)).count a.id ≤
      b.limitedStrict.countP (fun e ↦ a.accountName == e.1.account &&
        a.nodeName == e.1.nodeName && partitionSpecAllows svc e.1.partition a.partition) +
      if b.limitedGeneric.get a.accountName = 0 then 0 else 1 := by
  intro b
  have hself : ∀ c ∈ db.orderedAllocations svc excluded, c.id = a.id → c = a :=
    fun c hc hid ↦ Table.eq_of_key_eq (mem_orderedAllocations hc) ha hid
  unfold planVisits
  dsimp only
  rw [List.map_append, List.count_append]
  refine Nat.add_le_add ?_ ?_
  · refine (count_routesVisits_le orderedAllocations_nodup hself _ _ _).trans (le_of_eq ?_)
    exact (sortBy_perm (fun e : Route × ℕ ↦ e.1.order) b.limitedStrict).countP_eq _
  · refine (count_visits_le orderedAllocations_nodup hself (genericVisits_keys
      (p := fun c ↦ b.limitedGeneric.get c.accountName != 0) _ (fun c hc ↦ ?_) _)).trans ?_
    · simpa using hc
    · split <;> simp_all

/-- No route comes to an allocation to whose node no project is bound. -/
theorem countP_routes_eq_zero {a : Allocation}
    (h : ∀ e ∈ inputs.demandEntries, e.boundTo svc a = false) {budget : ℕ} :
    (limitStarts excluded budget (startDemand svc cfg settings now inputs db)).limitedStrict.countP
      (fun e ↦ a.accountName == e.1.account && a.nodeName == e.1.nodeName &&
        partitionSpecAllows svc e.1.partition a.partition) = 0 := by
  rw [List.countP_eq_zero]
  intro e he hfits
  obtain ⟨project, hproject, hactionable, hnode, hroute⟩ := mem_limitedStrict he
  rw [← hroute] at hfits
  refine Bool.eq_false_iff.mp (h project hproject) ?_
  rw [DemandEntry.boundTo, hactionable, Bool.true_and, Bool.and_eq_true, bne_iff_ne]
  exact ⟨hnode, hfits⟩

/-- One route at most comes to an allocation of an account that has no other. -/
theorem OnlyRoute.countP_le {a : Allocation} {route : Route}
    (h : OnlyRoute settings inputs db a.accountName route) {budget : ℕ} :
    (limitStarts excluded budget (startDemand svc cfg settings now inputs db)).limitedStrict.countP
      (fun e ↦ a.accountName == e.1.account && a.nodeName == e.1.nodeName &&
        partitionSpecAllows svc e.1.partition a.partition) ≤ 1 := by
  refine le_trans ?_ (List.nodup_iff_count_le_one.mp (@nodup_limitedStrict svc cfg
    settings now inputs db excluded budget) route)
  rw [List.count, List.countP_map]
  refine List.countP_mono_left fun e he hfits ↦ ?_
  obtain ⟨project, hproject, hactionable, -, hroute⟩ := mem_limitedStrict he
  simp only [Bool.and_eq_true, beq_iff_eq] at hfits
  have haccount : project.account = a.accountName :=
    (congrArg Route.account hroute).trans hfits.1.1.symm
  rw [Function.comp_apply, beq_iff_eq, ← hroute]
  exact (h.bound project hproject hactionable haccount).2

theorem placedOn_le_placedFor {a : Allocation} (ha : a ∈ db.allocations) :
    placedOn a.id (planStarts svc cfg settings now inputs excluded db).placements ≤
      placedFor a.accountName (planStarts svc cfg settings now inputs excluded db).placements := by
  refine List.countP_mono_left fun p hp hid ↦ ?_
  obtain ⟨c, hc, hcid, haccount⟩ :=
    (planStarts_fit svc cfg settings now inputs excluded db).2.2 p hp
  have hsame : c = a := Table.eq_of_key_eq (mem_orderedAllocations hc) ha
    (hcid.symm.trans (beq_iff_eq.mp hid))
  rw [haccount, hsame, beq_iff_eq]

/-- What is free is not overspent where it cannot be spent twice. -/
theorem SpentOnce.placed_le_free {a : Allocation} (ha : a ∈ db.allocations)
    (h : SpentOnce svc cfg settings inputs db a) :
    placedOn a.id (planStarts svc cfg settings now inputs excluded db).placements ≤
      (inputs.resources a.id).freeSessions cfg settings := by
  by_cases hexcluded : a.accountName ∈ excluded
  · have hnone : placedOn a.id
        (planStarts svc cfg settings now inputs excluded db).placements = 0 := by
      refine List.countP_eq_zero.mpr fun p hp hid ↦ ?_
      obtain ⟨c, hc, hcid, -⟩ := (planStarts_fit svc cfg settings now inputs excluded db).2.2 p hp
      have hsame : c = a := Table.eq_of_key_eq (mem_orderedAllocations hc) ha
        (hcid.symm.trans (beq_iff_eq.mp hid))
      exact orderedAllocations_eligible hc (hsame ▸ hexcluded)
    rw [hnone]
    exact Nat.zero_le _
  have hvisits := @count_planVisits_le svc cfg settings now inputs excluded db a ha
  cases h with
  | noShortage h => exact (placed_le_free_iff _ _ _ _ _ _ _ _).mpr (.inl h)
  | noRoute h =>
      refine (placed_le_free_iff _ _ _ _ _ _ _ _).mpr (visitsFit_of_count (hvisits.trans ?_))
      rw [countP_routes_eq_zero h]
      split <;> omega
  | fewProjects h =>
      calc placedOn a.id (planStarts svc cfg settings now inputs excluded db).placements
          ≤ placedFor a.accountName
              (planStarts svc cfg settings now inputs excluded db).placements :=
            placedOn_le_placedFor ha
        _ ≤ (planStarts svc cfg settings now inputs excluded db).startNeededByAccount.get
              a.accountName := (planStarts_fit svc cfg settings now inputs excluded db).2.1 _
        _ ≤ projectsOf a.accountName inputs.demandEntries + settings.minIdleSessions :=
            plan_starts_le svc cfg settings now inputs db a.accountName hexcluded
        _ ≤ (inputs.resources a.id).freeSessions cfg settings := h
  | onlyRoute route h =>
      refine (placed_le_free_iff _ _ _ _ _ _ _ _).mpr (visitsFit_of_count (hvisits.trans ?_))
      rw [if_pos (h.limitedGeneric hexcluded), Nat.add_zero]
      exact h.countP_le

variable (svc cfg settings now inputs excluded db)

end Plan

def halfFree (demandEntries : List DemandEntry) : PlanInputs where
  demandEntries
  resources _ := { totalCpus := 18, totalMemoryMb := 131072, freeCpus := some 9
                   freeMemoryMb := some 65536 }

end SlurmScheduler.Pool
