import SlurmScheduler.Dispatch.Tasks
import SlurmScheduler.Relational.Rotation

namespace SlurmScheduler.Dispatch

open Relational

/-- `_non_fea_task_refresh_cursor_id`, `_fea_task_refresh_cursor_id` and
`_prefer_fea_for_single_task_refresh` -/
structure RefreshCursors where
  nonFea : ℕ := 0
  fea : ℕ := 0
  preferFea : Bool := false
  deriving DecidableEq

/-- `sorted(tasks, key=lambda item: int(item.get("id") or 0))` -/
def sortById (tasks : List Task) : List Task := sortedBy (·.id) tasks

def refreshOrder (tasks : List Task) (fea : Bool) (cursor : ℕ) : List Task :=
  rotate (·.id) cursor (sortById (tasks.filter (·.isFeaBursty == fea)))

def feaQuota (limit : ℕ) : ℕ := max 1 (limit / 4)

/-- `non_fea_selected` and `fea_selected` -/
structure RefreshSelection where
  nonFea : List Task := []
  fea : List Task := []

def selectForRefresh (limit : ℕ) (preferFea : Bool) (nonFea fea : List Task) : RefreshSelection :=
  if nonFea.isEmpty then { fea := fea.take limit }
  else if fea.isEmpty then { nonFea := nonFea.take limit }
  else if limit = 1 then
    if preferFea then { fea := fea.take 1 } else { nonFea := nonFea.take 1 }
  else
    let nonFeaSelected := nonFea.take (limit - feaQuota limit)
    let feaSelected := fea.take (feaQuota limit)
    -- unused quota spills to the other class
    let remaining := limit - nonFeaSelected.length - feaSelected.length
    let nonFeaExtra := (nonFea.drop nonFeaSelected.length).take remaining
    let remaining := remaining - nonFeaExtra.length
    { nonFea := nonFeaSelected ++ nonFeaExtra
      fea := feaSelected ++ (fea.drop feaSelected.length).take remaining }

/-- `tasks_to_refresh`: the tasks to probe and the cursors after it. -/
def tasksToRefresh (limit : ℤ) (c : RefreshCursors) (tasks : List Task) :
    List Task × RefreshCursors :=
  if limit ≤ 0 then (sortById tasks, c) else
  let nonFea := refreshOrder tasks false c.nonFea
  let fea := refreshOrder tasks true c.fea
  let selected := selectForRefresh limit.toNat c.preferFea nonFea fea
  let single := limit = 1 && !nonFea.isEmpty && !fea.isEmpty
  (selected.nonFea ++ selected.fea,
    { nonFea := (selected.nonFea.getLast?.map (·.id)).getD c.nonFea
      fea := (selected.fea.getLast?.map (·.id)).getD c.fea
      preferFea := if single then !c.preferFea else c.preferFea })

def refreshes (limit : ℤ) : RefreshCursors → List (List Task) → List (List Task)
  | _, [] => []
  | c, tasks :: later =>
      let call := tasksToRefresh limit c tasks
      call.1 :: refreshes limit call.2 later

def places (limit : ℕ) (preferFea : Bool) (nonFea fea : ℕ) : ℕ × ℕ :=
  if nonFea = 0 then (0, limit) else if fea = 0 then (limit, 0)
  else if limit = 1 then if preferFea then (0, 1) else (1, 0)
  else (max (limit - feaQuota limit) (limit - fea), max (feaQuota limit) (limit - nonFea))

theorem feaQuota_pos (limit : ℕ) : 1 ≤ feaQuota limit := le_max_left ..

theorem feaQuota_le {limit : ℕ} (h : 1 ≤ limit) : feaQuota limit ≤ limit :=
  max_le h (Nat.div_le_self ..)

theorem take_append_take {α : Type} (l : List α) (i j : ℕ) :
    l.take i ++ (l.drop (l.take i).length).take j = l.take (min i l.length + j) := by
  rw [List.length_take, List.take_add, ← List.take_take, List.take_length]

theorem selectForRefresh_eq {limit : ℕ} (h : 1 ≤ limit) (preferFea : Bool)
    (nonFea fea : List Task) :
    selectForRefresh limit preferFea nonFea fea =
      { nonFea := nonFea.take (places limit preferFea nonFea.length fea.length).1
        fea := fea.take (places limit preferFea nonFea.length fea.length).2 } := by
  have hq := feaQuota_le h
  unfold selectForRefresh places
  simp only [List.isEmpty_iff, ← List.length_eq_zero_iff]
  split
  · simp
  split
  · simp
  split
  · cases preferFea <;> simp
  congr 1
  · rw [take_append_take, List.take_eq_take_iff]
    simp only [List.length_take]
    omega
  · rw [take_append_take, List.take_eq_take_iff]
    simp only [List.length_take, List.length_drop]
    omega

theorem places_total {limit : ℕ} (h : 1 ≤ limit) (preferFea : Bool) (nonFea fea : ℕ) :
    min (places limit preferFea nonFea fea).1 nonFea +
      min (places limit preferFea nonFea fea).2 fea = min limit (nonFea + fea) := by
  have hq := feaQuota_le h
  unfold places
  split
  · simp_all
  split
  · simp_all
  split
  · cases preferFea <;> simp <;> omega
  · simp only
    omega

section Call

variable {limit : ℕ} {c : RefreshCursors} {tasks tasks' : List Task} {t : Task}

def RefreshCursors.of (c : RefreshCursors) (fea : Bool) : ℕ := if fea then c.fea else c.nonFea

def classSize (tasks : List Task) (fea : Bool) : ℕ := tasks.countP (·.isFeaBursty == fea)

def classPlaces (limit : ℕ) (c : RefreshCursors) (tasks : List Task) (fea : Bool) : ℕ :=
  let p := places limit c.preferFea (classSize tasks false) (classSize tasks true)
  if fea then p.2 else p.1

def selectedOf (limit : ℕ) (c : RefreshCursors) (tasks : List Task) (fea : Bool) : List Task :=
  (refreshOrder tasks fea (c.of fea)).take (classPlaces limit c tasks fea)

theorem refreshOrder_perm (tasks : List Task) (fea : Bool) (cursor : ℕ) :
    (refreshOrder tasks fea cursor).Perm (tasks.filter (·.isFeaBursty == fea)) :=
  (rotate_perm ..).trans (sortedBy_perm _)

@[simp] theorem length_refreshOrder (tasks : List Task) (fea : Bool) (cursor : ℕ) :
    (refreshOrder tasks fea cursor).length = classSize tasks fea := by
  rw [(refreshOrder_perm tasks fea cursor).length_eq, classSize, List.countP_eq_length_filter]

theorem classSize_add (tasks : List Task) :
    classSize tasks false + classSize tasks true = tasks.length := by
  have h := List.length_eq_countP_add_countP (fun t : Task ↦ t.isFeaBursty) (l := tasks)
  simp only [classSize, beq_false, beq_true]
  simp only [Bool.not_eq_true, Bool.decide_eq_false] at h
  omega

theorem tasksToRefresh_eq (h : 1 ≤ limit) (c : RefreshCursors) (tasks : List Task) :
    (tasksToRefresh limit c tasks).1 =
      selectedOf limit c tasks false ++ selectedOf limit c tasks true := by
  rw [tasksToRefresh, if_neg (by omega), Int.toNat_natCast]
  simp only [selectForRefresh_eq h, length_refreshOrder]
  rfl

theorem cursor_tasksToRefresh (h : 1 ≤ limit) (c : RefreshCursors) (tasks : List Task) (fea : Bool) :
    (tasksToRefresh limit c tasks).2.of fea =
      ((selectedOf limit c tasks fea).getLast?.map (·.id)).getD (c.of fea) := by
  rw [tasksToRefresh, if_neg (by omega), Int.toNat_natCast]
  simp only [selectForRefresh_eq h, length_refreshOrder]
  cases fea <;> rfl

theorem preferFea_tasksToRefresh (h : 1 ≤ limit) (c : RefreshCursors) (tasks : List Task) :
    (tasksToRefresh limit c tasks).2.preferFea =
      if limit = 1 ∧ classSize tasks false ≠ 0 ∧ classSize tasks true ≠ 0 then !c.preferFea
      else c.preferFea := by
  rw [tasksToRefresh, if_neg (by omega), Int.toNat_natCast]
  have hempty (fea : Bool) (cursor : ℕ) :
      (refreshOrder tasks fea cursor).isEmpty = decide (classSize tasks fea = 0) := by
    rw [← length_refreshOrder tasks fea cursor, Bool.eq_iff_iff]
    simp [List.isEmpty_iff, ← List.length_eq_zero_iff]
  simp only [hempty]
  by_cases hl : limit = 1 <;> simp [hl]

theorem mem_selectedOf {fea : Bool} (h : t ∈ selectedOf limit c tasks fea) :
    t ∈ tasks ∧ t.isFeaBursty = fea := by
  have hmem := (refreshOrder_perm tasks fea (c.of fea)).mem_iff.mp (List.mem_of_mem_take h)
  simpa using hmem

theorem length_selectedOf (fea : Bool) :
    (selectedOf limit c tasks fea).length = min (classPlaces limit c tasks fea) (classSize tasks fea) := by
  rw [selectedOf, List.length_take, length_refreshOrder]

theorem length_tasksToRefresh (h : 1 ≤ limit) :
    (tasksToRefresh limit c tasks).1.length = min limit tasks.length := by
  rw [tasksToRefresh_eq h, List.length_append, length_selectedOf, length_selectedOf,
    ← classSize_add tasks]
  exact places_total h ..

theorem nodup_tasksToRefresh (h : 1 ≤ limit) (hnodup : (tasks.map (·.id)).Nodup) :
    ((tasksToRefresh limit c tasks).1.map (·.id)).Nodup := by
  have hclass (fea : Bool) : ((selectedOf limit c tasks fea).map (·.id)).Nodup := by
    refine List.Nodup.sublist ((List.take_sublist ..).map _) ?_
    rw [((refreshOrder_perm tasks fea (c.of fea)).map _).nodup_iff]
    exact hnodup.sublist (List.filter_sublist.map _)
  rw [tasksToRefresh_eq h, List.map_append, List.nodup_append]
  refine ⟨hclass false, hclass true, fun i hi j hj hij ↦ ?_⟩
  obtain ⟨t, ht, rfl⟩ := List.mem_map.mp hi
  obtain ⟨u, hu, rfl⟩ := List.mem_map.mp hj
  obtain ⟨ht, hfalse⟩ := mem_selectedOf ht
  obtain ⟨hu, htrue⟩ := mem_selectedOf hu
  rw [List.inj_on_of_nodup_map hnodup ht hu hij, htrue] at hfalse
  cases hfalse

def Task.refreshKey (t : Task) : ℕ × Bool := (t.id, t.isFeaBursty)

def waitingFor (c : RefreshCursors) (tasks : List Task) (t : Task) : ℕ :=
  tasks.countP fun u ↦ u.isFeaBursty == t.isFeaBursty && Ahead (c.of t.isFeaBursty) u.id t.id

theorem waitingFor_eq (c : RefreshCursors) (tasks : List Task) (t : Task) :
    waitingFor c tasks t = waiting (·.id) (c.of t.isFeaBursty)
      (sortedBy (·.id) (tasks.filter (·.isFeaBursty == t.isFeaBursty))) t.id := by
  rw [waiting, (sortedBy_perm _).countP_eq, List.countP_filter]
  exact List.countP_congr fun u _ ↦ by simp [Bool.and_comm]

theorem waitingFor_lt (ht : t ∈ tasks) : waitingFor c tasks t < tasks.length := by
  refine List.countP_lt_length_iff.mpr ⟨t, ht, ?_⟩
  simpa using Ahead.irrefl

/-- A task that is not selected moves up by the places of its class. -/
theorem waitingFor_missed (h : 1 ≤ limit) (hnodup : (tasks.map (·.id)).Nodup) (ht : t ∈ tasks)
    (hmissed : t ∉ (tasksToRefresh limit c tasks).1) :
    waitingFor (tasksToRefresh limit c tasks).2 tasks t + classPlaces limit c tasks t.isFeaBursty ≤
      waitingFor c tasks t := by
  rw [waitingFor_eq, waitingFor_eq, cursor_tasksToRefresh h]
  have hnot : t ∉ selectedOf limit c tasks t.isFeaBursty := by
    intro hmem
    refine hmissed ?_
    rw [tasksToRefresh_eq h, List.mem_append]
    cases hfea : t.isFeaBursty
    · exact .inl (hfea ▸ hmem)
    · exact .inr (hfea ▸ hmem)
  rw [selectedOf] at hnot ⊢
  cases hplaces : classPlaces limit c tasks t.isFeaBursty with
  | zero => simp
  | succ m =>
      rw [hplaces] at hnot
      set order := refreshOrder tasks t.isFeaBursty (c.of t.isFeaBursty) with horder
      have hmem : t ∈ order := (refreshOrder_perm ..).mem_iff.mpr (by simp [ht])
      rw [← List.take_append_drop (m + 1) order, List.mem_append] at hmem
      have hdrop := hmem.resolve_left hnot
      have hlength : m < order.length := by
        have := List.length_pos_of_mem hdrop
        rw [List.length_drop] at this
        omega
      have hsplit : order = order.take m ++ order[m] :: order.drop (m + 1) := by
        rw [← List.drop_eq_getElem_cons hlength, List.take_append_drop]
      have hlast : (order.take (m + 1)).getLast? = some order[m] := by
        rw [List.take_succ_eq_append_getElem hlength, List.getLast?_append_cons]
        rfl
      have hsorted : (sortedBy (·.id) (tasks.filter (·.isFeaBursty == t.isFeaBursty))).Pairwise
          (·.id < ·.id) :=
        sortedBy_pairwise_lt (hnodup.sublist (List.filter_sublist.map _))
      have hmoved := waiting_take hsorted (horder.symm.trans hsplit) hdrop
      rw [hlast]
      rw [List.length_take, min_eq_left hlength.le] at hmoved
      exact hmoved

end Call

def Leaving : List (List Task) → Prop
  | [] => True
  | tasks :: later => (tasks.map (·.id)).Nodup ∧
      (∀ tasks' ∈ later.head?, tasks'.map (·.refreshKey) ⊆ tasks.map (·.refreshKey)) ∧ Leaving later

theorem waitingFor_leaving {c : RefreshCursors} {tasks tasks' : List Task} {t t' : Task}
    (hnodup : (tasks'.map (·.id)).Nodup)
    (hsub : tasks'.map (·.refreshKey) ⊆ tasks.map (·.refreshKey))
    (hkey : t'.refreshKey = t.refreshKey) : waitingFor c tasks' t' ≤ waitingFor c tasks t := by
  obtain ⟨hid, hfea⟩ : t'.id = t.id ∧ t'.isFeaBursty = t.isFeaBursty := Prod.mk.injEq .. ▸ hkey
  have hcount (l : List Task) (u : Task) : waitingFor c l u = (l.map (·.refreshKey)).countP
      fun k ↦ k.2 == u.isFeaBursty && Ahead (c.of u.isFeaBursty) k.1 u.id := by
    rw [waitingFor, List.countP_map]
    rfl
  have hkeys : (tasks'.map (·.refreshKey)).Nodup := by
    have : ((tasks'.map (·.refreshKey)).map Prod.fst).Nodup := by rw [List.map_map]; exact hnodup
    exact this.of_map
  rw [hcount, hcount, hid, hfea]
  exact (hkeys.subperm hsub).countP_le _

def turn (preferFea fea : Bool) : ℕ := if preferFea = fea then 0 else 1

/-- The calls that a task may wait, and a call more for the other class where they alternate. -/
def patience (limit : ℕ) (c : RefreshCursors) (tasks : List Task) (t : Task) : ℕ :=
  if limit = 1 then 2 * waitingFor c tasks t + turn c.preferFea t.isFeaBursty
  else waitingFor c tasks t

section Runs

variable {limit : ℕ} {c : RefreshCursors} {tasks tasks' : List Task} {t t' : Task}

theorem classSize_pos (ht : t ∈ tasks) : 0 < classSize tasks t.isFeaBursty :=
  List.countP_pos_iff.mpr ⟨t, ht, by simp⟩

theorem feaQuota_le_classPlaces (h : 2 ≤ limit) {fea : Bool} (hsize : 0 < classSize tasks fea) :
    feaQuota limit ≤ classPlaces limit c tasks fea := by
  have hq := feaQuota_le (show 1 ≤ limit by omega)
  have hhalf : feaQuota limit ≤ limit - feaQuota limit := by unfold feaQuota; omega
  unfold classPlaces places
  cases fea <;> simp only [Bool.false_eq_true, if_false, if_true] <;> split_ifs <;> omega

theorem turn_le {fea : Bool} (hsize : 0 < classSize tasks fea) :
    turn (tasksToRefresh (1 : ℕ) c tasks).2.preferFea fea + 1 ≤
      turn c.preferFea fea + 2 * classPlaces 1 c tasks fea := by
  rw [preferFea_tasksToRefresh le_rfl]
  unfold classPlaces places turn
  cases fea <;> cases c.preferFea <;> by_cases hn : classSize tasks false = 0 <;>
    by_cases hf : classSize tasks true = 0 <;> simp [hn, hf] at hsize ⊢

theorem patience_missed (h : 1 ≤ limit) (hleaving : Leaving [tasks, tasks']) (ht : t ∈ tasks)
    (hkey : t'.refreshKey = t.refreshKey) (hmissed : t ∉ (tasksToRefresh limit c tasks).1) :
    patience limit (tasksToRefresh limit c tasks).2 tasks' t' + feaQuota limit ≤
      patience limit c tasks t := by
  obtain ⟨hnodup, hsub, hnodup', -⟩ := hleaving
  have hwait := waitingFor_missed h hnodup ht hmissed
  have hleft := waitingFor_leaving (c := (tasksToRefresh limit c tasks).2) hnodup'
    (hsub tasks' rfl) hkey
  have hfea : t'.isFeaBursty = t.isFeaBursty := congrArg Prod.snd hkey
  unfold patience
  by_cases hone : limit = 1
  · subst hone
    have hturn := turn_le (c := c) (classSize_pos ht)
    rw [if_pos rfl, if_pos rfl, hfea, show feaQuota 1 = 1 from rfl]
    omega
  · have hplaces := feaQuota_le_classPlaces (c := c) (show 2 ≤ limit by omega) (classSize_pos ht)
    rw [if_neg hone, if_neg hone]
    omega

theorem patience_le (limit : ℕ) (c : RefreshCursors) (ht : t ∈ tasks) :
    patience limit c tasks t + 1 ≤ if limit = 1 then 2 * tasks.length else tasks.length := by
  have hwait := waitingFor_lt (c := c) ht
  have hturn : turn c.preferFea t.isFeaBursty ≤ 1 := by unfold turn; split <;> omega
  unfold patience
  split <;> omega

/-- While a task is there and is not selected, every call uses up some of its patience. -/
theorem patience_refreshes (h : 1 ≤ limit) (later : List (List Task))
    (hleaving : Leaving (tasks :: later)) (ht : t ∈ tasks)
    (hstays : ∀ tasks' ∈ later, ∃ t' ∈ tasks', t'.refreshKey = t.refreshKey)
    (hmissed : ∀ selected ∈ refreshes limit c (tasks :: later), ∀ u ∈ selected, u.id ≠ t.id) :
    (later.length + 1) * feaQuota limit ≤ patience limit c tasks t := by
  induction later generalizing c tasks t with
  | nil =>
      have hnot : t ∉ (tasksToRefresh limit c tasks).1 :=
        fun hmem ↦ hmissed _ (List.mem_cons_self ..) t hmem rfl
      have hstep := patience_missed h (show Leaving [tasks, tasks] from
        ⟨hleaving.1, fun _ h ↦ by cases h; exact List.Subset.refl _, hleaving.1, by simp, trivial⟩) ht rfl hnot
      simp only [List.length_nil, Nat.zero_add, Nat.one_mul]
      omega
  | cons tasks' later ih =>
      obtain ⟨hnodup, hsub, hlater⟩ := hleaving
      obtain ⟨t', ht', hkey⟩ := hstays tasks' (List.mem_cons_self ..)
      have hnot : t ∉ (tasksToRefresh limit c tasks).1 :=
        fun hmem ↦ hmissed _ (List.mem_cons_self ..) t hmem rfl
      have hid : t'.id = t.id := congrArg Prod.fst hkey
      have hstep := patience_missed h ⟨hnodup, hsub, hlater.1, by simp, trivial⟩ ht hkey hnot
      have hrest := ih hlater ht'
        (fun u hu ↦ (hstays u (List.mem_cons_of_mem _ hu)).imp fun _ h ↦ ⟨h.1, h.2.trans hkey.symm⟩)
        (fun selected hs u hu ↦ hid ▸ hmissed selected (List.mem_cons_of_mem _ hs) u hu)
      rw [List.length_cons, Nat.add_mul _ 1, Nat.one_mul]
      omega

end Runs

def refreshBound (n limit : ℕ) : ℕ :=
  if limit = 1 then 2 * n else (n + feaQuota limit - 1) / feaQuota limit

/-- Fair and exact refresh of a population under a limit. -/
structure RefreshLaw (limit : ℕ) (tasks : List Task) : Prop where
  exact : ∀ c, (tasksToRefresh limit c tasks).1.length = min limit tasks.length ∧
    ((tasksToRefresh limit c tasks).1.map (·.id)).Nodup ∧ (tasksToRefresh limit c tasks).1 ⊆ tasks
  covered : ∀ c later, Leaving (tasks :: later) →
    refreshBound tasks.length limit ≤ (tasks :: later).length →
    ∀ t ∈ tasks, (∀ tasks' ∈ later, ∃ t' ∈ tasks', t'.refreshKey = t.refreshKey) →
    ∃ selected ∈ refreshes limit c (tasks :: later), ∃ u ∈ selected, u.id = t.id
  quarter : 2 ≤ limit → ∀ c fea, limit ≤ 4 * classSize (tasksToRefresh limit c tasks).1 fea ∨
    classSize (tasksToRefresh limit c tasks).1 fea = classSize tasks fea
  alternate : limit = 1 → ∀ c tasks', Leaving [tasks, tasks'] → ∀ fea, 0 < classSize tasks fea →
    0 < classSize tasks' fea →
    ∃ selected ∈ refreshes limit c [tasks, tasks'], 0 < classSize selected fea

/-- The quota of FEA, or what the other tasks leave over, is a quarter of the limit or enough for
all FEA tasks. -/
def FeaQuarter (limit nonFea fea : ℕ) : Prop :=
  limit ≤ 4 * max (feaQuota limit) (limit - nonFea) ∨
    fea ≤ max (feaQuota limit) (limit - nonFea)

section Fairness

variable {limit : ℕ} {c : RefreshCursors} {tasks tasks' : List Task}

theorem subset_tasksToRefresh (h : 1 ≤ limit) : (tasksToRefresh limit c tasks).1 ⊆ tasks := by
  intro t ht
  rw [tasksToRefresh_eq h, List.mem_append] at ht
  exact ht.elim (fun h ↦ (mem_selectedOf h).1) fun h ↦ (mem_selectedOf h).1

theorem classSize_tasksToRefresh (h : 1 ≤ limit) (fea : Bool) :
    classSize (tasksToRefresh limit c tasks).1 fea =
      min (classPlaces limit c tasks fea) (classSize tasks fea) := by
  have hself (fea : Bool) : classSize (selectedOf limit c tasks fea) fea =
      (selectedOf limit c tasks fea).length :=
    List.countP_eq_length.mpr fun u hu ↦ by simp [(mem_selectedOf hu).2]
  have hother (fea : Bool) : classSize (selectedOf limit c tasks (!fea)) fea = 0 :=
    List.countP_eq_zero.mpr fun u hu ↦ by simp [(mem_selectedOf hu).2]
  rw [tasksToRefresh_eq h, classSize, List.countP_append]
  cases fea
  · exact (congrArg₂ (· + ·) (hself false) (hother false)).trans (length_selectedOf false)
  · exact (congrArg₂ (· + ·) (hother true) (hself true)).trans
      ((Nat.zero_add _).trans (length_selectedOf true))

theorem covered_of_bound (h : 1 ≤ limit) (later : List (List Task))
    (hleaving : Leaving (tasks :: later))
    (hbound : refreshBound tasks.length limit ≤ (tasks :: later).length) {t : Task} (ht : t ∈ tasks)
    (hstays : ∀ tasks' ∈ later, ∃ t' ∈ tasks', t'.refreshKey = t.refreshKey) :
    ∃ selected ∈ refreshes limit c (tasks :: later), ∃ u ∈ selected, u.id = t.id := by
  by_contra hmissed
  push Not at hmissed
  have hused := patience_refreshes h later hleaving ht hstays hmissed
  have hpatience := patience_le limit c ht
  have hq := feaQuota_pos limit
  rw [List.length_cons] at hbound
  unfold refreshBound at hbound
  split at hpatience
  · rw [if_pos ‹_›] at hbound
    nlinarith
  · rw [if_neg ‹_›, Nat.div_le_iff_le_mul_add_pred hq, Nat.mul_comm] at hbound
    omega

theorem alternates (c : RefreshCursors) {fea : Bool} (hsize : 0 < classSize tasks fea)
    (hsize' : 0 < classSize tasks' fea) :
    ∃ selected ∈ refreshes (1 : ℕ) c [tasks, tasks'], 0 < classSize selected fea := by
  by_contra hnone
  push Not at hnone
  have hfirst := hnone _ (List.mem_cons_self ..)
  have hsecond := hnone _ (List.mem_cons_of_mem _ (List.mem_cons_self ..))
  rw [classSize_tasksToRefresh le_rfl] at hfirst hsecond
  have hturn := turn_le (c := c) hsize
  have hturn' := turn_le (c := (tasksToRefresh (1 : ℕ) c tasks).2) hsize'
  have hfar : turn c.preferFea fea ≤ 1 := by unfold turn; split <;> omega
  omega

/-- Refresh is exact, and no task waits for longer than the bound; each class has a quarter of
every call if and only if the quota, which is rounded down, and the spill are one for FEA. -/
theorem refresh_law_iff (h : 1 ≤ limit) (hnodup : (tasks.map (·.id)).Nodup) :
    RefreshLaw limit tasks ↔
      FeaQuarter limit (classSize tasks false) (classSize tasks true) := by
  have hq := feaQuota_le h
  constructor
  · intro hlaw
    by_cases hone : limit = 1
    · exact .inl (by subst hone; unfold feaQuota; omega)
    have hquarter := hlaw.quarter (by omega) {} true
    rw [classSize_tasksToRefresh h] at hquarter
    unfold FeaQuarter
    unfold classPlaces places at hquarter
    simp only [hone, if_true, if_false] at hquarter
    split_ifs at hquarter <;> simp only at hquarter <;> omega
  · intro hfits
    refine ⟨fun c ↦ ⟨length_tasksToRefresh h, nodup_tasksToRefresh h hnodup,
      subset_tasksToRefresh h⟩, fun c later hleaving hbound t ht hstays ↦
        covered_of_bound h later hleaving hbound ht hstays, fun htwo c fea ↦ ?_, ?_⟩
    · rw [classSize_tasksToRefresh h]
      have hthree : 4 * feaQuota limit ≤ 3 * limit := by unfold feaQuota; omega
      unfold FeaQuarter at hfits
      unfold classPlaces places
      cases fea <;> simp only [Bool.false_eq_true, if_true, if_false] <;> split_ifs <;>
        simp only <;> omega
    · rintro rfl c tasks' - fea hsize hsize'
      exact alternates c hsize hsize'

def sixTasks : List Task :=
  (List.range 6).map fun i ↦
    { id := i + 1, schedulingProfile := if i < 4 then .standard else .feaBursty }

theorem refresh_law_eight : RefreshLaw 8 sixTasks :=
  (refresh_law_iff (by decide) (by decide)).mpr (.inl (by decide))

/-- One of five places for two FEA tasks. -/
theorem refresh_below_quarter : ¬ RefreshLaw 5 sixTasks := by
  intro hlaw
  have hquarter := hlaw.quarter (by decide) {} true
  revert hquarter
  decide

end Fairness

end SlurmScheduler.Dispatch
