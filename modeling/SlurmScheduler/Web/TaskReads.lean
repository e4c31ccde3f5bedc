import SlurmScheduler.Web.TaskLists

namespace SlurmScheduler.Web

open Relational
open Slurm.Text (strip)

theorem stripChars_sublist (text : List Char) :
    (Slurm.Text.stripChars text).Sublist text :=
  (List.rdropWhile_prefix _ _).sublist.trans (List.dropWhile_suffix _).sublist

theorem strip_eq_of_length {text : String}
    (h : text.toList.length ≤ (strip text).toList.length) : strip text = text := by
  unfold strip at *
  rw [String.toList_ofList] at h
  rw [(stripChars_sublist text.toList).eq_of_length_le h, String.ofList_toList]

theorem strip_nil : strip "" = "" := by decide

namespace TaskRead

variable (r : TaskRead)

structure Matches (t : Dispatch.Task) : Prop where
  project : strip r.project = "" ∨ t.project = strip r.project
  namePrefix : foldCase (strip r.namePrefix).toList <+: foldCase t.name.toList
  nameContains : foldCase (strip r.nameContains).toList <:+: foldCase t.name.toList
  status : ∀ statuses ∈ r.statuses, t.status ∈ statuses
  beforeId : r.beforeId = 0 ∨ t.id < r.beforeId

instance (t : Dispatch.Task) : Decidable (r.Matches t) :=
  decidable_of_iff
    ((strip r.project = "" ∨ t.project = strip r.project) ∧
      foldCase (strip r.namePrefix).toList <+: foldCase t.name.toList ∧
      foldCase (strip r.nameContains).toList <:+: foldCase t.name.toList ∧
      (∀ statuses ∈ r.statuses, t.status ∈ statuses) ∧ (r.beforeId = 0 ∨ t.id < r.beforeId))
    ⟨fun ⟨h₁, h₂, h₃, h₄, h₅⟩ ↦ ⟨h₁, h₂, h₃, h₄, h₅⟩, fun ⟨h₁, h₂, h₃, h₄, h₅⟩ ↦ ⟨h₁, h₂, h₃, h₄, h₅⟩⟩

def requested (tasks : Table Dispatch.Task) : List Dispatch.Task :=
  orderBy r.sortBy r.sortOrder (tasks.select fun t ↦ decide (r.Matches t))

/-- The first `limit` of them, or those of the page, which is the last one at most -/
def asked (tasks : Table Dispatch.Task) : List Dispatch.Task :=
  match r.paging with
  | some paging =>
      let pages := ((r.requested tasks).length + paging.pageSize - 1) / paging.pageSize
      ((r.requested tasks).drop ((min paging.page (max 1 pages) - 1) * paging.pageSize)).take
        paging.pageSize
  | none => (r.requested tasks).take r.limit.toNat

def Selects : Prop :=
  ∀ tasks, (r.apiTasks tasks).items.ids = (r.asked tasks).map (·.id)

def withCursor (cursor : Option ℕ) : TaskRead := { r with beforeId := cursor.getD 0 }

/-- The ids that the read returns with a cursor, from one table after the other. -/
def reads (tables : ℕ → Table Dispatch.Task) (n : ℕ) (cursor : Option ℕ) : List ℕ :=
  ((r.withCursor cursor).apiTasks (tables n)).items.ids

/-- Read again and again with the least id returned so far, the list comes to an end, and every
task that matches all the time has been returned once. -/
def EnumeratedBy (reads : (ℕ → Table Dispatch.Task) → ℕ → Option ℕ → List ℕ) : Prop :=
  ∀ tables : ℕ → Table Dispatch.Task, (∀ n, ∀ t ∈ tables n, 0 < t.id) →
    (∃ n, readAt (reads tables) n = []) ∧
    ∀ n, (collected (reads tables) n).Nodup ∧
      (readAt (reads tables) n = [] → ∀ k,
        (∀ i ≤ n, ∃ t ∈ tables i, t.id = k ∧ (r.withCursor none).Matches t) →
          k ∈ collected (reads tables) n)

abbrev Enumerates : Prop := r.EnumeratedBy r.reads

def Trimmed : Prop := strip r.project = r.project ∧ strip r.namePrefix = r.namePrefix

instance : Decidable r.Trimmed := by
  unfold Trimmed
  infer_instance

/-- The read does not come to `list_tasks` or `list_task_inventory` with white space. -/
def Clean : Prop := r.paging = none → r.plain = true → r.Trimmed

def forwardsCursor : Bool := r.paging.isSome || r.compact

def cursorClauses : List Clause :=
  if r.forwardsCursor ∧ r.beforeId ≠ 0 then [.idBelow r.beforeId] else []

def filterClauses : List Clause :=
  if r.paging.isNone && r.plain then plainClauses r.project r.namePrefix r.statuses
  else taskPageWhere r.statuses r.nameContains r.namePrefix r.project 0

def queried (tasks : Table Dispatch.Task) : List Dispatch.Task :=
  orderBy r.sortBy r.sortOrder (where' tasks (r.filterClauses ++ r.cursorClauses))

variable {r}

theorem filterClauses_plain (h : r.paging = none) (hplain : r.plain = true) :
    r.filterClauses = plainClauses r.project r.namePrefix r.statuses :=
  if_pos (by rw [h, hplain]; rfl)

theorem filterClauses_page (h : (r.paging.isNone && r.plain) = false) :
    r.filterClauses =
      taskPageWhere r.statuses r.nameContains r.namePrefix r.project 0 :=
  if_neg (by rw [h]; exact Bool.false_ne_true)

theorem holds_startsWith {text : String} {t : Dispatch.Task} :
    (startsWith text).holds t = true ↔ foldCase text.toList <+: foldCase t.name.toList :=
  like_startsWith

theorem holds_contains {text : String} {t : Dispatch.Task} :
    (contains text).holds t = true ↔ foldCase text.toList <:+: foldCase t.name.toList :=
  like_contains

theorem taskPageWhere_eq (before : ℕ) :
    taskPageWhere r.statuses r.nameContains r.namePrefix r.project before =
      taskPageWhere r.statuses r.nameContains r.namePrefix r.project 0 ++
        if before = 0 then [] else [.idBelow before] := by
  simp [taskPageWhere]

theorem holds_taskPageWhere {t : Dispatch.Task} :
    (taskPageWhere r.statuses r.nameContains r.namePrefix r.project 0).all (·.holds t) = true ↔
      (r.withCursor none).Matches t := by
  have hstatus : (statusClauses r.statuses).all (·.holds t) = true ↔
      ∀ statuses ∈ r.statuses, t.status ∈ statuses := by
    match r.statuses with
    | none => simp [statusClauses]
    | some [] => simp [statusClauses, Clause.holds]
    | some (s :: statuses) => simp [statusClauses, Clause.holds]
  have hcontains : ((if strip r.nameContains = "" then [] else [contains (strip r.nameContains)] :
      List Clause).all (·.holds t) = true) ↔
      foldCase (strip r.nameContains).toList <:+: foldCase t.name.toList := by
    by_cases h : strip r.nameContains = ""
    · simp [h, foldCase]
    · simp [h, holds_contains]
  have hprefix : ((if strip r.namePrefix = "" then [] else [startsWith (strip r.namePrefix)] :
      List Clause).all (·.holds t) = true) ↔
      foldCase (strip r.namePrefix).toList <+: foldCase t.name.toList := by
    by_cases h : strip r.namePrefix = ""
    · simp [h, foldCase]
    · simp [h, holds_startsWith]
  have hproject : ((if strip r.project = "" then [] else [.projectIs (strip r.project)] :
      List Clause).all (·.holds t) = true) ↔
      (strip r.project = "" ∨ t.project = strip r.project) := by
    by_cases h : strip r.project = ""
    · simp [h]
    · simp [h, Clause.holds]
  rw [taskPageWhere, List.all_append, List.all_append, List.all_append, List.all_append,
    Bool.and_eq_true, Bool.and_eq_true, Bool.and_eq_true, Bool.and_eq_true, hstatus, hcontains,
    hprefix, hproject]
  constructor
  · intro h
    obtain ⟨⟨⟨⟨hs, hc⟩, hn⟩, hp⟩, -⟩ := h
    exact ⟨hp, hn, hc, hs, .inl rfl⟩
  · intro h
    exact ⟨⟨⟨⟨h.status, h.nameContains⟩, h.namePrefix⟩, h.project⟩, rfl⟩

theorem holds_plainClauses {project namePrefix : String}
    {statuses : Option (List Pool.TaskStatus)} {t : Dispatch.Task} :
    (plainClauses project namePrefix statuses).all (·.holds t) = true ↔
      (project = "" ∨ t.project = project) ∧
        foldCase namePrefix.toList <+: foldCase t.name.toList ∧
        ∀ l ∈ statuses, t.status ∈ l := by
  have hproject : ((if project = "" then [] else [.projectIs project] :
      List Clause).all (·.holds t) = true) ↔ (project = "" ∨ t.project = project) := by
    by_cases h : project = ""
    · simp [h]
    · simp [h, Clause.holds]
  have hprefix : ((if namePrefix = "" then [] else [startsWith namePrefix] :
      List Clause).all (·.holds t) = true) ↔
      foldCase namePrefix.toList <+: foldCase t.name.toList := by
    by_cases h : namePrefix = ""
    · simp [h, foldCase]
    · simp [h, holds_startsWith]
  have hstatus : ((statuses.toList.map Clause.statusIn).all (·.holds t) = true) ↔
      ∀ l ∈ statuses, t.status ∈ l := by
    cases statuses <;> simp [Clause.holds]
  rw [plainClauses, List.all_append, List.all_append, Bool.and_eq_true, Bool.and_eq_true, hproject,
    hprefix, hstatus, and_assoc]

theorem plain_eq_true : r.plain = true ↔
    r.nameContains = "" ∧ r.sortBy = .id ∧ r.sortOrder = .desc := decide_eq_true_iff

theorem holds_filterClauses (h : r.Clean) {t : Dispatch.Task} :
    r.filterClauses.all (·.holds t) = true ↔ (r.withCursor none).Matches t := by
  by_cases hplain : (r.paging.isNone && r.plain) = true
  · rw [Bool.and_eq_true, Option.isNone_iff_eq_none] at hplain
    rw [filterClauses_plain hplain.1 hplain.2, holds_plainClauses]
    obtain ⟨hproject, hprefix⟩ := h hplain.1 hplain.2
    have hcontains := (plain_eq_true.mp hplain.2).1
    constructor
    · intro ht
      refine ⟨?_, ?_, ?_, ht.2.2, .inl rfl⟩
      · rw [show (r.withCursor none).project = r.project from rfl, hproject]
        exact ht.1
      · rw [show (r.withCursor none).namePrefix = r.namePrefix from rfl, hprefix]
        exact ht.2.1
      · rw [show (r.withCursor none).nameContains = r.nameContains from rfl, hcontains, strip_nil]
        exact List.nil_infix
    · intro ht
      have hp := ht.project
      have hn := ht.namePrefix
      rw [show (r.withCursor none).project = r.project from rfl, hproject] at hp
      rw [show (r.withCursor none).namePrefix = r.namePrefix from rfl, hprefix] at hn
      exact ⟨hp, hn, ht.status⟩
  · rw [filterClauses_page (by simpa using hplain)]
    exact holds_taskPageWhere

theorem matches_iff {t : Dispatch.Task} :
    r.Matches t ↔ (r.withCursor none).Matches t ∧ (r.beforeId = 0 ∨ t.id < r.beforeId) :=
  ⟨fun h ↦ ⟨⟨h.project, h.namePrefix, h.nameContains, h.status, .inl rfl⟩, h.beforeId⟩,
    fun h ↦ ⟨h.1.project, h.1.namePrefix, h.1.nameContains, h.1.status, h.2⟩⟩

theorem holds_cursorClauses {t : Dispatch.Task} : r.cursorClauses.all (·.holds t) = true ↔
    (r.forwardsCursor = true → r.beforeId = 0 ∨ t.id < r.beforeId) := by
  unfold cursorClauses
  by_cases hforwards : r.forwardsCursor = true
  · by_cases hbefore : r.beforeId = 0
    · simp [hbefore]
    · simp [hforwards, hbefore, Clause.holds]
  · simp [hforwards]

theorem queried_eq_requested (hclean : r.Clean)
    (hcursor : r.forwardsCursor = true ∨ r.beforeId = 0) (tasks : Table Dispatch.Task) :
    r.queried tasks = r.requested tasks := by
  unfold queried requested where' Table.select
  congr 1
  apply List.filter_congr
  intro t _
  rw [Bool.eq_iff_iff, List.all_append, Bool.and_eq_true, holds_filterClauses hclean,
    holds_cursorClauses, decide_eq_true_iff, matches_iff (r := r)]
  rcases hcursor with hforwards | hbefore
  · simp [hforwards]
  · simp [hbefore]

theorem ids_serialize (tasks : List Dispatch.Task) : (r.serialize tasks).ids = tasks.map (·.id) := by
  unfold serialize
  split
  · simp [TaskItems.ids, itemOf]
  · rfl

theorem length_queried (tasks : Table Dispatch.Task) :
    countFilteredTasks tasks (r.filterClauses ++ r.cursorClauses) = (r.queried tasks).length := by
  unfold queried orderBy countFilteredTasks Table.count where' Table.select
  split <;> rw [length_sortedBy, List.countP_eq_length_filter]

theorem pageClauses_eq (h : r.forwardsCursor = true)
    (hplain : (r.paging.isNone && r.plain) = false) :
    r.pageClauses = r.filterClauses ++ r.cursorClauses := by
  rw [pageClauses, taskPageWhere_eq, filterClauses_page hplain, cursorClauses]
  by_cases hbefore : r.beforeId = 0
  · simp [hbefore]
  · simp [hbefore, h]

theorem ids_paged {paging : Paging} (h : r.paging = some paging) (tasks : Table Dispatch.Task) :
    (r.apiTasks tasks).items.ids =
      (((r.queried tasks).drop ((min paging.page (max 1 (((r.queried tasks).length +
        paging.pageSize - 1) / paging.pageSize)) - 1) * paging.pageSize)).take
          paging.pageSize).map (·.id) := by
  have hclauses := pageClauses_eq (r := r) (by simp [forwardsCursor, h]) (by simp [h])
  unfold apiTasks
  rw [h]
  dsimp only
  rw [ids_serialize, hclauses, length_queried]
  rfl

theorem ids_compact (h : r.paging = none) (hcompact : r.compact = true) (tasks : Table Dispatch.Task) :
    (r.apiTasks tasks).items.ids = ((r.queried tasks).take (r.taskLimit 2000)).map (·.id) := by
  have hforwards : r.forwardsCursor = true := by simp [forwardsCursor, hcompact]
  unfold apiTasks
  rw [h]
  dsimp only
  by_cases hplain : r.plain = true
  · obtain ⟨-, hby, horder⟩ := plain_eq_true.mp hplain
    rw [if_pos (by simp [hcompact, hplain]), TaskItems.ids, listTaskInventory,
      if_neg r.statuses_ne, List.map_map, queried, filterClauses_plain h hplain, cursorClauses,
      hby, horder]
    by_cases hbefore : r.beforeId = 0
    · simp [hbefore, Function.comp_def, itemOf]
    · simp [hbefore, hforwards, Function.comp_def, itemOf]
  · rw [if_neg (by simp [hplain]), if_pos hcompact, ids_serialize,
      pageClauses_eq hforwards (by simp [hplain])]
    rfl

theorem ids_full (h : r.paging = none) (hcompact : r.compact = false) (hlimit : r.limit ≠ 0)
    (tasks : Table Dispatch.Task) :
    (r.apiTasks tasks).items.ids = ((r.queried tasks).take (r.taskLimit 0)).map (·.id) := by
  have hnone : r.cursorClauses = [] := by simp [cursorClauses, forwardsCursor, h, hcompact]
  have htake : ∀ default, r.taskLimit default = r.taskLimit 0 := by
    intro default
    rw [taskLimit, taskLimit, if_neg hlimit, if_neg hlimit]
  unfold apiTasks
  rw [h]
  dsimp only
  rw [if_neg (by simp [hcompact]), if_neg (by simp [hcompact]), ids_serialize, fullTasks]
  split
  · by_cases hplain : r.plain = true
    · obtain ⟨-, hby, horder⟩ := plain_eq_true.mp hplain
      rw [if_pos hplain, listTasks, if_neg r.statuses_ne, htake, queried,
        filterClauses_plain h hplain, hnone, List.append_nil, hby, horder]
    · rw [if_neg hplain, listFilteredTasks, htake, queried,
        filterClauses_page (by simp [hplain]), hnone, List.append_nil, List.drop_zero]
  · next hfilters =>
    push Not at hfilters
    obtain ⟨hproject, hprefix, hcontains, hstatuses, hby, horder⟩ := hfilters
    have hplain : r.plain = true := plain_eq_true.mpr ⟨hcontains, hby, horder⟩
    have hstatuses : r.statuses = none := by simpa using hstatuses
    rw [listFilteredTasks, queried, filterClauses_plain h hplain, hnone, List.append_nil,
      List.drop_zero, hproject, hprefix, hstatuses]
    rfl

theorem ids_explicit (h : r.paging = none) (hlimit : r.limit ≠ 0) (tasks : Table Dispatch.Task) :
    (r.apiTasks tasks).items.ids = ((r.queried tasks).take (r.taskLimit 0)).map (·.id) := by
  cases hcompact : r.compact with
  | true =>
    rw [ids_compact h hcompact, taskLimit, if_neg hlimit, taskLimit, if_neg hlimit]
  | false => exact ids_full h hcompact hlimit tasks

theorem orderBy_perm (key : SortKey) (order : SortOrder) (rows : List Dispatch.Task) :
    (orderBy key order rows).Perm rows := by
  unfold orderBy
  split <;> exact sortedBy_perm rows

theorem length_orderBy (key : SortKey) (order : SortOrder) (rows : List Dispatch.Task) :
    (orderBy key order rows).length = rows.length := (orderBy_perm key order rows).length_eq

theorem mem_requested {tasks : Table Dispatch.Task} {t : Dispatch.Task} :
    t ∈ r.requested tasks ↔ t ∈ tasks ∧ r.Matches t := by
  rw [requested, (orderBy_perm _ _ _).mem_iff, Table.mem_select, decide_eq_true_iff]

theorem nodup_ids_select (tasks : Table Dispatch.Task) (p : Dispatch.Task → Bool) :
    ((tasks.select p).map (·.id)).Nodup := by
  have hids : (tasks.rows.map (·.id)).Nodup := tasks.ordered.imp fun hlt ↦ Nat.ne_of_lt hlt
  exact hids.sublist (List.filter_sublist.map _)

/-- A cursor leaves no more tasks than there are ids below it. -/
theorem length_requested_le (h : r.beforeId ≠ 0) (tasks : Table Dispatch.Task) :
    (r.requested tasks).length ≤ r.beforeId := by
  have hnodup : ((r.requested tasks).map (·.id)).Nodup := by
    have hperm := (orderBy_perm r.sortBy r.sortOrder
      (tasks.select fun t ↦ decide (r.Matches t))).map (·.id)
    exact hperm.nodup_iff.mpr (nodup_ids_select tasks _)
  have hsub : (r.requested tasks).map (·.id) ⊆ List.range r.beforeId := by
    intro k hk
    obtain ⟨t, ht, rfl⟩ := List.mem_map.mp hk
    rcases (mem_requested.mp ht).2.beforeId with hzero | hlt
    · exact absurd hzero h
    · exact List.mem_range.mpr hlt
  have hlength := (List.subperm_of_subset hnodup hsub).length_le
  rwa [List.length_map, List.length_range] at hlength

def single (t : Dispatch.Task) : Table Dispatch.Task := ⟨[t], List.pairwise_singleton _ _⟩

/-- As many copies of a task, with the ids from `first` on. -/
def copies (first n : ℕ) (t : Dispatch.Task) : Table Dispatch.Task where
  rows := (List.range n).map fun k ↦ { t with id := first + k }
  ordered := by
    rw [List.map_map, List.pairwise_map]
    exact List.pairwise_lt_range.imp fun h ↦ Nat.add_lt_add_left h first

theorem mem_copies {first n : ℕ} {s t : Dispatch.Task} :
    t ∈ (copies first n s).rows ↔ ∃ k < n, { s with id := first + k } = t := by
  simp [copies]

theorem length_copies (first n : ℕ) (t : Dispatch.Task) : (copies first n t).rows.length = n := by
  rw [copies, List.length_map, List.length_range]

variable (r) in
def sample (project name : String) (id : ℕ) : Dispatch.Task :=
  { id, name, project, status := (r.statuses.bind List.head?).getD .queued }

variable (r) in
def matching (id : ℕ) : Dispatch.Task :=
  r.sample (strip r.project) (strip r.namePrefix ++ strip r.nameContains) id

variable (r) in
def found (id : ℕ) : Dispatch.Task :=
  if r.paging.isNone && r.plain then r.sample r.project r.namePrefix id else r.matching id

theorem sample_status {project name : String} {id : ℕ} :
    ∀ l ∈ r.statuses, (r.sample project name id).status ∈ l := by
  intro l hl
  have hne : l ≠ [] := fun hnil ↦ r.statuses_ne (by rw [← hnil]; exact hl)
  obtain ⟨s, l, rfl⟩ := List.exists_cons_of_ne_nil hne
  have hstatuses : r.statuses = some (s :: l) := hl
  simp [sample, hstatuses]

theorem matching_matches {n : ℕ} : (r.withCursor none).Matches (r.matching n) where
  project := .inr rfl
  namePrefix := by
    rw [matching, sample, String.toList_append, foldCase_append]
    exact List.prefix_append _ _
  nameContains := by
    rw [matching, sample, String.toList_append, foldCase_append]
    exact (List.suffix_append _ _).isInfix
  status := sample_status
  beforeId := .inl rfl

theorem found_id {id : ℕ} : (r.found id).id = id := by
  unfold found
  split <;> rfl

theorem found_holds {id : ℕ} : r.filterClauses.all (·.holds (r.found id)) = true := by
  unfold found
  by_cases hplain : (r.paging.isNone && r.plain) = true
  · rw [if_pos hplain]
    rw [Bool.and_eq_true, Option.isNone_iff_eq_none] at hplain
    rw [filterClauses_plain hplain.1 hplain.2, holds_plainClauses]
    exact ⟨.inr rfl, List.prefix_rfl, sample_status⟩
  · rw [if_neg hplain, filterClauses_page (by simpa using hplain), holds_taskPageWhere]
    exact matching_matches

theorem queried_single {t : Dispatch.Task} (h : (r.filterClauses ++ r.cursorClauses).all (·.holds t) = true) :
    r.queried (single t) = [t] := by
  have hselect : where' (single t) (r.filterClauses ++ r.cursorClauses) = [t] :=
    List.filter_eq_self.mpr fun x hx ↦ by rwa [List.mem_singleton.mp hx]
  rw [queried, hselect]
  exact List.perm_singleton.mp (orderBy_perm _ _ _)

/-- A read that is not paged finds the task, with its limit of at least one. -/
theorem ids_found {n : ℕ} (h : r.paging = none) (hlimit : r.limit ≠ 0)
    (hcursor : r.forwardsCursor = true → r.beforeId = 0 ∨ n < r.beforeId) :
    (r.apiTasks (single (r.found n))).items.ids = [n] := by
  have hqueried := queried_single (r := r) (t := r.found n) (by
    rw [List.all_append, found_holds, Bool.true_and, holds_cursorClauses, found_id]
    exact hcursor)
  have hpos : 1 ≤ r.taskLimit 0 := by
    rw [taskLimit, if_neg hlimit]
    omega
  rw [ids_explicit h hlimit, hqueried, List.take_of_length_le hpos, List.map_singleton, found_id]

/-- Where the clauses do not trim, a task that matches is found only if nothing was to trim. -/
theorem trimmed_of_holds (h : r.paging = none) (hplain : r.plain = true) {id : ℕ}
    (hholds : r.filterClauses.all (·.holds (r.matching id)) = true) : r.Trimmed := by
  rw [filterClauses_plain h hplain, holds_plainClauses] at hholds
  obtain ⟨hproject, hprefix, -⟩ := hholds
  constructor
  · rcases hproject with hnil | hproject
    · rw [hnil, strip_nil]
    · exact hproject
  · apply strip_eq_of_length
    have hlength := hprefix.length_le
    rw [matching, sample, (plain_eq_true.mp hplain).1, strip_nil, String.append_empty] at hlength
    simpa [foldCase] using hlength

/-- Paged, or a compact read, or one without a cursor, within the limits of the response; and a
query that does not trim has nothing to trim. -/
structure Forwards (r : TaskRead) : Prop where
  cursor : r.compact = true ∨ r.beforeId = 0
  limit_pos : 1 ≤ r.limit
  limit_le : r.limit ≤ 10000 ∨ 0 < r.beforeId ∧ r.beforeId ≤ 10000
  trimmed : r.plain = true → r.Trimmed

theorem selects_of_paged {paging : Paging} (h : r.paging = some paging) : r.Selects := by
  intro tasks
  have hqueried := queried_eq_requested (r := r) (fun hnone ↦ by simp [h] at hnone)
    (.inl (by simp [forwardsCursor, h])) tasks
  rw [ids_paged h, hqueried, asked, h]

theorem selects_of_forwards (h : r.paging = none) (hf : r.Forwards) : r.Selects := by
  intro tasks
  have hcursor : r.forwardsCursor = true ∨ r.beforeId = 0 :=
    hf.cursor.imp_left fun hcompact ↦ by simp [forwardsCursor, hcompact]
  have hlimit := hf.limit_pos
  rw [ids_explicit h (by omega), queried_eq_requested (fun _ ↦ hf.trimmed) hcursor, asked, h]
  dsimp only
  congr 1
  rcases hf.limit_le with hle | ⟨hpos, hle⟩
  · rw [show r.taskLimit 0 = r.limit.toNat by rw [taskLimit, if_neg (by omega)]; omega]
  · have hlength := length_requested_le (r := r) (by omega) tasks
    by_cases hsmall : r.limit ≤ 10000
    · rw [show r.taskLimit 0 = r.limit.toNat by rw [taskLimit, if_neg (by omega)]; omega]
    · have hcap : r.taskLimit 0 = 10000 := by
        rw [taskLimit, if_neg (by omega)]
        omega
      rw [List.take_of_length_le (by omega), List.take_of_length_le (by omega)]

theorem asked_none (h : r.paging = none) (tasks : Table Dispatch.Task) :
    r.asked tasks = (r.requested tasks).take r.limit.toNat := by
  rw [asked, h]

theorem requested_single {t : Dispatch.Task} (h : r.Matches t) : r.requested (single t) = [t] := by
  have hselect : (single t).select (fun t ↦ decide (r.Matches t)) = [t] :=
    List.filter_cons_of_pos (decide_eq_true h)
  rw [requested, hselect]
  exact List.perm_singleton.mp (orderBy_perm _ _ _)

theorem forwards_of_selects (h : r.paging = none) (hlimit : r.limit ≠ 0) (hs : r.Selects) :
    r.Forwards := by
  have hasked : ∀ {n}, (r.forwardsCursor = true → r.beforeId = 0 ∨ n < r.beforeId) →
      ((r.requested (single (r.found n))).take r.limit.toNat).map (·.id) = [n] := by
    intro n hcursor
    rw [← asked_none h, ← hs, ids_found h hlimit hcursor]
  have hpos : 1 ≤ r.limit := by
    by_contra hneg
    have hnil := hasked (n := 0) fun _ ↦ by omega
    rw [show r.limit.toNat = 0 by omega] at hnil
    cases hnil
  refine ⟨?_, hpos, ?_, ?_⟩
  · by_contra hdropped
    push Not at hdropped
    obtain ⟨hcompact, hbefore⟩ := hdropped
    have hone := hasked (n := r.beforeId) fun hforwards ↦ by
      simp [forwardsCursor, h, hcompact] at hforwards
    have hmem : r.beforeId ∈
        ((r.requested (single (r.found r.beforeId))).take r.limit.toNat).map (·.id) := by
      rw [hone]
      exact List.mem_singleton_self _
    obtain ⟨t, ht, hid⟩ := List.mem_map.mp hmem
    rcases (mem_requested.mp (List.mem_of_mem_take ht)).2.beforeId with hzero | hlt
    · exact hbefore hzero
    · omega
  · by_contra hlong
    push Not at hlong
    have hall : ∀ k ∈ (copies 0 10001 (r.matching 0)).rows, decide (r.Matches k) = true := by
      intro t ht
      obtain ⟨k, hk, rfl⟩ := mem_copies.mp ht
      rw [decide_eq_true_iff]
      refine matches_iff.mpr ⟨matching_matches (n := 0 + k), ?_⟩
      have hbefore := hlong.2
      change r.beforeId = 0 ∨ 0 + k < r.beforeId
      omega
    have hlength : (r.requested (copies 0 10001 (r.matching 0))).length = 10001 := by
      rw [requested, length_orderBy, Table.select, List.filter_eq_self.mpr hall, length_copies]
    have hboth := congrArg List.length (hs (copies 0 10001 (r.matching 0)))
    rw [asked_none h, ids_explicit h hlimit, List.length_map, List.length_map, List.length_take,
      List.length_take, hlength, taskLimit, if_neg hlimit] at hboth
    omega
  · intro hplain
    have hbefore : r.beforeId = 0 ∨ 0 < r.beforeId := by omega
    have hone := hs (single (r.matching 0))
    rw [asked_none h, requested_single (matches_iff.mpr ⟨matching_matches, hbefore⟩),
      List.take_of_length_le (by rw [List.length_singleton]; omega), ids_explicit h hlimit] at hone
    have hid : 0 ∈ ((r.queried (single (r.matching 0))).take (r.taskLimit 0)).map (·.id) := by
      rw [hone]
      exact List.mem_singleton_self _
    obtain ⟨t, ht, -⟩ := List.mem_map.mp hid
    obtain ⟨hrow, hholds⟩ := List.mem_filter.mp
      ((orderBy_perm _ _ _).mem_iff.mp (List.mem_of_mem_take ht))
    rw [List.mem_singleton.mp hrow, List.all_append, Bool.and_eq_true] at hholds
    exact trimmed_of_holds h hplain hholds.1

theorem orderBy_id_desc {rows : List Dispatch.Task} (hnodup : (rows.map (·.id)).Nodup) :
    (orderBy .id .desc rows).Pairwise fun s t ↦ s.id > t.id := by
  have hkeys : (rows.map fun t ↦ OrderDual.toDual t.id).Nodup := hnodup
  exact sortedBy_pairwise_lt hkeys

theorem isPage_take {population : ℕ → Prop} {cursor : Option ℕ} {rows : List Dispatch.Task} {m : ℕ}
    (hnodup : (rows.map (·.id)).Nodup)
    (hrows : ∀ k, (∃ t ∈ rows, t.id = k) ↔ population k ∧ Below cursor k) (hm : 0 < m) :
    IsPage population cursor (((orderBy .id .desc rows).take m).map (·.id)) := by
  have hsorted := orderBy_id_desc hnodup
  have hdrawn : ∀ k ∈ ((orderBy .id .desc rows).take m).map (·.id),
      population k ∧ Below cursor k := by
    intro k hk
    obtain ⟨t, ht, hid⟩ := List.mem_map.mp hk
    exact (hrows k).mp ⟨t, (orderBy_perm _ _ _).mem_iff.mp (List.mem_of_mem_take ht), hid⟩
  refine ⟨?_, fun k hk ↦ (hdrawn k hk).1, fun k hk ↦ (hdrawn k hk).2, ?_⟩
  · exact List.pairwise_map.mpr (hsorted.sublist (List.take_sublist _ _))
  · intro k hk hbelow hleft
    obtain ⟨t, ht, rfl⟩ := (hrows k).mpr ⟨hk, hbelow⟩
    have ht := (orderBy_perm .id .desc rows).mem_iff.mpr ht
    rw [← List.take_append_drop m (orderBy .id .desc rows)] at ht hsorted
    rcases List.mem_append.mp ht with htake | hdrop
    · exact absurd (List.mem_map_of_mem htake) hleft
    · constructor
      · intro hnil
        rw [List.map_eq_nil_iff, List.take_eq_nil_iff] at hnil
        rcases hnil with hzero | hnil
        · omega
        · rw [hnil, List.drop_nil] at hdrop
          cases hdrop
      · intro j hj
        obtain ⟨s, hs, rfl⟩ := List.mem_map.mp hj
        exact (List.pairwise_append.mp hsorted).2.2 s hs t hdrop

/-- A read that starts at the first task and forwards the cursor -/
structure Resumes (r : TaskRead) : Prop where
  first : ∀ paging ∈ r.paging, paging.page = 1
  cursor : r.forwardsCursor = true
  clean : r.Clean

theorem reads_eq (h : r.Resumes) (hlimit : r.paging = none → r.limit ≠ 0) :
    ∃ m, 0 < m ∧ ∀ tables n cursor, r.reads tables n cursor =
      (((r.withCursor cursor).requested (tables n)).take m).map (·.id) := by
  cases hpaging : r.paging with
  | some paging =>
    refine ⟨paging.pageSize, paging.pageSize_pos, fun tables n cursor ↦ ?_⟩
    have hfirst := h.first paging hpaging
    rw [reads, ids_paged (r := r.withCursor cursor) hpaging,
      queried_eq_requested (r := r.withCursor cursor) h.clean (.inl h.cursor), hfirst,
      show ∀ pages, (min 1 (max 1 pages) - 1) * paging.pageSize = 0 by intro pages; simp,
      List.drop_zero]
  | none =>
    have hexplicit := hlimit hpaging
    refine ⟨r.taskLimit 0, ?_, fun tables n cursor ↦ ?_⟩
    · rw [taskLimit, if_neg hexplicit]
      omega
    · rw [reads, ids_explicit (r := r.withCursor cursor) hpaging hexplicit,
        queried_eq_requested (r := r.withCursor cursor) h.clean (.inl h.cursor)]
      rfl

theorem enumerates_of_resumes (h : r.Resumes) (hlimit : r.paging = none → r.limit ≠ 0)
    (hby : r.sortBy = .id) (horder : r.sortOrder = .desc) : r.Enumerates := by
  intro tables hpos
  obtain ⟨m, hm, hreads⟩ := reads_eq h hlimit
  let population (n k : ℕ) : Prop := ∃ t ∈ tables n, t.id = k ∧ (r.withCursor none).Matches t
  have hvalid : ∀ n k, population n k → 0 < k := by
    intro n k hk
    obtain ⟨t, ht, rfl, -⟩ := hk
    exact hpos n t ht
  have hpage : ∀ n cursor, (∀ c ∈ cursor, 0 < c) →
      IsPage (population n) cursor (r.reads tables n cursor) := by
    intro n cursor hcursor
    have hbelow : ∀ k, Below cursor k ↔ cursor.getD 0 = 0 ∨ k < cursor.getD 0 := by
      intro k
      cases cursor with
      | none => simp [Below]
      | some c =>
        have hc := hcursor c rfl
        simp [Below, Nat.ne_of_gt hc]
    rw [hreads, requested, show (r.withCursor cursor).sortBy = .id from hby,
      show (r.withCursor cursor).sortOrder = .desc from horder]
    apply isPage_take
    · exact nodup_ids_select (tables n) _
    · intro k
      constructor
      · intro hk
        obtain ⟨t, ht, rfl⟩ := hk
        obtain ⟨htable, hmatch⟩ := Table.mem_select.mp ht
        obtain ⟨hfilters, hcut⟩ := matches_iff.mp (decide_eq_true_iff.mp hmatch)
        exact ⟨⟨t, htable, rfl, hfilters⟩, (hbelow t.id).mpr hcut⟩
      · intro hk
        obtain ⟨⟨t, ht, rfl, hmatch⟩, hcut⟩ := hk
        exact ⟨t, Table.mem_select.mpr ⟨ht, decide_eq_true
          (matches_iff.mpr ⟨hmatch, (hbelow t.id).mp hcut⟩)⟩, rfl⟩
    · exact hm
  refine ⟨reads_end hvalid hpage, fun n ↦ ⟨collected_nodup hvalid hpage n, ?_⟩⟩
  intro hend k hk
  exact mem_collected_of_end hvalid hpage hend hk

theorem requested_descending (hby : r.sortBy = .id) (horder : r.sortOrder = .desc)
    (tasks : Table Dispatch.Task) : (r.requested tasks).Pairwise fun s t ↦ s.id > t.id := by
  rw [requested, hby, horder]
  exact orderBy_id_desc (nodup_ids_select tasks _)

/-- With one task more than fits on a page, a later page does not hold the greatest id. -/
theorem notMem_later_page {paging : Paging} (hpaging : r.paging = some paging)
    (hlater : 1 < paging.page) (hby : r.sortBy = .id) (horder : r.sortOrder = .desc)
    {tasks : Table Dispatch.Task} (hlength : (r.requested tasks).length = paging.pageSize + 1)
    (hgreatest : ∀ t ∈ tasks.rows, t.id ≤ paging.pageSize + 1) :
    paging.pageSize + 1 ∉ (r.asked tasks).map (·.id) := by
  intro hmem
  have hsize := paging.pageSize_pos
  have hpages : (paging.pageSize + 1 + paging.pageSize - 1) / paging.pageSize = 2 := by
    rw [show paging.pageSize + 1 + paging.pageSize - 1 = 2 * paging.pageSize by omega]
    exact Nat.mul_div_cancel 2 hsize
  have hskipped : (min paging.page (max 1 2) - 1) * paging.pageSize = paging.pageSize := by
    rw [show min paging.page (max 1 2) - 1 = 1 by omega, Nat.one_mul]
  rw [asked, hpaging] at hmem
  dsimp only at hmem
  rw [hlength, hpages, hskipped] at hmem
  obtain ⟨t, ht, hid⟩ := List.mem_map.mp hmem
  have ht := List.mem_of_mem_take ht
  obtain ⟨s, hs⟩ := List.exists_mem_of_length_pos
    (l := (r.requested tasks).take paging.pageSize) (by rw [List.length_take]; omega)
  have hsorted := requested_descending (r := r) hby horder tasks
  rw [← List.take_append_drop paging.pageSize (r.requested tasks)] at hsorted
  have hlt := (List.pairwise_append.mp hsorted).2.2 s hs t ht
  have hle := hgreatest s (mem_requested.mp (List.mem_of_mem_take hs)).1
  omega

/-- Behind the first page the greatest id is never returned. -/
theorem first_of_enumerates {paging : Paging} (hpaging : r.paging = some paging)
    (hby : r.sortBy = .id) (horder : r.sortOrder = .desc) (h : r.Enumerates) :
    paging.page = 1 := by
  by_contra hfirst
  have hpos := paging.page_pos
  -- at first one task more than fits on a page, then only the one with the greatest id
  let tables : ℕ → Table Dispatch.Task := fun n ↦
    n.casesOn (copies 1 (paging.pageSize + 1) (r.matching 1))
      fun _ ↦ single (r.matching (paging.pageSize + 1))
  have hread : ∀ n cursor, r.reads tables n cursor = (((r.withCursor cursor).asked (tables n)).map
      (·.id)) := fun n cursor ↦ selects_of_paged (r := r.withCursor cursor) hpaging (tables n)
  have hrows : ∀ n, ∀ t ∈ (tables n).rows, (t.id ≤ paging.pageSize + 1 ∧ 0 < t.id) ∧
      (r.withCursor none).Matches t := by
    intro n t ht
    cases n with
    | zero =>
      obtain ⟨k, hk, rfl⟩ := mem_copies.mp ht
      refine ⟨?_, matching_matches (n := 1 + k)⟩
      change 1 + k ≤ paging.pageSize + 1 ∧ 0 < 1 + k
      omega
    | succ n =>
      rw [List.mem_singleton.mp ht]
      exact ⟨⟨le_rfl, Nat.succ_pos _⟩, matching_matches⟩
  have hstays : ∀ i, ∃ t ∈ tables i, t.id = paging.pageSize + 1 ∧ (r.withCursor none).Matches t := by
    intro i
    cases i with
    | zero => exact ⟨{ r.matching 1 with id := 1 + paging.pageSize },
        mem_copies.mpr ⟨paging.pageSize, by omega, rfl⟩, Nat.add_comm _ _,
        matching_matches (n := 1 + _)⟩
    | succ i => exact ⟨_, List.mem_singleton_self _, rfl, matching_matches⟩
  obtain ⟨-, hall⟩ := h tables fun n t ht ↦ (hrows n t ht).1.2
  have hfull : ((r.withCursor none).requested (tables 0)).length = paging.pageSize + 1 := by
    rw [requested, length_orderBy, Table.select, List.filter_eq_self.mpr fun t ht ↦
      decide_eq_true (hrows 0 t ht).2]
    exact length_copies _ _ _
  have hmissed : paging.pageSize + 1 ∉ r.reads tables 0 none := by
    rw [hread]
    exact notMem_later_page (r := r.withCursor none) hpaging (by omega) hby horder hfull
      fun t ht ↦ (hrows 0 t ht).1.1
  have hend : readAt (r.reads tables) 1 = [] := by
    have hfirst : collected (r.reads tables) 1 = r.reads tables 0 none := List.nil_append _
    rw [readAt, hfirst, hread]
    cases hmin : (r.reads tables 0 none).min? with
    | none =>
      have hnil : readAt (r.reads tables) 0 = [] := List.min?_eq_none_iff.mp hmin
      cases (hall 0).2 hnil (paging.pageSize + 1) fun i _ ↦ hstays i
    | some c =>
      have hc := (List.min?_eq_some_iff.mp hmin).1
      rw [hread] at hc
      obtain ⟨t, ht, rfl⟩ := List.mem_map.mp hc
      have ht : t ∈ (tables 0).rows := by
        rw [asked, show (r.withCursor none).paging = some paging from hpaging] at ht
        exact (mem_requested.mp (List.mem_of_mem_drop (List.mem_of_mem_take ht))).1
      obtain ⟨⟨hle, hpos⟩, -⟩ := hrows 0 t ht
      have hnone : (r.withCursor (some t.id)).requested (tables 1) = [] := by
        apply List.eq_nil_iff_forall_not_mem.mpr
        intro s hs
        obtain ⟨hs, hmatch⟩ := mem_requested.mp hs
        rw [List.mem_singleton.mp hs] at hmatch
        have hbefore := hmatch.beforeId
        change t.id = 0 ∨ paging.pageSize + 1 < t.id at hbefore
        omega
      rw [asked, show (r.withCursor (some t.id)).paging = some paging from hpaging, hnone]
      simp
  have hmem := (hall 1).2 hend (paging.pageSize + 1) fun i _ ↦ hstays i
  exact hmissed (by simpa [collected] using hmem)

theorem resumes_of_enumerates (hlimit : r.paging = none → r.limit ≠ 0)
    (hby : r.sortBy = .id) (horder : r.sortOrder = .desc) (h : r.Enumerates) : r.Resumes := by
  refine ⟨fun paging hpaging ↦ first_of_enumerates hpaging hby horder h, ?_, ?_⟩
  · by_contra hdropped
    have hdropped : r.forwardsCursor = false := by simpa using hdropped
    have hnone : r.paging = none := by
      rw [forwardsCursor, Bool.or_eq_false_iff, Option.isSome_eq_false_iff,
        Option.isNone_iff_eq_none] at hdropped
      exact hdropped.1
    have hread : ∀ n cursor, r.reads (fun _ ↦ single (r.found 1)) n cursor = [1] := by
      intro n cursor
      refine ids_found (r := r.withCursor cursor) (n := 1) hnone (hlimit hnone) fun hforwards ↦ ?_
      rw [show (r.withCursor cursor).forwardsCursor = r.forwardsCursor from rfl, hdropped] at hforwards
      cases hforwards
    obtain ⟨-, hall⟩ := h (fun _ ↦ single (r.found 1)) (by
      intro n t ht
      rw [List.mem_singleton.mp ht, found_id]
      exact Nat.one_pos)
    have htwice := (hall 2).1
    rw [collected, collected, collected, hread, hread] at htwice
    exact absurd htwice (by decide)
  · intro hnone hplain
    obtain ⟨⟨n, hend⟩, hall⟩ := h (fun _ ↦ single (r.matching 1)) (by
      intro n t ht
      rw [List.mem_singleton.mp ht]
      exact Nat.one_pos)
    have hmem := (hall n).2 hend 1 fun i _ ↦
      ⟨r.matching 1, List.mem_singleton_self _, rfl, matching_matches⟩
    obtain ⟨i, cursor, hi⟩ := exists_of_mem_collected hmem
    rw [reads, ids_explicit (r := r.withCursor cursor) hnone (hlimit hnone)] at hi
    obtain ⟨t, ht, -⟩ := List.mem_map.mp hi
    obtain ⟨hrow, hholds⟩ := List.mem_filter.mp
      ((orderBy_perm _ _ _).mem_iff.mp (List.mem_of_mem_take ht))
    rw [List.mem_singleton.mp hrow, List.all_append, Bool.and_eq_true] at hholds
    exact trimmed_of_holds hnone hplain hholds.1

end TaskRead

/-- The ids that the request returns with a cursor. -/
def TaskQuery.reads (q : TaskQuery) (tables : ℕ → Table Dispatch.Task) (n : ℕ) (cursor : Option ℕ) :
    List ℕ :=
  match getTasks (tables n) { q with beforeId := cursor.getD 0 } with
  | .ok response => response.items.ids
  | .error _ => []

variable {q : TaskQuery} {r : TaskRead}

/-- What a request that passes the checks of `api_tasks` is read as. -/
theorem TaskQuery.parse_eq_ok_iff :
    q.parse = .ok r ↔ ∃ statuses sort paging, 0 ≤ q.beforeId ∧ q.parseStatuses = .ok statuses ∧
      normalizeTaskSort q.sortBy q.sortOrder = .ok sort ∧ q.parsePaging = .ok paging ∧
      r = ⟨q.compact, q.limit, q.beforeId.toNat, q.project, q.namePrefix, q.nameContains,
        statuses.1, sort.1, sort.2, paging, statuses.2⟩ := by
  constructor
  · intro h
    unfold parse at h
    split at h
    · cases h
    · next hid =>
      cases hstatuses : q.parseStatuses with
      | error detail =>
        rw [hstatuses] at h
        cases h
      | ok statuses =>
        cases hsort : normalizeTaskSort q.sortBy q.sortOrder with
        | error detail =>
          rw [hstatuses, hsort] at h
          cases h
        | ok sort =>
          cases hpaging : q.parsePaging with
          | error detail =>
            rw [hstatuses, hsort, hpaging] at h
            cases h
          | ok paging =>
            rw [hstatuses, hsort, hpaging] at h
            cases h
            exact ⟨statuses, sort, paging, by omega, rfl, rfl, rfl, rfl⟩
  · intro ⟨statuses, sort, paging, hid, hstatuses, hsort, hpaging, hr⟩
    rw [parse, if_neg (by omega), hstatuses, hsort, hpaging, hr]
    rfl

theorem TaskQuery.parse_cursor (h : q.parse = .ok r) (cursor : Option ℕ) :
    { q with beforeId := cursor.getD 0 }.parse = .ok (r.withCursor cursor) := by
  obtain ⟨statuses, sort, paging, -, hstatuses, hsort, hpaging, hr⟩ := parse_eq_ok_iff.mp h
  refine parse_eq_ok_iff.mpr ⟨statuses, sort, paging, by positivity, hstatuses, hsort, hpaging, ?_⟩
  rw [hr]
  rfl

theorem TaskQuery.reads_eq (h : q.parse = .ok r) : q.reads = r.reads := by
  funext tables n cursor
  rw [TaskQuery.reads, getTasks, parse_cursor h cursor]
  rfl

end SlurmScheduler.Web
