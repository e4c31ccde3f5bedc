import Mathlib.Data.String.Basic
import SlurmScheduler.Dispatch.Schema
import SlurmScheduler.Relational.Rotation
import SlurmScheduler.Relational.Like
import SlurmScheduler.Relational.Cursor
import SlurmScheduler.Slurm.Text

namespace SlurmScheduler.Web

open Relational
open Pool (TaskStatus Time)
open Dispatch (SchedulingProfile)
open Slurm.Text (strip)

/-- The keys of `TASK_PAGE_SORT_COLUMNS` but `dashboard` -/
inductive SortKey
  | id | name | status | allocation | scheduling
  deriving DecidableEq, Repr

inductive SortOrder
  | asc | desc
  deriving DecidableEq, Repr

def allowedStatuses : List TaskStatus :=
  [.attaching, .cancelled, .completed, .failed, .queued, .running]

def statusOf? (text : String) : Option TaskStatus := allowedStatuses.find? (·.text == text)

/-- `str.strip` and `str.lower`; no status and no key has a letter that is the lower case of a
character outside ASCII. -/
def normalized (text : String) : String :=
  String.ofList ((strip text).toList.map Char.toLower)

def statusValues (raw : List String) : List String :=
  ((raw.flatMap fun r ↦ (r.toList.splitOn ',').map (normalized <| String.ofList ·)).filter
    (· ≠ "")).foldl (fun found value ↦ if found.contains value then found else found ++ [value]) []

def statusDetail (invalid : List String) : String :=
  "status must contain only " ++ ", ".intercalate (allowedStatuses.map (·.text)) ++ "; invalid: " ++
    if invalid.isEmpty then "<empty>" else ", ".intercalate (sortedBy id invalid)

def normalizeTaskStatusFilters : Option (List String) → Except String (Option (List TaskStatus))
  | none => .ok none
  | some raw =>
      let values := statusValues raw
      let invalid := values.filter fun value ↦ (statusOf? value).isNone
      if !invalid.isEmpty || values.isEmpty then .error (statusDetail invalid)
      else .ok (some (values.filterMap statusOf?))

def normalizeTaskSort (sortBy sortOrder : String) : Except String (SortKey × SortOrder) := do
  let key ← match normalized (if sortBy = "" then "id" else sortBy) with
    | "id" => pure SortKey.id
    | "name" => pure .name
    | "status" => pure .status
    | "allocation" => pure .allocation
    | "scheduling" => pure .scheduling
    | _ => .error "sort_by must be one of allocation, id, name, scheduling, status"
  let order ← match normalized (if sortOrder = "" then "desc" else sortOrder) with
    | "asc" => pure SortOrder.asc
    | "desc" => pure .desc
    | _ => .error "sort_order must be asc or desc"
  return (key, order)

structure TaskQuery where
  compact : Bool := false
  limit : ℤ := 0
  beforeId : ℤ := 0
  project : String := ""
  namePrefix : String := ""
  nameContains : String := ""
  status : Option (List String) := none
  sortBy : String := "id"
  sortOrder : String := "desc"
  paged : Bool := false
  page : ℤ := 1
  pageSize : ℤ := 100

structure Paging where
  page : ℕ
  pageSize : ℕ
  page_pos : 0 < page
  pageSize_pos : 0 < pageSize
  pageSize_le : pageSize ≤ 10000

/-- The parameters of a request that is not rejected. -/
structure TaskRead where
  compact : Bool := false
  limit : ℤ := 0
  beforeId : ℕ := 0
  project : String := ""
  namePrefix : String := ""
  nameContains : String := ""
  statuses : Option (List TaskStatus) := none
  sortBy : SortKey := .id
  sortOrder : SortOrder := .desc
  paging : Option Paging := none
  statuses_ne : statuses ≠ some [] := by decide

theorem statuses_ne_of_ok {raw : Option (List String)} {statuses : Option (List TaskStatus)}
    (h : normalizeTaskStatusFilters raw = .ok statuses) : statuses ≠ some [] := by
  intro hnil
  subst hnil
  cases raw with
  | none => cases h
  | some raw =>
    unfold normalizeTaskStatusFilters at h
    dsimp only at h
    split at h
    · cases h
    · next hvalid =>
      simp only [Except.ok.injEq, Option.some.injEq] at h
      simp only [Bool.or_eq_true, Bool.not_eq_true', not_or, Bool.not_eq_false, List.isEmpty_iff,
        List.filter_eq_nil_iff] at hvalid
      obtain ⟨hall, hsome⟩ := hvalid
      obtain ⟨value, hvalue⟩ := List.exists_mem_of_ne_nil _ hsome
      obtain ⟨status, hstatus⟩ := Option.ne_none_iff_exists'.mp
        (by simpa using hall value hvalue)
      have hmem : status ∈ (statusValues raw).filterMap statusOf? :=
        List.mem_filterMap.mpr ⟨value, hvalue, hstatus⟩
      rw [h] at hmem
      cases hmem

namespace TaskQuery

variable (q : TaskQuery)

def parseStatuses : Except String { statuses : Option (List TaskStatus) // statuses ≠ some [] } :=
  match h : normalizeTaskStatusFilters q.status with
  | .error detail => .error detail
  | .ok statuses => .ok ⟨statuses, statuses_ne_of_ok h⟩

def parsePaging : Except String (Option Paging) :=
  if q.paged then
    if hpage : q.page < 1 then .error "page must be at least 1"
    else if hsize : q.pageSize < 1 ∨ 10000 < q.pageSize then
      .error "page_size must be between 1 and 10000"
    else .ok (some ⟨q.page.toNat, q.pageSize.toNat, by omega, by omega, by omega⟩)
  else .ok none

def parse : Except String TaskRead :=
  if q.beforeId < 0 then .error "before_id must be non-negative"
  else do
    let statuses ← q.parseStatuses
    let (sortBy, sortOrder) ← normalizeTaskSort q.sortBy q.sortOrder
    let paging ← q.parsePaging
    return {
      compact := q.compact, limit := q.limit, beforeId := q.beforeId.toNat, project := q.project
      namePrefix := q.namePrefix, nameContains := q.nameContains, statuses := statuses.1
      sortBy, sortOrder, paging, statuses_ne := statuses.2 }

end TaskQuery

inductive Clause
  | never
  | statusIn (statuses : List TaskStatus)
  | nameLike (pattern : List Char)
  | projectIs (project : String)
  | idBelow (id : ℕ)

/-- Rows whose columns satisfy a condition of a `WHERE`. -/
def Clause.holds (t : Dispatch.Task) : Clause → Bool
  | never => false
  | statusIn statuses => statuses.contains t.status
  | nameLike pattern => like '\\' pattern t.name.toList
  | projectIs project => t.project == project
  | idBelow id => t.id < id

def startsWith (text : String) : Clause := .nameLike (escapeLike text.toList ++ ['%'])

def contains (text : String) : Clause := .nameLike ('%' :: (escapeLike text.toList ++ ['%']))

/-- The expression of `TASK_PAGE_SORT_COLUMNS`, a number or a text -/
def SortKey.column (t : Dispatch.Task) : SortKey → ℕ ×ₗ List ℕ
  | id => toLex (t.id, [])
  | name => toLex (0, (foldCase t.name.toList).map Char.toNat)
  | status => toLex (0, t.status.text.toList.map Char.toNat)
  | allocation => toLex (t.allocationId, [])
  | scheduling => toLex (0, (match t.schedulingProfile with
      | .standard => "standard"
      | .feaBursty => "fea_bursty").toList.map Char.toNat)

/-- `ORDER BY`, with the id as the tie-breaker of every other column -/
def orderBy (key : SortKey) (order : SortOrder) (rows : List Dispatch.Task) : List Dispatch.Task :=
  match key, order with
  | .id, .asc => sortedBy (·.id) rows
  | .id, .desc => sortedBy (OrderDual.toDual ·.id) rows
  | key, .asc => sortedBy (fun t ↦ toLex (key.column t, OrderDual.toDual t.id)) rows
  | key, .desc =>
      sortedBy (fun t ↦ toLex (OrderDual.toDual (key.column t), OrderDual.toDual t.id)) rows

def where' (tasks : Table Dispatch.Task) (clauses : List Clause) : List Dispatch.Task :=
  tasks.select fun t ↦ clauses.all (·.holds t)

/-- The clauses that `list_tasks` and `list_task_inventory` share. -/
def plainClauses (project namePrefix : String) (statuses : Option (List TaskStatus)) :
    List Clause :=
  (if project = "" then [] else [.projectIs project]) ++
    (if namePrefix = "" then [] else [startsWith namePrefix]) ++
    statuses.toList.map .statusIn

def listTasks (tasks : Table Dispatch.Task) (limit : ℕ) (project namePrefix : String)
    (statuses : Option (List TaskStatus)) : List Dispatch.Task :=
  if statuses = some [] then []
  else (orderBy .id .desc (where' tasks (plainClauses project namePrefix statuses))).take limit

structure TaskItem where
  id : ℕ
  name : String
  status : TaskStatus
  project : String
  startedAt : Option Time
  deriving DecidableEq

def itemOf (t : Dispatch.Task) : TaskItem := ⟨t.id, t.name, t.status, t.project, t.startedAt⟩

def listTaskInventory (tasks : Table Dispatch.Task) (limit : ℕ) (project namePrefix : String)
    (statuses : Option (List TaskStatus)) (beforeId : ℕ) : List TaskItem :=
  if statuses = some [] then []
  else ((orderBy .id .desc (where' tasks (plainClauses project namePrefix statuses ++
    if beforeId = 0 then [] else [.idBelow beforeId]))).take limit).map itemOf

/-- `{row["id"]: row for row in [*recent_rows, *active_rows]}`, sorted -/
def listTasksWithActive (tasks : Table Dispatch.Task) : List Dispatch.Task :=
  let recent := (orderBy .id .desc (where' tasks [])).take 200
  let active := (orderBy .id .desc (where' tasks [.statusIn Dispatch.claiming])).take 5000
  orderBy .id .desc (recent ++ active.filter fun t ↦ recent.all (·.id ≠ t.id))

def statusClauses : Option (List TaskStatus) → List Clause
  | none => []
  | some [] => [.never]
  | some statuses => [.statusIn statuses]

def taskPageWhere (statuses : Option (List TaskStatus)) (nameContains namePrefix project : String)
    (beforeId : ℕ) : List Clause :=
  statusClauses statuses ++
    (if strip nameContains = "" then [] else [contains (strip nameContains)]) ++
    (if strip namePrefix = "" then [] else [startsWith (strip namePrefix)]) ++
    (if strip project = "" then [] else [.projectIs (strip project)]) ++
    if beforeId = 0 then [] else [.idBelow beforeId]

def countFilteredTasks (tasks : Table Dispatch.Task) (clauses : List Clause) : ℕ :=
  tasks.count fun t ↦ clauses.all (·.holds t)

def listFilteredTasks (tasks : Table Dispatch.Task) (limit offset : ℕ) (clauses : List Clause)
    (sortBy : SortKey) (sortOrder : SortOrder) : List Dispatch.Task :=
  ((orderBy sortBy sortOrder (where' tasks clauses)).drop offset).take limit

structure PageMetadata where
  filteredTotal : ℕ
  page : ℕ
  pageSize : ℕ
  pageCount : ℕ
  hasPrevious : Bool
  hasNext : Bool
  deriving DecidableEq

inductive TaskItems
  | compact (items : List TaskItem)
  | full (tasks : List Dispatch.Task)

def TaskItems.ids : TaskItems → List ℕ
  | compact items => items.map (·.id)
  | full tasks => tasks.map (·.id)

structure TaskResponse where
  metadata : Option PageMetadata := none
  items : TaskItems

namespace TaskRead

variable (r : TaskRead)

/-- `max(1, min(int(limit), 10000)) if limit else default` -/
def taskLimit (default : ℕ) : ℕ :=
  if r.limit = 0 then default else (max 1 (min r.limit 10000)).toNat

def serialize (tasks : List Dispatch.Task) : TaskItems :=
  if r.compact then .compact (tasks.map itemOf) else .full tasks

/-- `not name_contains and task_sort_key == "id" and task_sort_direction == "desc"` -/
def plain : Bool := r.nameContains = "" ∧ r.sortBy = .id ∧ r.sortOrder = .desc

def pageClauses : List Clause :=
  taskPageWhere r.statuses r.nameContains r.namePrefix r.project r.beforeId

def pageMetadata (paging : Paging) (filteredTotal : ℕ) : PageMetadata :=
  let pageCount := max 1 ((filteredTotal + paging.pageSize - 1) / paging.pageSize)
  let page := min paging.page pageCount
  { filteredTotal, page, pageSize := paging.pageSize, pageCount
    hasPrevious := 1 < page, hasNext := page < pageCount }

def fullTasks (tasks : Table Dispatch.Task) : List Dispatch.Task :=
  if r.project ≠ "" ∨ r.namePrefix ≠ "" ∨ r.nameContains ≠ "" ∨ r.statuses.isSome ∨
      r.sortBy ≠ .id ∨ r.sortOrder ≠ .desc then
    if r.plain then
      listTasks tasks (r.taskLimit 10000) r.project r.namePrefix r.statuses
    else
      listFilteredTasks tasks (r.taskLimit 10000) 0
        (taskPageWhere r.statuses r.nameContains r.namePrefix r.project 0) r.sortBy r.sortOrder
  else if r.limit ≠ 0 then
    listFilteredTasks tasks (r.taskLimit 0) 0 (taskPageWhere none "" "" "" 0) r.sortBy r.sortOrder
  else listTasksWithActive tasks

def apiTasks (tasks : Table Dispatch.Task) : TaskResponse :=
  match r.paging with
  | some paging =>
      let metadata := pageMetadata paging (countFilteredTasks tasks r.pageClauses)
      { metadata := some metadata
        items := r.serialize (listFilteredTasks tasks paging.pageSize
          ((metadata.page - 1) * paging.pageSize) r.pageClauses r.sortBy r.sortOrder) }
  | none =>
      if r.compact && r.plain then
        { items := .compact (listTaskInventory tasks (r.taskLimit 2000) r.project r.namePrefix
            r.statuses r.beforeId) }
      else if r.compact then
        { items := r.serialize (listFilteredTasks tasks (r.taskLimit 2000) 0 r.pageClauses
            r.sortBy r.sortOrder) }
      else { items := r.serialize (r.fullTasks tasks) }

end TaskRead

/-- `GET /api/tasks` -/
def getTasks (tasks : Table Dispatch.Task) (q : TaskQuery) : Except String TaskResponse :=
  q.parse.map (·.apiTasks tasks)

end SlurmScheduler.Web
