import SlurmScheduler.Dispatch.Density

namespace SlurmScheduler.Dispatch

open Relational
open Pool (Time TaskStatus)

/-- `TRIM(COALESCE(account_name, '')) = ''` -/
def sqlBlank (value : String) : Bool := value.toList.all (· == ' ')

/-- `GROUP BY account_name` lists the groups in order. -/
def sqlGroups (names : List String) : List String :=
  (names.filter (!sqlBlank ·)).dedup.insertionSort (· ≤ ·)

structure StorageReservation where
  startingProjectSlots : ℕ := 0
  readyProjectSlots : ℕ := 0
  busyProjectSlots : ℕ := 0
  hardSessionProjectSlots : ℕ := 0
  activeSessionProjects : ℕ := 0
  detachedActiveProjects : ℕ := 0
  attachingProjects : ℕ := 0
  runningProjects : ℕ := 0
  youngRunningProjects : ℕ := 0
  matureRunningProjects : ℕ := 0
  totalProjects : ℕ := 0
  deriving DecidableEq

def Task.launchedPooled (t : Task) : Bool := t.sqlPooled && claiming.contains t.status

/-- `COALESCE(account_name, '')` -/
def Task.account (t : Task) : String := t.accountName.getD ""

def Task.youngAt (t : Task) (maturityCutoff : Time) : Bool :=
  maturityCutoff ≤ t.startedAt.getD (t.attachedAt.getD t.updatedAt)

/-- `CASE WHEN s.slots_total > 0 THEN s.slots_total ELSE 1 END` -/
def growthSlots (x : Pool.Session) : ℕ := if 0 < x.slotsTotal then x.slotsTotal else 1

def hosted (x : Pool.Session) : Bool :=
  (x.state == .starting && 0 < x.hostTaskId) || x.state == .ready || x.state == .busy

namespace State

variable (s : State)

/-- The account of the allocation that a session is joined with; a join without one is dropped
as a blank account is. -/
def sessionAccount (x : Pool.Session) : String :=
  ((s.allocation? x.allocationId).map (·.accountName)).getD ""

def holdsPlace (t : Task) (x : Pool.Session) : Bool :=
  (s.pool.leases.rows.any fun l ↦
    l.taskId == t.id && l.state.holdsSlot && l.sessionId == some x.id) ||
  s.pool.reservations.rows.any fun r ↦
    r.taskId == t.id && r.state.holdsSlot && r.sessionId == x.id

def represents (t : Task) (x : Pool.Session) : Bool :=
  (x.state == .starting || x.state == .ready || x.state == .busy) &&
    ((s.pool.leases.rows.any fun l ↦
      l.taskId == t.id && l.state.holdsSlot && l.sessionId == some x.id) ||
    s.pool.reservations.rows.any fun r ↦
      r.taskId == t.id && r.state.holdsSlot && r.sessionId == x.id &&
        r.sessionGeneration == x.generation)

def taskGroups : List String :=
  sqlGroups ((s.tasks.select (·.launchedPooled)).map (·.account))

def sessionGroups : List String :=
  sqlGroups ((s.pool.sessions.select hosted).map s.sessionAccount)

def representedGroups : List String :=
  sqlGroups <| (s.tasks.select (·.launchedPooled)).flatMap fun t ↦
    (s.pool.sessions.select (s.represents t)).map s.sessionAccount

/-- `SUM(CASE WHEN … THEN slots ELSE 0 END)` over the sessions of a group -/
def slotsWhere (p : Pool.Session → Bool) (account : String) : ℕ :=
  (s.pool.sessions.rows.map fun x ↦
    if p x && s.sessionAccount x == account then growthSlots x else 0).sum

def setTaskColumns (maturityCutoff : Time) (account : String) (item : StorageReservation) :
    StorageReservation :=
  let mine (p : Task → Bool) :=
    s.tasks.count fun t ↦ t.launchedPooled && t.account == account && p t
  { item with
    attachingProjects := mine (·.status == .attaching)
    youngRunningProjects := mine fun t ↦ t.status == .running && t.youngAt maturityCutoff
    runningProjects := mine (·.status == .running)
    matureRunningProjects := mine (·.status == .running) -
      mine fun t ↦ t.status == .running && t.youngAt maturityCutoff }

def setSessionColumns (account : String) (item : StorageReservation) : StorageReservation :=
  let starting := s.slotsWhere (fun x ↦ x.state == .starting && 0 < x.hostTaskId) account
  let ready := s.slotsWhere (·.state == .ready) account
  let busy := s.slotsWhere (·.state == .busy) account
  { item with
    startingProjectSlots := starting, readyProjectSlots := ready, busyProjectSlots := busy
    hardSessionProjectSlots := starting + ready + busy }

def setRepresentedColumn (account : String) (item : StorageReservation) : StorageReservation :=
  { item with
    activeSessionProjects := s.tasks.count fun t ↦ t.launchedPooled &&
      s.pool.sessions.rows.any fun x ↦ s.represents t x && s.sessionAccount x == account }

end State

def StorageReservation.finish (item : StorageReservation) : StorageReservation :=
  let detached := item.attachingProjects + item.runningProjects - item.activeSessionProjects
  { item with
    detachedActiveProjects := detached
    totalProjects := item.hardSessionProjectSlots + detached }

def eachGroup (site : Site) (set : String → StorageReservation → StorageReservation)
    (groups : List String) (items : String → StorageReservation) : String → StorageReservation :=
  groups.foldl (fun items row ↦
    let account := site.svc.strip row
    if account == "" then items else Function.update items account (set row (items account))) items

/-- `aedt_storage_growth_reservations_by_account`; an account that is absent has nothing. -/
def State.aedtStorageGrowthReservationsByAccount (s : State) (site : Site)
    (maturityCutoff : Time) (account : String) : StorageReservation :=
  let tasks := eachGroup site (s.setTaskColumns maturityCutoff) s.taskGroups fun _ ↦ {}
  let sessions := eachGroup site s.setSessionColumns s.sessionGroups tasks
  (eachGroup site s.setRepresentedColumn s.representedGroups sessions account).finish

def Task.ownedBy (t : Task) (account : String) : Bool := t.accountName == some account

namespace State

variable (s : State) (account : String)

def owns (x : Pool.Session) : Bool :=
  (s.allocation? x.allocationId).any (·.accountName == account)

def seated (t : Task) : Bool :=
  s.pool.sessions.rows.any fun x ↦ s.owns account x && s.holdsPlace t x

def ownSlots : ℕ :=
  (s.pool.sessions.rows.map fun x ↦ if hosted x && s.owns account x then x.slotsTotal else 0).sum

def isDetached (t : Task) : Bool :=
  t.launchedPooled && t.ownedBy account && !s.seated account t

def detachedClients : ℕ :=
  s.tasks.count (s.isDetached account)

def ownProjects : ℕ := s.ownSlots account + s.detachedClients account

end State

def spells (site : Site) (account value : String) : Bool :=
  !sqlBlank value && site.svc.strip value == account && account != ""

def keptGroup (site : Site) (account : String) (groups : List String) : Option String :=
  (groups.filter (spells site account)).getLast?

namespace State

variable (s : State) (site : Site) (account : String)

def keptSession (x : Pool.Session) : Bool :=
  keptGroup site account s.sessionGroups == some (s.sessionAccount x)

def keptTask (t : Task) : Bool := keptGroup site account s.taskGroups == some t.account

def standsFor (t : Task) : Bool :=
  s.pool.sessions.rows.any fun x ↦ s.represents t x &&
    keptGroup site account s.representedGroups == some (s.sessionAccount x)

def keptSlots : ℕ :=
  (s.pool.sessions.rows.map fun x ↦
    if hosted x && s.keptSession site account x then growthSlots x else 0).sum

def keptClients : ℕ := s.tasks.count fun t ↦ t.launchedPooled && s.keptTask site account t

def representedClients : ℕ := s.tasks.count fun t ↦ t.launchedPooled && s.standsFor site account t

end State

variable {site : Site} {account : String} {s : State}

theorem sqlGroups_blank {names : List String} : ∀ row ∈ sqlGroups names, sqlBlank row = false := by
  intro row hrow
  rw [sqlGroups, List.mem_insertionSort, List.mem_dedup, List.mem_filter] at hrow
  simpa using hrow.2

theorem eachGroup_apply {set : String → StorageReservation → StorageReservation}
    (hset : ∀ r r' item, set r (set r' item) = set r item) {groups : List String}
    (hgroups : ∀ row ∈ groups, sqlBlank row = false) (items : String → StorageReservation) :
    eachGroup site set groups items account =
      (keptGroup site account groups).elim (items account) (set · (items account)) := by
  induction groups generalizing items with
  | nil => rfl
  | cons row groups ih =>
      have hblank := hgroups row List.mem_cons_self
      have ih := ih (fun r hr ↦ hgroups r (List.mem_cons_of_mem _ hr))
      have hcons : eachGroup site set (row :: groups) items = eachGroup site set groups
          (if site.svc.strip row == "" then items
            else Function.update items (site.svc.strip row)
              (set row (items (site.svc.strip row)))) := rfl
      rw [hcons, ih]
      cases hspells : spells site account row with
      | false =>
          have hsame : (if site.svc.strip row == "" then items else Function.update items
              (site.svc.strip row) (set row (items (site.svc.strip row)))) account =
              items account := by
            split
            · rfl
            · rename_i hnone
              refine Function.update_of_ne (fun hname ↦ ?_) _ _
              subst hname
              exact hnone (by simpa [spells, hblank] using hspells)
          rw [hsame, keptGroup, keptGroup, List.filter_cons_of_neg (by simp [hspells])]
      | true =>
          simp only [spells, Bool.and_eq_true, beq_iff_eq, bne_iff_ne] at hspells
          obtain ⟨⟨-, rfl⟩, hnone⟩ := hspells
          have hnow : (if site.svc.strip row == "" then items else Function.update items
              (site.svc.strip row) (set row (items (site.svc.strip row)))) (site.svc.strip row) =
              set row (items (site.svc.strip row)) := by
            rw [if_neg (by simpa using hnone), Function.update_self]
          have hfilter : (row :: groups).filter (spells site (site.svc.strip row)) =
              row :: groups.filter (spells site (site.svc.strip row)) :=
            List.filter_cons_of_pos (by simp [spells, hblank, hnone])
          rw [hnow, keptGroup, keptGroup, hfilter, List.getLast?_cons]
          cases (groups.filter (spells site (site.svc.strip row))).getLast? with
          | none => rfl
          | some last => exact hset _ _ _

theorem count_add_count {p q r : Task → Bool} (h : ∀ t, p t = (q t || r t))
    (hdisjoint : ∀ t, q t = true → r t = false) :
    s.tasks.count q + s.tasks.count r = s.tasks.count p := by
  unfold Table.count
  induction s.tasks.rows with
  | nil => rfl
  | cons t rows ih =>
      have hrow := h t
      have hrest := hdisjoint t
      simp only [List.countP_cons]
      cases hq : q t with
      | false =>
          rw [hq, Bool.false_or] at hrow
          rw [hrow, ← ih, if_neg Bool.false_ne_true]
          omega
      | true =>
          rw [hq, Bool.true_or] at hrow
          rw [hrow, hrest hq, ← ih, if_neg Bool.false_ne_true]
          omega

theorem slotsWhere_kinds (s : State) (account : String) :
    s.slotsWhere (fun x ↦ x.state == .starting && 0 < x.hostTaskId) account +
      s.slotsWhere (·.state == .ready) account + s.slotsWhere (·.state == .busy) account =
    s.slotsWhere hosted account := by
  simp only [State.slotsWhere, ← List.sum_map_add]
  refine congrArg List.sum (List.map_congr_left fun x _ ↦ ?_)
  by_cases hstarting : x.state = .starting
  · simp [hosted, hstarting]
  by_cases hready : x.state = .ready
  · simp [hosted, hready]
  by_cases hbusy : x.state = .busy
  · simp [hosted, hbusy]
  simp [hosted, hstarting, hready, hbusy]

theorem slotsWhere_kept (s : State) (site : Site) (account : String) :
    (keptGroup site account s.sessionGroups).elim 0 (s.slotsWhere hosted) =
      s.keptSlots site account := by
  unfold State.keptSlots State.keptSession
  cases keptGroup site account s.sessionGroups with
  | none => simp
  | some row =>
      simp only [Option.some_beq_some, BEq.comm (a := row)]
      rfl

theorem count_kept (s : State) (site : Site) (account : String) :
    ((keptGroup site account s.taskGroups).elim 0 fun row ↦
      s.tasks.count fun t ↦ t.launchedPooled && t.account == row) =
      s.keptClients site account := by
  unfold State.keptClients State.keptTask
  cases keptGroup site account s.taskGroups with
  | none => simp [Table.count]
  | some row =>
      simp only [Option.some_beq_some, BEq.comm (a := row)]
      rfl

theorem count_represented (s : State) (site : Site) (account : String) :
    ((keptGroup site account s.representedGroups).elim 0 fun row ↦
      s.tasks.count fun t ↦ t.launchedPooled &&
        s.pool.sessions.rows.any fun x ↦ s.represents t x && s.sessionAccount x == row) =
      s.representedClients site account := by
  unfold State.representedClients State.standsFor
  cases keptGroup site account s.representedGroups with
  | none =>
      have hnone (t : Task) : (s.pool.sessions.rows.any fun x ↦ s.represents t x &&
          (none : Option String) == some (s.sessionAccount x)) = false := by
        simp
      simp only [hnone]
      simp [Table.count]
  | some row =>
      simp only [Option.some_beq_some, BEq.comm (a := row)]
      rfl

theorem count_launched (s : State) (account : String) :
    s.tasks.count (fun t ↦ t.launchedPooled && t.account == account && t.status == .attaching) +
      s.tasks.count (fun t ↦ t.launchedPooled && t.account == account && t.status == .running) =
    s.tasks.count fun t ↦ t.launchedPooled && t.account == account := by
  refine count_add_count (fun t ↦ ?_) (fun t ht ↦ ?_)
  · by_cases hattaching : t.status = .attaching
    · simp [hattaching]
    · by_cases hrunning : t.status = .running
      · simp [hrunning]
      · simp [Task.launchedPooled, claiming, hattaching, hrunning]
  · rw [Bool.and_eq_true, beq_iff_eq] at ht
    simp [ht.2]

theorem totalProjects_eq (s : State) (site : Site) (maturityCutoff : Time) (account : String) :
    (s.aedtStorageGrowthReservationsByAccount site maturityCutoff account).totalProjects =
      s.keptSlots site account +
        (s.keptClients site account - s.representedClients site account) := by
  have htasks := @eachGroup_apply site account (s.setTaskColumns maturityCutoff)
    (fun _ _ _ ↦ rfl) s.taskGroups sqlGroups_blank
  have hsessions := @eachGroup_apply site account s.setSessionColumns
    (fun _ _ _ ↦ rfl) s.sessionGroups sqlGroups_blank
  have hrepresented := @eachGroup_apply site account s.setRepresentedColumn
    (fun _ _ _ ↦ rfl) s.representedGroups sqlGroups_blank
  simp only [State.aedtStorageGrowthReservationsByAccount, hrepresented, hsessions, htasks]
  rw [← slotsWhere_kept, ← count_kept, ← count_represented]
  cases keptGroup site account s.taskGroups <;> cases keptGroup site account s.sessionGroups <;>
    cases keptGroup site account s.representedGroups <;>
    simp [StorageReservation.finish, State.setTaskColumns, State.setSessionColumns,
      State.setRepresentedColumn, slotsWhere_kinds, count_launched]

namespace State

variable (s : State) (site : Site) (account : String)

def lostSlots : ℕ :=
  (s.pool.sessions.rows.map fun x ↦
    if hosted x && s.owns account x && !s.keptSession site account x then x.slotsTotal else 0).sum

/-- The slots of kept sessions that are not the account's own: of another spelling, or the one
that stands for none. -/
def surplusSlots : ℕ :=
  (s.pool.sessions.rows.map fun x ↦
    if hosted x && s.keptSession site account x then
      growthSlots x - (if s.owns account x then x.slotsTotal else 0) else 0).sum

def lostClients : ℕ :=
  s.tasks.count fun t ↦ t.launchedPooled && (t.ownedBy account && !s.keptTask site account t)

def strayClients : ℕ :=
  s.tasks.count fun t ↦ t.launchedPooled && (!t.ownedBy account && s.keptTask site account t)

/-- The clients that a session stands for without being the account's on one of its sessions. -/
def misplacedClients : ℕ :=
  s.tasks.count fun t ↦ t.launchedPooled &&
    (!(t.ownedBy account && s.seated account t) && s.standsFor site account t)

def heldOtherwise : ℕ :=
  s.tasks.count fun t ↦ t.launchedPooled &&
    (t.ownedBy account && s.seated account t && !s.standsFor site account t)

/-- What the ledger counts too little is made up by what it counts too much: of the slots alone
when it leaves no client over, of all together otherwise. -/
def Covered : Prop :=
  s.lostSlots site account + s.detachedClients account ≤ s.surplusSlots site account ∨
    s.lostSlots site account + s.lostClients site account + s.misplacedClients site account ≤
      s.surplusSlots site account + s.strayClients site account + s.heldOtherwise site account

instance : Decidable (s.Covered site account) := inferInstanceAs (Decidable (_ ∨ _))

end State

theorem slots_balance (s : State) (site : Site) (account : String) :
    s.keptSlots site account + s.lostSlots site account =
      s.ownSlots account + s.surplusSlots site account := by
  simp only [State.keptSlots, State.lostSlots, State.ownSlots, State.surplusSlots,
    ← List.sum_map_add]
  refine congrArg List.sum (List.map_congr_left fun x _ ↦ ?_)
  have hgrowth : x.slotsTotal ≤ growthSlots x := by
    unfold growthSlots
    split <;> omega
  cases hosted x <;> cases s.owns account x <;> cases s.keptSession site account x <;> simp
  omega

/-- The rows of one of two kinds and not of the other exchange the one count for the other. -/
theorem count_exchange (p q r : Task → Bool) :
    s.tasks.count (fun t ↦ p t && q t) + s.tasks.count (fun t ↦ p t && (r t && !q t)) =
      s.tasks.count (fun t ↦ p t && r t) + s.tasks.count fun t ↦ p t && (!r t && q t) := by
  unfold Table.count
  induction s.tasks.rows with
  | nil => rfl
  | cons t rows ih =>
      simp only [List.countP_cons]
      cases p t <;> cases q t <;> cases r t <;> simp <;> omega

theorem ownProjects_le_iff (s : State) (site : Site) (maturityCutoff : Time) (account : String) :
    s.ownProjects account ≤
      (s.aedtStorageGrowthReservationsByAccount site maturityCutoff account).totalProjects ↔
      s.Covered site account := by
  have hslots := slots_balance s site account
  have hclients : s.keptClients site account + s.lostClients site account = _ :=
    count_exchange (s := s) (·.launchedPooled) (s.keptTask site account) (·.ownedBy account)
  have hrepresented : s.representedClients site account + s.heldOtherwise site account = _ :=
    count_exchange (s := s) (·.launchedPooled) (s.standsFor site account)
      (fun t ↦ t.ownedBy account && s.seated account t)
  have hown : s.detachedClients account + s.tasks.count (fun t ↦
      t.launchedPooled && (t.ownedBy account && s.seated account t)) =
      s.tasks.count fun t ↦ t.launchedPooled && t.ownedBy account := by
    refine count_add_count (fun t ↦ ?_) (fun t ht ↦ ?_)
    · unfold State.isDetached
      cases s.seated account t <;> simp
    · rw [State.isDetached, Bool.and_eq_true, Bool.not_eq_true'] at ht
      simp [ht.2]
  rw [totalProjects_eq, State.ownProjects, State.Covered]
  unfold State.strayClients State.misplacedClients
  omega

namespace State

variable (s : State) (site : Site) (account : String)

/-- No launched client and no session goes by another spelling of the account. -/
structure PlainlyNamed : Prop where
  own : spells site account account = true
  clients : ∀ t ∈ s.tasks, t.launchedPooled = true → site.svc.strip t.account = account →
    t.account = account
  sessions : ∀ x ∈ s.pool.sessions, site.svc.strip (s.sessionAccount x) = account →
    s.sessionAccount x = account

def placed (t : Task) : Bool :=
  s.pool.sessions.rows.any fun x ↦ s.owns account x && s.represents t x

def strangers : ℕ :=
  s.tasks.count fun t ↦ t.launchedPooled && (!t.ownedBy account && s.placed account t)

/-- The account's clients whose places are all on sessions that have stopped, or reservations of an
earlier generation. -/
def displaced : ℕ :=
  s.tasks.count fun t ↦ t.launchedPooled &&
    (t.ownedBy account && s.seated account t && !s.placed account t)

def slotless : ℕ :=
  (s.pool.sessions.rows.map fun x ↦
    if hosted x && s.owns account x && x.slotsTotal == 0 then 1 else 0).sum

/-- The strangers on the sessions of the account hide none of its detached clients. -/
def HidesNone : Prop :=
  s.detachedClients account ≤ s.slotless account ∨
    s.strangers account ≤ s.slotless account + s.displaced account

instance : Decidable (s.PlainlyNamed site account) :=
  decidable_of_iff (spells site account account = true ∧
    (∀ t ∈ s.tasks, t.launchedPooled = true → site.svc.strip t.account = account →
      t.account = account) ∧
    ∀ x ∈ s.pool.sessions, site.svc.strip (s.sessionAccount x) = account →
      s.sessionAccount x = account)
    ⟨fun h ↦ ⟨h.1, h.2.1, h.2.2⟩, fun h ↦ ⟨h.own, h.clients, h.sessions⟩⟩

instance : Decidable (s.HidesNone account) := inferInstanceAs (Decidable (_ ∨ _))

end State

/-- A group is kept where the account is spelled in one way. -/
theorem keptGroup_plain {names : List String} (hown : spells site account account = true)
    (hplain : ∀ name ∈ names, site.svc.strip name = account → name = account) (name : String)
    (hname : name ∈ names) :
    (keptGroup site account (sqlGroups names) == some name) = (name == account) := by
  have hgroups : ∀ row ∈ (sqlGroups names).filter (spells site account), row = account := by
    intro row hrow
    obtain ⟨hmem, hspells⟩ := List.mem_filter.mp hrow
    simp only [spells, Bool.and_eq_true, beq_iff_eq] at hspells
    rw [sqlGroups, List.mem_insertionSort, List.mem_dedup, List.mem_filter] at hmem
    exact hplain row hmem.1 hspells.1.2
  rw [Bool.eq_iff_iff, beq_iff_eq, beq_iff_eq]
  constructor
  · intro hkept
    exact hgroups name (List.mem_of_getLast? hkept)
  · rintro rfl
    have hblank : sqlBlank name = false := by
      simp only [spells, Bool.and_eq_true, Bool.not_eq_true'] at hown
      exact hown.1.1
    have hmem : name ∈ (sqlGroups names).filter (spells site name) := by
      rw [List.mem_filter, sqlGroups, List.mem_insertionSort, List.mem_dedup, List.mem_filter]
      exact ⟨⟨hname, by simp [hblank]⟩, hown⟩
    cases hlast : ((sqlGroups names).filter (spells site name)).getLast? with
    | none =>
        rw [List.getLast?_eq_none_iff.mp hlast] at hmem
        cases hmem
    | some row =>
        rw [keptGroup, hlast, hgroups row (List.mem_of_getLast? hlast)]

namespace State.PlainlyNamed

theorem ne_empty (h : s.PlainlyNamed site account) : account ≠ "" := by
  have hown := h.own
  simp only [spells, Bool.and_eq_true, bne_iff_ne] at hown
  exact hown.2

theorem ownedBy (h : s.PlainlyNamed site account) (t : Task) :
    t.ownedBy account = (t.account == account) := by
  rw [Task.ownedBy, Task.account, Bool.eq_iff_iff, beq_iff_eq, beq_iff_eq]
  cases t.accountName with
  | none => simpa using h.ne_empty.symm
  | some name => simp

theorem owns (h : s.PlainlyNamed site account) (x : Pool.Session) :
    s.owns account x = (s.sessionAccount x == account) := by
  rw [State.owns, State.sessionAccount]
  cases s.allocation? x.allocationId with
  | none => simpa using h.ne_empty.symm
  | some a => rfl

theorem keptTask (h : s.PlainlyNamed site account) {t : Task} (ht : t ∈ s.tasks)
    (hlaunched : t.launchedPooled = true) : s.keptTask site account t = t.ownedBy account := by
  rw [State.keptTask, h.ownedBy]
  refine keptGroup_plain h.own (fun name hname ↦ ?_) _ ?_
  · obtain ⟨u, hu, rfl⟩ := List.mem_map.mp hname
    exact h.clients u (Table.mem_select.mp hu).1 (Table.mem_select.mp hu).2
  · exact List.mem_map_of_mem (Table.mem_select.mpr ⟨ht, hlaunched⟩)

theorem keptSession (h : s.PlainlyNamed site account) {x : Pool.Session}
    (hx : x ∈ s.pool.sessions) (hhosted : hosted x = true) :
    s.keptSession site account x = s.owns account x := by
  rw [State.keptSession, h.owns]
  refine keptGroup_plain h.own (fun name hname ↦ ?_) _ ?_
  · obtain ⟨y, hy, rfl⟩ := List.mem_map.mp hname
    exact h.sessions y (Table.mem_select.mp hy).1
  · exact List.mem_map_of_mem (Table.mem_select.mpr ⟨hx, hhosted⟩)

theorem standsFor (h : s.PlainlyNamed site account) {t : Task} (ht : t ∈ s.tasks)
    (hlaunched : t.launchedPooled = true) :
    s.standsFor site account t = s.placed account t := by
  rw [State.standsFor, State.placed, Bool.eq_iff_iff, List.any_eq_true, List.any_eq_true]
  refine exists_congr fun x ↦ and_congr_right fun hx ↦ ?_
  cases hrepresents : s.represents t x with
  | false => simp
  | true =>
      have hkept : (keptGroup site account s.representedGroups == some (s.sessionAccount x)) =
          s.owns account x := by
        rw [h.owns]
        refine keptGroup_plain h.own (fun name hname ↦ ?_) _ ?_
        · obtain ⟨u, -, hname⟩ := List.mem_flatMap.mp hname
          obtain ⟨y, hy, rfl⟩ := List.mem_map.mp hname
          exact h.sessions y (Table.mem_select.mp hy).1
        · refine List.mem_flatMap.mpr ⟨t, Table.mem_select.mpr ⟨ht, hlaunched⟩, ?_⟩
          exact List.mem_map_of_mem (Table.mem_select.mpr ⟨hx, hrepresents⟩)
      simp [hkept]

end State.PlainlyNamed

theorem holdsPlace_of_represents {t : Task} {x : Pool.Session} (h : s.represents t x = true) :
    s.holdsPlace t x = true := by
  simp only [State.represents, State.holdsPlace, Bool.and_eq_true, Bool.or_eq_true,
    List.any_eq_true] at h ⊢
  obtain ⟨-, hlease | ⟨r, hr, hplace⟩⟩ := h
  · exact .inl hlease
  · exact .inr ⟨r, hr, hplace.1⟩

theorem seated_of_placed {t : Task} (h : s.placed account t = true) :
    s.seated account t = true := by
  simp only [State.placed, State.seated, List.any_eq_true, Bool.and_eq_true] at h ⊢
  obtain ⟨x, hx, howns, hrepresents⟩ := h
  exact ⟨x, hx, howns, holdsPlace_of_represents hrepresents⟩

theorem count_launched_congr {p q : Task → Bool}
    (h : ∀ t ∈ s.tasks, t.launchedPooled = true → p t = q t) :
    (s.tasks.count fun t ↦ t.launchedPooled && p t) =
      s.tasks.count fun t ↦ t.launchedPooled && q t := by
  refine List.countP_congr fun t ht ↦ ?_
  cases hlaunched : t.launchedPooled with
  | false => simp
  | true => rw [h t ht hlaunched]

/-- Where every name is spelled in one way, the ledger leaves out no more than it counts too much
exactly when no stranger hides a client of the account. -/
theorem covered_iff_hidesNone (h : s.PlainlyNamed site account) :
    s.Covered site account ↔ s.HidesNone account := by
  have hlostSlots : s.lostSlots site account = 0 := by
    refine List.sum_eq_zero fun n hn ↦ ?_
    obtain ⟨x, hx, rfl⟩ := List.mem_map.mp hn
    cases hhosted : hosted x with
    | false => simp
    | true => rw [h.keptSession hx hhosted]; cases s.owns account x <;> rfl
  have hsurplus : s.surplusSlots site account = s.slotless account := by
    refine congrArg List.sum (List.map_congr_left fun x hx ↦ ?_)
    cases hhosted : hosted x with
    | false => simp
    | true =>
        rw [h.keptSession hx hhosted, growthSlots]
        cases s.owns account x with
        | false => rfl
        | true =>
            rcases Nat.eq_zero_or_pos x.slotsTotal with hnone | hsome
            · simp [hnone]
            · simp [hsome, Nat.ne_of_gt hsome]
  have hlostClients : s.lostClients site account = 0 := by
    rw [State.lostClients, count_launched_congr (q := fun _ ↦ false) fun t ht hlaunched ↦ by
      rw [h.keptTask ht hlaunched]; cases t.ownedBy account <;> rfl]
    simp [Table.count]
  have hstray : s.strayClients site account = 0 := by
    rw [State.strayClients, count_launched_congr (q := fun _ ↦ false) fun t ht hlaunched ↦ by
      rw [h.keptTask ht hlaunched]; cases t.ownedBy account <;> rfl]
    simp [Table.count]
  have hmisplaced : s.misplacedClients site account = s.strangers account := by
    refine count_launched_congr fun t ht hlaunched ↦ ?_
    rw [h.standsFor ht hlaunched]
    cases hplaced : s.placed account t with
    | false => simp
    | true => rw [seated_of_placed hplaced]; cases t.ownedBy account <;> rfl
  have hdisplaced : s.heldOtherwise site account = s.displaced account :=
    count_launched_congr fun t ht hlaunched ↦ by rw [h.standsFor ht hlaunched]
  rw [State.Covered, State.HidesNone, hlostSlots, hsurplus, hlostClients, hstray, hmisplaced,
    hdisplaced]
  omega

/-- Amounts of storage, with products and differences that may be rounded. -/
class Gigabytes (α : Type) extends LinearOrder α, Zero α where
  times : ℕ → α → α
  minus : α → α → α
  times_zero : ∀ n, times n 0 = 0
  times_le_times : ∀ {m n : ℕ} {x : α}, 0 ≤ x → m ≤ n → times m x ≤ times n x
  minus_le_minus : ∀ {x y z : α}, x ≤ y → minus z y ≤ minus z x

open Gigabytes (times minus)

instance : Gigabytes ℚ where
  times n x := n * x
  minus x y := x - y
  times_zero _ := mul_zero _
  times_le_times hx h := mul_le_mul_of_nonneg_right (Nat.cast_le.mpr h) hx
  minus_le_minus h := sub_le_sub_left h _

structure StorageQuotaProbe (α : Type) where
  isGpfs : Bool
  /-- `quota.free_gb` of the quota, when there is one -/
  quota : Option (Option α) := none
  error : String := ""

/-- What the caches hold of an account's storage. -/
structure StorageReadings (α : Type) where
  /-- absent when the account is unavailable this tick -/
  quotaProbe : Option (StorageQuotaProbe α)
  quotaProbedAt : Time
  storageQuotaGb : Option α := none
  usage : Option (Time × α) := none

structure StorageGuard (α : Type) [Gigabytes α] where
  minFreeGb : α
  perProjectGb : α
  maturitySeconds : ℕ
  perProjectGb_nonneg : 0 ≤ perProjectGb

section Guard

variable {α : Type} [Gigabytes α]

namespace StorageGuard

variable (guard : StorageGuard α) (site : Site) (s : State) (account : String)

def aedtStorageGrowthReservation (observationAt : Time) (additional : ℕ) : ℕ × α :=
  if guard.perProjectGb ≤ 0 then (0, 0) else
  let detail := s.aedtStorageGrowthReservationsByAccount site
    (observationAt - guard.maturitySeconds) account
  let projects := detail.totalProjects + additional
  (projects, times projects guard.perProjectGb)

def storageHeadroomBlocked (observedFreeGb : α) (observationAt : Time) (additional : ℕ) : Bool :=
  let reserved := guard.aedtStorageGrowthReservation site s account observationAt additional
  !decide (guard.minFreeGb ≤ minus observedFreeGb reserved.2)

def observedFreeGb (readings : StorageReadings α) : Option (α × Time) :=
  if guard.minFreeGb ≤ 0 then none else
  match readings.quotaProbe with
  | none => none
  | some probe =>
      if probe.error != "" then none
      else if probe.isGpfs then probe.quota.join.map (·, readings.quotaProbedAt)
      else match readings.storageQuotaGb, readings.usage with
        | some quota, some (at', used) => if quota = 0 then none else some (minus quota used, at')
        | _, _ => none

def accountStorageGuardStatus (readings : StorageReadings α) (additional : ℕ) : Bool × Bool :=
  if guard.minFreeGb ≤ 0 then (false, false) else
  match readings.quotaProbe with
  | none => (true, false)
  | some probe =>
      if probe.error != "" then (true, false)
      else if probe.isGpfs then
        match probe.quota with
        | none => (true, false)
        | some none => (false, false)
        | some (some freeGb) =>
            let blocked := guard.storageHeadroomBlocked site s account freeGb
              readings.quotaProbedAt additional
            (blocked, blocked)
      else match readings.storageQuotaGb with
        | none => (false, false)
        | some quota =>
            if quota = 0 then (false, false) else
            match readings.usage with
            | none => (false, false)
            | some (at', used) =>
                let blocked := guard.storageHeadroomBlocked site s account (minus quota used) at'
                  additional
                (blocked, blocked)

end StorageGuard

variable {guard : StorageGuard α}

theorem headroom_of_admitted {readings : StorageReadings α} {additional : ℕ} {free : α} {at' : Time}
    (hfree : guard.observedFreeGb readings = some (free, at'))
    (h : (guard.accountStorageGuardStatus site s account readings additional).1 = false) :
    guard.storageHeadroomBlocked site s account free at' additional = false := by
  unfold StorageGuard.observedFreeGb at hfree
  unfold StorageGuard.accountStorageGuardStatus at h
  grind

structure FeaAttempt where
  taskId : ℕ
  allocationId : ℕ
  attachToken : String
  heartbeatCutoff : Time
  now : Time
  projectCpus : ℕ

def FeaAttempt.write (a : FeaAttempt) (site : Site) (task : Task) (allocation : Allocation) :
    Write :=
  let change := .claim allocation.id allocation.accountName a.attachToken
  if site.svc.isPooled task.toTask then
    .updatePooledTaskIfReservedCapacity task
      ⟨allocation.id, a.heartbeatCutoff, a.now, a.projectCpus⟩ change
  else .updateTaskIfStatus task [.queued] change

def additionalProjects (site : Site) (task : Task) : ℕ := if task.isFeaInfra site.svc then 0 else 1

/-- The end of `reserve_task_on_allocation`: the storage guard and the claim.  The other checks
only turn more attempts away. -/
def reserveTask (guard : StorageGuard α) (readings : String → StorageReadings α) (site : Site)
    (s : State) (a : FeaAttempt) : Option (String × State) :=
  match s.task? a.taskId, s.allocation? a.allocationId with
  | some task, some allocation =>
      if task.status != .queued || !task.isFeaBursty then none else
      if (guard.accountStorageGuardStatus site s allocation.accountName
          (readings allocation.accountName) (additionalProjects site task)).1 then none
      else some (allocation.accountName, (a.write site task allocation).exec s)
  | _, _ => none

/-- What happens between two observations: attempts, and any change of the rows by others. -/
inductive Round
  | attempt (a : FeaAttempt)
  | others (s : State)

/-- An admission, with the account and the rows before it and after it. -/
structure Admission where
  account : String
  before : State
  after : State

def admissions (guard : StorageGuard α) (readings : String → StorageReadings α) (site : Site) :
    State → List Round → List Admission
  | _, [] => []
  | _, .others s :: rounds => admissions guard readings site s rounds
  | s, .attempt a :: rounds =>
      match reserveTask guard readings site s a with
      | none => admissions guard readings site s rounds
      | some (account, s') => ⟨account, s, s'⟩ :: admissions guard readings site s' rounds

theorem ownProjects_onTasks_le {p : Task → Bool} {f : Task → Task} {hf : ∀ t, (f t).id = t.id}
    (h : ∀ t ∈ s.tasks, p t = true → s.isDetached account (f t) = false) :
    (s.onTasks p f hf).ownProjects account ≤ s.ownProjects account := by
  refine Nat.add_le_add_left ?_ _
  refine le_of_eq_of_le (@Table.count_update _ _ _ _ _ _ hf)
    (List.countP_mono_left fun t ht hcount ↦ ?_)
  cases hp : p t with
  | false =>
      rw [hp] at hcount
      exact hcount
  | true =>
      rw [hp] at hcount
      exact absurd hcount (Bool.eq_false_iff.mp (h t ht hp))

theorem ownProjects_onTasks_le_succ {p : Task → Bool} {f : Task → Task}
    {hf : ∀ t, (f t).id = t.id}
    (huniq : ∀ t ∈ s.tasks, ∀ u ∈ s.tasks, p t = true → p u = true → t = u) :
    (s.onTasks p f hf).ownProjects account ≤ s.ownProjects account + 1 :=
  Nat.add_le_add_left (@Table.count_update_le_succ _ _ _ _ _ _ hf huniq) _

/-- The reservation by which a pooled task is claimed is a place on a session of the account. -/
theorem seated_of_reservedCapacity {c : PooledClaim} {t : Task} {allocation : Allocation}
    (hallocation : s.allocation? c.allocationId = some allocation)
    (h : s.reservedCapacity c t = true) : s.seated allocation.accountName t = true := by
  obtain ⟨r, hr, x, hx, htask, hstate, -, hid, -, -, hhosting⟩ := reserves_of_reservedCapacity h
  refine List.any_eq_true.mpr ⟨x, hx, ?_⟩
  rw [Bool.and_eq_true]
  refine ⟨?_, ?_⟩
  · rw [State.owns, hhosting.allocation, hallocation]
    exact beq_self_eq_true _
  · rw [State.holdsPlace, Bool.or_eq_true]
    refine .inr (List.any_eq_true.mpr ⟨r, hr, ?_⟩)
    simp [htask, hstate, hid, Pool.ReservationState.holdsSlot]

/-- The claim of a row adds no more to what is owed than the guard was asked for. -/
theorem ownProjects_claimed {a : FeaAttempt} {task : Task} {allocation : Allocation}
    (htask : s.task? a.taskId = some task)
    (hallocation : s.allocation? a.allocationId = some allocation)
    (hbackend : task.sqlPooled = true → site.svc.isPooled task.toTask = true) :
    ((a.write site task allocation).exec s).ownProjects allocation.accountName ≤
      s.ownProjects allocation.accountName + additionalProjects site task := by
  have hmem := mem_of_task? htask
  have hsame {t : Task} (ht : t ∈ s.tasks) (hid : t.id = task.id) : t = task :=
    Table.eq_of_key_eq ht hmem.1 hid
  cases hpooled : site.svc.isPooled task.toTask with
  | true =>
      -- the row holds a place on a session whose slots are counted already
      rw [FeaAttempt.write, if_pos hpooled]
      refine le_trans (ownProjects_onTasks_le fun t ht hp ↦ ?_) (Nat.le_add_right _ _)
      rw [Bool.and_eq_true, beq_iff_eq] at hp
      have hid : allocation.id = a.allocationId := (mem_of_allocation? hallocation).2
      have hseated := seated_of_reservedCapacity (s := s)
        (c := ⟨allocation.id, a.heartbeatCutoff, a.now, a.projectCpus⟩) (hid ▸ hallocation) hp.2
      rw [State.isDetached, Bool.and_eq_false_iff, Bool.not_eq_false']
      exact .inr (hseated ▸ by simp [State.seated, State.holdsPlace, TaskChange.id_stamp])
  | false =>
      rw [FeaAttempt.write, if_neg (by simp [hpooled]), additionalProjects]
      split
      · -- a host that is not a pooled client
        refine ownProjects_onTasks_le fun t ht hp ↦ ?_
        rw [Bool.and_eq_true, beq_iff_eq] at hp
        have hplain : task.sqlPooled = false :=
          Bool.eq_false_iff.mpr fun h ↦ Bool.eq_false_iff.mp hpooled (hbackend h)
        rw [hsame ht hp.1]
        rw [State.isDetached, Task.launchedPooled, Task.sqlPooled, aedtBackend_stamp]
        rw [Task.sqlPooled] at hplain
        rw [hplain]
        rfl
      · refine ownProjects_onTasks_le_succ fun t ht u hu hpt hpu ↦ ?_
        rw [Bool.and_eq_true, beq_iff_eq] at hpt hpu
        rw [hsame ht hpt.1, hsame hu hpu.1]

/-- What SQL reads as a pooled backend is one for the scheduler too. -/
def Site.ReadsBackends (site : Site) : Prop :=
  ∀ task : Task, task.sqlPooled = true → site.svc.isPooled task.toTask = true

/-- The free space less what the account owes is still what the guard asks for. -/
def StorageGuard.Keeps (guard : StorageGuard α) (readings : StorageReadings α) (s : State)
    (account : String) : Prop :=
  ∀ free at', guard.observedFreeGb readings = some (free, at') →
    guard.minFreeGb ≤ minus free (times (s.ownProjects account) guard.perProjectGb)

theorem reserved_eq (guard : StorageGuard α) (observationAt : Time) (additional : ℕ) :
    (guard.aedtStorageGrowthReservation site s account observationAt additional).2 =
      times ((s.aedtStorageGrowthReservationsByAccount site
        (observationAt - guard.maturitySeconds) account).totalProjects + additional)
        guard.perProjectGb := by
  unfold StorageGuard.aedtStorageGrowthReservation
  split
  · rename_i hnone
    rw [le_antisymm hnone guard.perProjectGb_nonneg, Gigabytes.times_zero]
  · rfl

theorem keeps_admitted {guard : StorageGuard α} {readings : String → StorageReadings α}
    (hbackends : site.ReadsBackends) {a : FeaAttempt} {s' : State}
    (h : reserveTask guard readings site s a = some (account, s'))
    (hcovered : s.Covered site account) :
    guard.Keeps (readings account) s' account := by
  unfold reserveTask at h
  split at h
  case h_2 => cases h
  case h_1 task allocation htask hallocation =>
      split at h
      · cases h
      split at h
      · cases h
      rename_i hopen
      obtain ⟨rfl, rfl⟩ := Prod.mk.inj (Option.some.inj h)
      intro free at' hfree
      have hheadroom := headroom_of_admitted hfree (Bool.eq_false_iff.mpr hopen)
      rw [StorageGuard.storageHeadroomBlocked, Bool.not_eq_false', decide_eq_true_eq,
        reserved_eq] at hheadroom
      refine le_trans hheadroom (Gigabytes.minus_le_minus
        (Gigabytes.times_le_times guard.perProjectGb_nonneg ?_))
      calc ((a.write site task allocation).exec s).ownProjects allocation.accountName
          ≤ s.ownProjects allocation.accountName + additionalProjects site task :=
            ownProjects_claimed htask hallocation (hbackends task)
        _ ≤ _ := Nat.add_le_add_right ((ownProjects_le_iff s site _ _).mpr hcovered) _

theorem keeps_admissions {guard : StorageGuard α} {readings : String → StorageReadings α}
    (hbackends : site.ReadsBackends) (s : State) (rounds : List Round)
    (hcovered : ∀ e ∈ admissions guard readings site s rounds, e.before.Covered site e.account) :
    ∀ e ∈ admissions guard readings site s rounds,
      guard.Keeps (readings e.account) e.after e.account := by
  induction rounds generalizing s with
  | nil => exact fun _ he ↦ absurd he List.not_mem_nil
  | cons round rounds ih =>
      cases round with
      | others s' => exact ih s' hcovered
      | attempt a =>
          cases hreserve : reserveTask guard readings site s a with
          | none =>
              simp only [admissions, hreserve] at hcovered ⊢
              exact ih s hcovered
          | some step =>
              obtain ⟨account, s'⟩ := step
              simp only [admissions, hreserve, List.forall_mem_cons] at hcovered ⊢
              exact ⟨keeps_admitted hbackends hreserve hcovered.1, ih s' hcovered.2⟩

end Guard

/-- The sample site, with the `strip` of texts without other blanks than spaces. -/
def ledgerSite : Site :=
  let strip (value : String) : String := String.ofList
    ((value.toList.dropWhile (· == ' ')).reverse.dropWhile (· == ' ')).reverse
  { sampleSite with svc := { Pool.sampleService with strip }, accounts := ["alpha", "beta"] }

theorem ledgerSite_readsBackends : ledgerSite.ReadsBackends := by
  intro task h
  rw [Task.sqlPooled, beq_iff_eq] at h
  have hlower : ledgerSite.svc.lower (ledgerSite.svc.strip task.aedtBackend) =
      String.ofList (((task.aedtBackend.toList.dropWhile (· == ' ')).reverse.dropWhile
        (· == ' ')).reverse.map Char.toLower) := by
    show String.ofList ((String.ofList _).toList.map Char.toLower) = _
    rw [String.toList_ofList]
  rw [Pool.Service.isPooled, hlower, h, String.ofList_toList]
  rfl

/-- A ready session of the first account with two slots, and two of its clients that have left
their slots.  The clients on the session are launched for the account of the argument. -/
def ledgerState (account : String) : State :=
  let client (accountName : String) (id : ℕ) : Task :=
    { id, status := .running, aedtBackend := "pooled", accountName := some accountName }
  { tasks := (((((Table.empty.insert (client account)).insert (client account)).insert
      (client "alpha")).insert (client "alpha")).insert fun id ↦
        { id, schedulingProfile := .feaBursty })
    allocations := Table.empty.insert fun id ↦ { id, accountName := "alpha", state := .active }
    pool :=
      { sessions := Table.empty.insert fun id ↦
          { id, allocationId := 1, slotsTotal := 2, state := .busy }
        leases := (Table.empty.insert fun id ↦
          { id, requestKey := "first", taskId := 1, sessionId := some 1, state := .active }).insert
            fun id ↦
          { id, requestKey := "second", taskId := 2, sessionId := some 1, state := .active } } }

def ledgerGuard : StorageGuard ℚ := ⟨1, 4, 0, by norm_num⟩

def ledgerReadings (free : ℚ) (_ : String) : StorageReadings ℚ :=
  { quotaProbe := some { isGpfs := true, quota := some (some free) }, quotaProbedAt := 0 }

def ledgerRounds : List Round := [.attempt ⟨5, 1, "token", 0, 0, 1⟩]

theorem ledgerReadings_observed (free : ℚ) (account : String) :
    ledgerGuard.observedFreeGb (ledgerReadings free account) = some (free, 0) := by
  have hguarded : ¬ ledgerGuard.minFreeGb ≤ 0 := by
    unfold ledgerGuard
    norm_num
  rw [StorageGuard.observedFreeGb, if_neg hguarded]
  rfl

end SlurmScheduler.Dispatch
