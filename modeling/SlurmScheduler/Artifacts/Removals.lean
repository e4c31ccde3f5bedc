import SlurmScheduler.Artifacts.Passes

namespace SlurmScheduler.Artifacts

open Posix Shell Slurm.Text
open Retention (normalizeRemotePath)
open Cleanup (Kept dirname dirname_spell)

def removeWords (operands : List Text) : List Token :=
  (["rm".toList, "-rf".toList, "--".toList] ++ operands).map literal

section Lines

variable {paths chunk : List Text} {line path : Text}

theorem reads_quoted (hne : paths ≠ []) :
    Reads ([' '].intercalate (paths.map quote)) (paths.map literal) := by
  induction paths with
  | nil => exact absurd rfl hne
  | cons first rest ih =>
    cases rest with
    | nil =>
      rw [List.map_singleton, List.intercalate_singleton]
      exact reads_word (quote_ne_nil first) (scan_quote first)
    | cons second rest =>
      rw [List.map_cons, List.map_cons, List.intercalate_cons_cons, List.append_assoc,
        List.singleton_append]
      exact reads_word_blank (quote_ne_nil first) (scan_quote first)
        (ih (List.cons_ne_nil second rest))

/-- The shell reads the line as `rm` with the paths themselves. -/
theorem reads_removeTreesLine (hne : paths ≠ []) :
    Reads (removeTreesLine paths) (removeWords paths) := by
  have hcommand : scanLine .between "rm -rf -- ".toList =
      some (.between, [literal "rm".toList, literal "-rf".toList, literal "--".toList]) := by
    decide
  exact reads_append hcommand (reads_quoted hne)

theorem literal_injective : Function.Injective literal := by
  intro text text' h
  have hparts : text.map Part.char = text'.map Part.char := by
    injection h
  exact List.map_injective_iff.mpr (fun c c' hc ↦ by injection hc) hparts

theorem operands_eq (hne : paths ≠ []) (h : Reads (removeTreesLine paths) (removeWords chunk)) :
    chunk = paths := by
  have hsame := (reads_iff.mp h).symm.trans (reads_iff.mp (reads_removeTreesLine hne))
  rw [removeWords, removeWords, Option.some_inj] at hsame
  have hwords := List.map_injective_iff.mpr literal_injective hsame
  exact List.append_cancel_left hwords

structure RemovalLine (paths : List Text) (line : Text) (operands : List Text) : Prop where
  eq : line = removeTreesLine operands
  ne_nil : operands ≠ []
  length_le : operands.length ≤ 100
  subset : operands ⊆ paths

theorem RemovalLine.reads (h : RemovalLine paths line chunk) : Reads line (removeWords chunk) :=
  h.eq ▸ reads_removeTreesLine h.ne_nil

end Lines

section Calls

variable {session : Session} {paths : List Text} {line path : Text} {status : Option ℕ}
  {chunks : List (List Text)} {i : ℕ}

theorem mem_removeSlices (h : (line, status) ∈ (removeSlices session i chunks).1) :
    ∃ chunk ∈ chunks, line = removeTreesLine chunk := by
  induction chunks generalizing i with
  | nil => cases h
  | cons chunk chunks ih =>
    rw [removeSlices] at h
    split at h
    · obtain heq | hrest := List.mem_cons.mp h
      · exact ⟨chunk, List.mem_cons_self, congrArg Prod.fst heq⟩
      · obtain ⟨chunk', hchunk', heq⟩ := ih hrest
        exact ⟨chunk', List.mem_cons_of_mem chunk hchunk', heq⟩
    · exact ⟨chunk, List.mem_cons_self, congrArg Prod.fst (List.mem_singleton.mp h)⟩

/-- A call that returns has sent every line, and each has succeeded; one that does not has sent one
that has not. -/
theorem removeSlices_returns : if (removeSlices session i chunks).2 = true then
    (removeSlices session i chunks).1 = chunks.map fun chunk ↦ (removeTreesLine chunk, some 0)
    else ∃ line status, (line, status) ∈ (removeSlices session i chunks).1 ∧ status ≠ some 0 := by
  induction chunks generalizing i with
  | nil => rfl
  | cons chunk chunks ih =>
    rw [removeSlices]
    by_cases hstatus : session.status i = some 0
    · have hrest := @ih (i + 1)
      rw [if_pos hstatus]
      split
      · rename_i hreturns
        rw [if_pos hreturns] at hrest
        rw [List.map_cons, hstatus, ← hrest]
      · rename_i hreturns
        rw [if_neg hreturns] at hrest
        obtain ⟨line, status, hmem, hfailed⟩ := hrest
        exact ⟨line, status, List.mem_cons_of_mem _ hmem, hfailed⟩
    · rw [if_neg hstatus, if_neg Bool.false_ne_true]
      exact ⟨_, _, List.mem_singleton_self _, hstatus⟩

/-- Where there is nothing to remove, no session is opened and no line is sent. -/
theorem removeTrees_eq : removeTrees session paths =
    if paths.filter (stripChars · ≠ []) = [] ∨ session.opens = true then
      removeSlices session 0 (slices 100 (paths.filter (stripChars · ≠ [])))
    else ([], false) := by
  rw [removeTrees]
  by_cases hnil : paths.filter (stripChars · ≠ []) = []
  · rw [if_pos hnil, if_pos (.inl hnil), hnil]
    rfl
  · rw [if_neg hnil]
    by_cases hopens : session.opens = true
    · rw [if_pos hopens, if_pos (.inr hopens)]
    · rw [if_neg hopens, if_neg (not_or.mpr ⟨hnil, hopens⟩)]

theorem mem_removeTrees (h : (line, status) ∈ (removeTrees session paths).1) :
    ∃ operands, RemovalLine paths line operands := by
  rw [removeTrees_eq] at h
  split at h
  · obtain ⟨chunk, hchunk, heq⟩ := mem_removeSlices h
    have hbounds := slicesOf_bounds (by decide) hchunk
    refine ⟨chunk, heq, hbounds.1, hbounds.2, fun path hpath ↦ ?_⟩
    have hflatten := List.mem_flatten_of_mem hchunk hpath
    rw [flatten_slices (by decide)] at hflatten
    exact (List.mem_filter.mp hflatten).1
  · cases h

theorem removeTrees_sent (h : (removeTrees session paths).2 = true) :
    (∀ line status, (line, status) ∈ (removeTrees session paths).1 → status = some 0) ∧
      ∀ path ∈ paths, stripChars path ≠ [] → ∃ line operands,
        (line, some 0) ∈ (removeTrees session paths).1 ∧ RemovalLine paths line operands ∧
          path ∈ operands := by
  have hlines : (removeTrees session paths).1 =
      (slices 100 (paths.filter (stripChars · ≠ []))).map fun chunk ↦
        (removeTreesLine chunk, some 0) := by
    rw [removeTrees_eq] at h ⊢
    split at h
    · rename_i hsends
      rw [if_pos hsends]
      have hreturns := @removeSlices_returns session
        (slices 100 (paths.filter (stripChars · ≠ []))) 0
      rw [if_pos h] at hreturns
      exact hreturns
    · cases h
  constructor
  · intro line status hmem
    rw [hlines] at hmem
    obtain ⟨chunk, -, heq⟩ := List.mem_map.mp hmem
    exact (congrArg Prod.snd heq).symm
  · intro path hpath hfilled
    have hmem : path ∈ (slices 100 (paths.filter (stripChars · ≠ []))).flatten := by
      rw [flatten_slices (by decide)]
      exact List.mem_filter.mpr ⟨hpath, decide_eq_true hfilled⟩
    obtain ⟨chunk, hchunk, hin⟩ := List.mem_flatten.mp hmem
    have hline : (removeTreesLine chunk, some 0) ∈ (removeTrees session paths).1 := by
      rw [hlines]
      exact List.mem_map.mpr ⟨chunk, hchunk, rfl⟩
    obtain ⟨operands, hoperands⟩ := mem_removeTrees hline
    have hne := (slicesOf_bounds (by decide) hchunk).1
    rw [operands_eq hne hoperands.reads] at hoperands
    exact ⟨_, chunk, hline, hoperands, hin⟩

theorem removeTrees_failed (h : (removeTrees session paths).2 = false) :
    (removeTrees session paths).1 = [] ∨
      ∃ line status, (line, status) ∈ (removeTrees session paths).1 ∧ status ≠ some 0 := by
  rw [removeTrees_eq] at h ⊢
  split at h
  · rename_i hsends
    rw [if_pos hsends]
    have hreturns := @removeSlices_returns session
      (slices 100 (paths.filter (stripChars · ≠ []))) 0
    rw [h, if_neg Bool.false_ne_true] at hreturns
    exact .inr hreturns
  · rename_i hsends
    rw [if_neg hsends]
    exact .inl rfl

end Calls

section Effects

variable {accounts : List Account} {table : Table} {session : Session} {account : Account}
  {items rows : List Row} {line : Text} {status : Option ℕ} {cutoff : Text}
  {sessions : Account → Session} {prefixes paths : List Text}

theorem mem_removals {account' : Account} {lines : List (Text × Option ℕ)} :
    Effect.removal account' line status ∈ removals account lines ↔
      account' = account ∧ (line, status) ∈ lines := by
  constructor
  · intro h
    obtain ⟨sent, hsent, heq⟩ := List.mem_map.mp h
    cases heq
    exact ⟨rfl, hsent⟩
  · intro h
    exact List.mem_map.mpr ⟨(line, status), h.2, by rw [h.1]⟩

theorem update_notMem_removals {lines : List (Text × Option ℕ)} {id : ℕ}
    {fields : List (Text × Text)} : Effect.update table id fields ∉ removals account lines := by
  intro h
  obtain ⟨sent, -, heq⟩ := List.mem_map.mp h
  cases heq

theorem removeSchedulerArtifacts_of_safe
    (h : ∀ path ∈ paths, isSafeSchedulerArtifactPath account.remoteWorkspace path prefixes = true) :
    removeSchedulerArtifacts account session paths prefixes =
      ((removeTrees session paths).1, if (removeTrees session paths).2 = true then paths else []) := by
  rw [removeSchedulerArtifacts]
  dsimp only
  rw [List.filter_eq_self.mpr h]
  split
  · rename_i hnil
    rw [hnil]
    rfl
  · rfl

/-- Rows of an account whose paths pass the check -/
def Checked (table : Table) (account : Account) (items : List Row) : Prop :=
  ∀ row ∈ items, isSafeSchedulerArtifactPath account.remoteWorkspace row.remoteDir
    table.prefixes = true

def accountEffects (table : Table) (session : Session) (account : Account) (items : List Row) :
    List Effect :=
  removals account (removeTrees session (items.map (·.remoteDir))).1 ++
    if (removeTrees session (items.map (·.remoteDir))).2 = true then
      items.map fun row ↦ .update table row.id table.cleared
    else []

theorem cleanupAccount_eq (h : Checked table account items) :
    cleanupAccount table session account items = accountEffects table session account items := by
  have hpaths : ∀ path ∈ items.map (·.remoteDir),
      isSafeSchedulerArtifactPath account.remoteWorkspace path table.prefixes = true := by
    intro path hpath
    obtain ⟨row, hrow, rfl⟩ := List.mem_map.mp hpath
    exact h row hrow
  rw [cleanupAccount, accountEffects, removeSchedulerArtifacts_of_safe hpaths]
  dsimp only
  split
  · have hall : items.filter ((items.map (·.remoteDir)).contains ·.remoteDir) = items := by
      rw [List.filter_eq_self]
      exact fun row hrow ↦ List.contains_iff_mem.mpr (List.mem_map_of_mem hrow)
    rw [hall]
  · simp

theorem mem_cleanupCandidates {row : Row} :
    (account, row) ∈ cleanupCandidates accounts table rows ↔
      row ∈ rows ∧ accountByName accounts row.accountName = some account ∧
        isSafeSchedulerArtifactPath account.remoteWorkspace row.remoteDir table.prefixes = true := by
  rw [cleanupCandidates, List.mem_filterMap]
  constructor
  · intro h
    obtain ⟨row', hrow, hsome⟩ := h
    obtain ⟨account', haccount, hrest⟩ := Option.bind_eq_some_iff.mp hsome
    split at hrest
    · rename_i hsafe
      cases hrest
      exact ⟨hrow, haccount, hsafe⟩
    · cases hrest
  · intro h
    obtain ⟨hrow, haccount, hsafe⟩ := h
    refine ⟨row, hrow, ?_⟩
    rw [haccount, Option.bind_eq_bind, Option.bind_some, if_pos hsafe]

def itemsOf (accounts : List Account) (table : Table) (rows : List Row) (account : Account) :
    List Row :=
  ((cleanupCandidates accounts table rows).filter (·.1 = account)).map (·.2)

theorem mem_itemsOf {row : Row} : row ∈ itemsOf accounts table rows account ↔
    (account, row) ∈ cleanupCandidates accounts table rows := by
  rw [itemsOf, List.mem_map]
  constructor
  · intro h
    obtain ⟨candidate, hcandidate, rfl⟩ := h
    obtain ⟨hmem, haccount⟩ := List.mem_filter.mp hcandidate
    rw [← of_decide_eq_true haccount]
    exact hmem
  · exact fun h ↦ ⟨(account, row), List.mem_filter.mpr ⟨h, decide_eq_true rfl⟩, rfl⟩

theorem checked_itemsOf : Checked table account (itemsOf accounts table rows account) :=
  fun _ hrow ↦ (mem_cleanupCandidates.mp (mem_itemsOf.mp hrow)).2.2

def cleanedAccounts (accounts : List Account) (table : Table) (rows : List Row) : List Account :=
  ((cleanupCandidates accounts table rows).map (·.1)).eraseDups

theorem mem_cleanedAccounts (h : account ∈ cleanedAccounts accounts table rows) :
    account ∈ accounts := by
  obtain ⟨⟨account', row⟩, hrow, rfl⟩ := List.mem_map.mp (List.mem_eraseDups.mp h)
  exact List.mem_of_find?_eq_some (mem_cleanupCandidates.mp hrow).2.1

theorem cleanupRows_eq : cleanupRows accounts table cutoff rows sessions =
    (cleanedAccounts accounts table (listFinishedForCleanup table cutoff rows)).flatMap
      fun account ↦ accountEffects table (sessions account) account
        (itemsOf accounts table (listFinishedForCleanup table cutoff rows) account) := by
  rw [cleanupRows]
  congr 1
  funext account
  exact cleanupAccount_eq checked_itemsOf

theorem prefixes_ne_nil : [] ∉ table.prefixes := by
  cases table
  all_goals decide

structure SafeLine (accounts : List Account) (prefixes : List Text) (account : Account)
    (line : Text) (operands : List Text) : Prop where
  configured : account ∈ accounts
  reads : Reads line (removeWords operands)
  ne_nil : operands ≠ []
  length_le : operands.length ≤ 100
  safe : ∀ path ∈ operands,
    isSafeSchedulerArtifactPath account.remoteWorkspace path prefixes = true

theorem safeLine_of_removeTrees (haccount : account ∈ accounts)
    (hsafe : ∀ path ∈ paths,
      isSafeSchedulerArtifactPath account.remoteWorkspace path prefixes = true)
    (h : (line, status) ∈ (removeTrees session paths).1) :
    ∃ operands, SafeLine accounts prefixes account line operands := by
  obtain ⟨operands, hline⟩ := mem_removeTrees h
  exact ⟨operands, haccount, hline.reads, hline.ne_nil, hline.length_le,
    fun path hpath ↦ hsafe path (hline.subset hpath)⟩

theorem safeLine_of_cleanupRows
    (h : .removal account line status ∈ cleanupRows accounts table cutoff rows sessions) :
    ∃ operands, SafeLine accounts table.prefixes account line operands := by
  rw [cleanupRows_eq] at h
  obtain ⟨account', hmem, heffect⟩ := List.mem_flatMap.mp h
  obtain hremoval | hupdate := List.mem_append.mp heffect
  · obtain ⟨rfl, hline⟩ := mem_removals.mp hremoval
    refine safeLine_of_removeTrees (mem_cleanedAccounts hmem) ?_ hline
    intro path hpath
    obtain ⟨row, hrow, rfl⟩ := List.mem_map.mp hpath
    exact checked_itemsOf row hrow
  · split at hupdate
    · obtain ⟨row, -, heq⟩ := List.mem_map.mp hupdate
      cases heq
    · cases hupdate

/-- A line of the sweep removes directories that no row names. -/
theorem safeLine_of_sweep {db : Database} {listings : Account → Option String}
    (h : .removal account line status ∈
      sweepOrphanRemoteArtifacts accounts db listings sessions) :
    ∃ operands, SafeLine accounts sweepPrefixes account line operands ∧
      ∀ path ∈ operands, stripChars path = path ∧
        normalizeRemotePath path ∉ referenced db.listReferencedRemotePaths := by
  obtain ⟨account', hmem, heffect⟩ := List.mem_flatMap.mp h
  split at heffect
  · cases heffect
  split at heffect
  · cases heffect
  rename_i stdout hlisting
  obtain ⟨rfl, hline⟩ := mem_removals.mp heffect
  obtain ⟨operands, hremoval⟩ := mem_removeTrees hline
  have hcandidate : ∀ path ∈ operands, stripChars path = path ∧
      normalizeRemotePath path ∉ referenced db.listReferencedRemotePaths ∧
      isSafeSchedulerArtifactPath account.remoteWorkspace path sweepPrefixes = true := by
    intro path hpath
    obtain ⟨hlisted, hkept⟩ := List.mem_filter.mp (hremoval.subset hpath)
    obtain ⟨text, -, rfl⟩ := List.mem_map.mp hlisted
    obtain ⟨-, hfree, hsafe⟩ := of_decide_eq_true hkept
    rw [List.contains_iff_mem] at hfree
    exact ⟨stripChars_idem text, hfree, hsafe⟩
  exact ⟨operands, ⟨hmem, hremoval.reads, hremoval.ne_nil, hremoval.length_le,
    fun path hpath ↦ (hcandidate path hpath).2.2⟩,
    fun path hpath ↦ ⟨(hcandidate path hpath).1, (hcandidate path hpath).2.1⟩⟩

end Effects

theorem SafeLine.below {accounts : List Account} {prefixes : List Text} {account : Account}
    {line : Text} {operands : List Text} (h : SafeLine accounts prefixes account line operands)
    (hprefixes : [] ∉ prefixes) (home : List Text) {path : Text} (hpath : path ∈ operands) :
    ∃ (upper : List Text) (last : Text),
      checkedDir home path = checkedDir home account.remoteWorkspace ++ upper ++ [last] ∧
        ∃ start ∈ prefixes, start <+: last := by
  obtain ⟨slashes, root, upper, last, hlocated⟩ := located_of_safe hprefixes (h.safe path hpath)
  exact ⟨upper, last, hlocated.resolve_artifact home, hlocated.named⟩

theorem prefixes_subset (table : Table) : table.prefixes ⊆ sweepPrefixes := by
  cases table
  all_goals decide

/-- Whatever the tables hold, the accounts list and the connections do, each line of a pass is read
by the shell as a removal of at most a hundred paths.  Each of them is below the workspace of the
account, in a directory that is named as one of a task, a job or an allocation. -/
theorem removed_below_workspace {accounts : List Account} {cutoffs : Cutoffs} {met : Encounter}
    {account : Account} {line : Text} {status : Option ℕ}
    (h : .removal account line status ∈ cleanupRemoteArtifacts accounts cutoffs met)
    (home : List Text) : account ∈ accounts ∧ ∃ operands, Reads line (removeWords operands) ∧
      operands ≠ [] ∧ operands.length ≤ 100 ∧ ∀ path ∈ operands,
        ∃ (upper : List Text) (last : Text), (∃ start ∈ sweepPrefixes, start <+: last) ∧
          checkedDir home path = checkedDir home account.remoteWorkspace ++ upper ++ [last] ∧
          (stripChars path = path → Unmarked path →
            resolve home path = checkedDir home account.remoteWorkspace ++ upper ++ [last]) := by
  have hline : ∃ prefixes operands, [] ∉ prefixes ∧ prefixes ⊆ sweepPrefixes ∧
      SafeLine accounts prefixes account line operands := by
    have hrows : ∀ (table : Table) (cutoff : Text) (rows : List Row)
        (sessions : Account → Session),
        .removal account line status ∈ cleanupRows accounts table cutoff rows sessions →
        ∃ prefixes operands, [] ∉ prefixes ∧ prefixes ⊆ sweepPrefixes ∧
          SafeLine accounts prefixes account line operands := by
      intro table cutoff rows sessions hmem
      obtain ⟨operands, hsafe⟩ := safeLine_of_cleanupRows hmem
      exact ⟨table.prefixes, operands, prefixes_ne_nil, prefixes_subset table, hsafe⟩
    obtain hcleaned | hswept := List.mem_append.mp h
    · obtain hmost | hallocations := List.mem_append.mp hcleaned
      · obtain htasks | hjobs := List.mem_append.mp hmost
        · exact hrows _ _ _ _ htasks
        · exact hrows _ _ _ _ hjobs
      · exact hrows _ _ _ _ hallocations
    · cases hdue : met.swept with
      | none =>
        rw [hdue] at hswept
        cases hswept
      | some db =>
        rw [hdue] at hswept
        obtain ⟨operands, hsafe, -⟩ := safeLine_of_sweep hswept
        exact ⟨sweepPrefixes, operands, by decide, List.Subset.refl _, hsafe⟩
  obtain ⟨prefixes, operands, hprefixes, hsubset, hsafe⟩ := hline
  refine ⟨hsafe.configured, operands, hsafe.reads, hsafe.ne_nil, hsafe.length_le, ?_⟩
  intro path hpath
  obtain ⟨upper, last, hbelow, start, hstart, hbegins⟩ := hsafe.below hprefixes home hpath
  refine ⟨upper, last, ⟨start, hsubset hstart, hbegins⟩, hbelow, fun hstrip hplain ↦ ?_⟩
  rw [resolve_unmarked hstrip hplain, hbelow]

def relativeAccount : Account := { name := "a".toList, remoteWorkspace := "ws".toList }

/-- One old directory is listed, and no row names it. -/
theorem removed_below_workspace_task : ∃ operands,
    Reads (removeTreesLine ["ws/runs/d/task-1".toList]) (removeWords operands) ∧
      ∀ path ∈ operands, ∃ (upper : List Text) (last : Text),
        checkedDir ["h".toList] path = ["h".toList, "ws".toList] ++ upper ++ [last] := by
  have hremoval : Effect.removal relativeAccount (removeTreesLine ["ws/runs/d/task-1".toList])
      (some 0) ∈ cleanupRemoteArtifacts [relativeAccount]
        { tasks := [], jobs := [], allocations := [] }
        { tasks := [], jobs := [], allocations := []
          swept := some { tasks := [], jobs := [], allocations := [], envSyncTargets := [] }
          sessions := fun _ _ ↦ { opens := true, status := fun _ ↦ some 0 }
          listings := fun _ ↦ some "ws/runs/d/task-1\n" } := by
    apply List.mem_append_right
    decide +kernel
  obtain ⟨-, operands, hreads, -, -, hbelow⟩ := removed_below_workspace hremoval ["h".toList]
  refine ⟨operands, hreads, fun path hpath ↦ ?_⟩
  obtain ⟨upper, last, -, hdir, -⟩ := hbelow path hpath
  exact ⟨upper, last, hdir⟩

end SlurmScheduler.Artifacts
