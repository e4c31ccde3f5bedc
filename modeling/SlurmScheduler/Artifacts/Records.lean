import SlurmScheduler.Artifacts.Removals

namespace SlurmScheduler.Artifacts

open Posix Shell Slurm.Text
open Retention (normalizeRemotePath ordinary_of_kept dotDot_notMem_below)
open Cleanup (dirname dirname_spell)

section Sweep

variable {workspace artifact path : Text} {prefixes : List Text} {slashes : ℕ}
  {root upper : List Text} {last : Text}

/-- A path in a workspace that an artifact is in, as names below the same directory -/
theorem Located.spelled (h : Located workspace artifact prefixes slashes root upper last)
    (hbelow : normalizeRemotePath workspace ++ ['/'] <+: normalizeRemotePath path) :
    ∃ names : List Text, normalizeRemotePath path = spell slashes names ∧
      ∀ name ∈ names, IsName name ∧ Ordinary name := by
  obtain ⟨slashes', names, hle, hkept, hnames, hspelled⟩ := spelled_of_below hbelow
  rw [hspelled] at hbelow ⊢
  obtain ⟨hne, hspell⟩ | ⟨-, -, hspell⟩ := h.workspace
  · have hroot : ∀ name ∈ root, IsName name ∧ Ordinary name := fun name hname ↦
      h.names name (List.mem_append_left _ (List.mem_append_left _ hname))
    rw [hspell, spell_slash_prefix (fun name hname ↦ (hroot name hname).1) hnames hne] at hbelow
    obtain ⟨rfl, hbegins, -⟩ := hbelow
    have hback : dotDot ∉ names := by
      apply dotDot_notMem_below hkept _ hbegins fun hnil ↦ absurd hnil hne
      exact fun hmem ↦ (hroot dotDot hmem).2.2.2 rfl
    exact ⟨names, rfl, fun name hname ↦ ⟨hnames name hname,
      ordinary_of_kept hkept hback name hname⟩⟩
  · -- no such path has three slashes at its beginning
    rw [hspell] at hbelow
    exfalso
    obtain ⟨rest, hrest⟩ := hbelow
    have hhead := joinNames_head hnames
    obtain rfl | rfl | rfl : slashes' = 0 ∨ slashes' = 1 ∨ slashes' = 2 := by omega
    all_goals
      simp only [spell_succ, spell_zero] at hrest
      rw [show joinNames [] = [] from rfl] at hrest
      simp only [List.nil_append, List.cons_append] at hrest
    · rw [← hrest] at hhead
      exact hhead rfl
    · injection hrest with _ hrest
      rw [← hrest] at hhead
      exact hhead rfl
    · injection hrest with _ hrest
      injection hrest with _ hrest
      rw [← hrest] at hhead
      exact hhead rfl

end Sweep

theorem prefix_flatMap {α β : Type} {f : α → List β} {xs : List α} {front : List β} {e : β}
    (h : front ++ [e] <+: xs.flatMap f) : ∃ (before : List α) (x : α) (after : List α)
      (inner : List β), xs = before ++ x :: after ∧ front = before.flatMap f ++ inner ∧
        inner ++ [e] <+: f x := by
  induction xs generalizing front with
  | nil => exact absurd (List.prefix_nil.mp h) (by simp)
  | cons x xs ih =>
    rw [List.flatMap_cons] at h
    have hfirst : front ++ [e] <+: f x ∨ f x <+: front := by
      obtain hwithin | hbeyond := List.prefix_or_prefix_of_prefix h (List.prefix_append (f x) _)
      · exact .inl hwithin
      · obtain heq | hfront := List.prefix_concat_iff.mp hbeyond
        · exact .inl (heq ▸ List.prefix_rfl)
        · exact .inr hfront
    obtain hwithin | ⟨front', rfl⟩ := hfirst
    · exact ⟨[], x, xs, front, rfl, rfl, hwithin⟩
    · rw [List.append_assoc, List.prefix_append_right_inj] at h
      obtain ⟨before, x', after, inner, rfl, rfl, hinner⟩ := ih h
      refine ⟨x :: before, x', after, inner, rfl, ?_, hinner⟩
      rw [List.flatMap_cons, List.append_assoc]

/-- Every line that an account has got has succeeded, and one of them has removed the path. -/
structure Removed (effects : List Effect) (account : Account) (path : Text) : Prop where
  succeeded : ∀ line status, .removal account line status ∈ effects → status = some 0
  removed : ∃ line operands, .removal account line (some 0) ∈ effects ∧
    Reads line (removeWords operands) ∧ path ∈ operands

section Rows

variable {accounts : List Account} {table : Table} {session : Session} {account : Account}
  {items rows : List Row} {line : Text} {status : Option ℕ} {cutoff : Text}
  {sessions : Account → Session}

theorem removal_mem_accountEffects {account' : Account}
    (h : Effect.removal account' line status ∈ accountEffects table session account items) :
    account' = account ∧ (line, status) ∈ (removeTrees session (items.map (·.remoteDir))).1 := by
  obtain hremoval | hupdate := List.mem_append.mp h
  · exact mem_removals.mp hremoval
  · split at hupdate
    · obtain ⟨row, -, heq⟩ := List.mem_map.mp hupdate
      cases heq
    · cases hupdate

/-- Before a row of an account is cleared, the account has answered every line, and one of them has
removed the directory. -/
theorem update_of_accountEffects {inner : List Effect} {table' : Table} {id : ℕ}
    {fields : List (Text × Text)} (hchecked : Checked table account items)
    (h : inner ++ [.update table' id fields] <+: accountEffects table session account items) :
    table' = table ∧ fields = table.cleared ∧
      (∀ line status, .removal account line status ∈ accountEffects table session account items →
        .removal account line status ∈ inner) ∧
      ∃ row ∈ items, row.id = id ∧ Removed inner account row.remoteDir := by
  have hmem : Effect.update table' id fields ∈ accountEffects table session account items :=
    h.subset (by simp)
  obtain hremoval | hupdate := List.mem_append.mp hmem
  · exact absurd hremoval update_notMem_removals
  split at hupdate
  case isFalse => cases hupdate
  rename_i hreturns
  obtain ⟨row, hrow, heq⟩ := List.mem_map.mp hupdate
  cases heq
  obtain ⟨hall, hsent⟩ := removeTrees_sent hreturns
  -- every removal of the account stands before its updates
  have hfront : removals account (removeTrees session (items.map (·.remoteDir))).1 <+: inner := by
    rw [accountEffects] at h
    obtain hwithin | hbeyond :=
      List.prefix_or_prefix_of_prefix h (List.prefix_append (removals account _) _)
    · exact absurd (hwithin.subset (List.mem_append_right _ (List.mem_singleton_self _)))
        update_notMem_removals
    · obtain heq | hinner := List.prefix_concat_iff.mp hbeyond
      · exact absurd (heq ▸ List.mem_append_right _ (List.mem_singleton_self _))
          update_notMem_removals
      · exact hinner
  have hlines : ∀ line status,
      .removal account line status ∈ accountEffects table session account items →
        .removal account line status ∈ inner := fun line status hline ↦
    hfront.subset (mem_removals.mpr (removal_mem_accountEffects hline))
  refine ⟨rfl, rfl, hlines, row, hrow, rfl, ?_, ?_⟩
  · intro line status hline
    have hwhole := h.subset (List.mem_append_left _ hline)
    exact hall line status (removal_mem_accountEffects hwhole).2
  · obtain ⟨line, operands, hline, hremoval, hpath⟩ := hsent row.remoteDir
      (List.mem_map_of_mem hrow) (stripChars_of_safe prefixes_ne_nil (hchecked row hrow))
    exact ⟨line, operands, hfront.subset (mem_removals.mpr ⟨rfl, hline⟩), hremoval.reads, hpath⟩

theorem removal_mem_cleanupRows
    (h : .removal account line status ∈ cleanupRows accounts table cutoff rows sessions) :
    .removal account line status ∈ accountEffects table (sessions account) account
      (itemsOf accounts table (listFinishedForCleanup table cutoff rows) account) := by
  rw [cleanupRows_eq] at h
  obtain ⟨account', -, heffect⟩ := List.mem_flatMap.mp h
  rw [(removal_mem_accountEffects heffect).1]
  rw [(removal_mem_accountEffects heffect).1] at heffect
  exact heffect

theorem removed_of_cleared {front : List Effect} {table' : Table} {id : ℕ}
    {fields : List (Text × Text)}
    (h : front ++ [.update table' id fields] <+: cleanupRows accounts table cutoff rows sessions) :
    table' = table ∧ fields = table.cleared ∧
      ∃ row ∈ listFinishedForCleanup table cutoff rows, row.id = id ∧
        ∃ account, accountByName accounts row.accountName = some account ∧
          Removed (cleanupRows accounts table cutoff rows sessions) account row.remoteDir ∧
          ∀ line status, .removal account line status ∈
            cleanupRows accounts table cutoff rows sessions →
              .removal account line status ∈ front := by
  have hwhole := h
  rw [cleanupRows_eq] at h
  obtain ⟨before, account, after, inner, -, rfl, hinner⟩ := prefix_flatMap h
  obtain ⟨htable, hfields, hlines, row, hrow, hid, hremoved⟩ :=
    update_of_accountEffects checked_itemsOf hinner
  obtain ⟨hlisted, haccount, -⟩ := mem_cleanupCandidates.mp (mem_itemsOf.mp hrow)
  have hfront : ∀ line status, .removal account line status ∈
      cleanupRows accounts table cutoff rows sessions → .removal account line status ∈ inner :=
    fun line status hline ↦ hlines line status (removal_mem_cleanupRows hline)
  refine ⟨htable, hfields, row, hlisted, hid, account, haccount, ⟨?_, ?_⟩, ?_⟩
  · exact fun line status hline ↦ hremoved.succeeded line status (hfront line status hline)
  · obtain ⟨line, operands, hline, hrest⟩ := hremoved.removed
    refine ⟨line, operands, hwhole.subset ?_, hrest⟩
    exact List.mem_append_left _ (List.mem_append_right _ hline)
  · exact fun line status hline ↦ List.mem_append_right _ (hfront line status hline)

/-- A row whose directory has been removed was a candidate for the cleanup. -/
theorem item_of_removed {row : Row} (hrow : row ∈ listFinishedForCleanup table cutoff rows)
    (haccount : accountByName accounts row.accountName = some account)
    (hremoved : Removed (cleanupRows accounts table cutoff rows sessions) account row.remoteDir) :
    row ∈ itemsOf accounts table (listFinishedForCleanup table cutoff rows) account := by
  obtain ⟨line, operands, hline, hreads, hpath⟩ := hremoved.removed
  obtain ⟨operands', hsafe⟩ := safeLine_of_cleanupRows hline
  have hwords := (reads_iff.mp hreads).symm.trans (reads_iff.mp hsafe.reads)
  rw [removeWords, removeWords, Option.some_inj] at hwords
  have hsame : operands = operands' :=
    List.append_cancel_left (List.map_injective_iff.mpr literal_injective hwords)
  exact mem_itemsOf.mpr (mem_cleanupCandidates.mpr
    ⟨hrow, haccount, hsafe.safe row.remoteDir (hsame ▸ hpath)⟩)

theorem cleared_of_removed {row : Row} (hrow : row ∈ listFinishedForCleanup table cutoff rows)
    (haccount : accountByName accounts row.accountName = some account)
    (hremoved : Removed (cleanupRows accounts table cutoff rows sessions) account row.remoteDir) :
    .update table row.id table.cleared ∈ cleanupRows accounts table cutoff rows sessions := by
  have hitem := item_of_removed hrow haccount hremoved
  have hcleaned : account ∈ cleanedAccounts accounts table
      (listFinishedForCleanup table cutoff rows) :=
    List.mem_eraseDups.mpr (List.mem_map_of_mem (mem_itemsOf.mp hitem))
  obtain ⟨line, operands, hline, -⟩ := hremoved.removed
  have hsucceeded := hremoved.succeeded
  rw [cleanupRows_eq] at hline hsucceeded ⊢
  refine List.mem_flatMap.mpr ⟨account, hcleaned, List.mem_append_right _ ?_⟩
  by_cases hreturns : (removeTrees (sessions account) ((itemsOf accounts table
      (listFinishedForCleanup table cutoff rows) account).map (·.remoteDir))).2 = true
  · rw [if_pos hreturns]
    exact List.mem_map_of_mem hitem
  · exfalso
    obtain hnone | ⟨line', status, hline', hfailed⟩ :=
      removeTrees_failed (Bool.eq_false_of_not_eq_true hreturns)
    · obtain ⟨account', -, heffect⟩ := List.mem_flatMap.mp hline
      obtain ⟨rfl, hsent⟩ := removal_mem_accountEffects heffect
      rw [hnone] at hsent
      cases hsent
    · apply hfailed
      apply hsucceeded line' status
      exact List.mem_flatMap.mpr ⟨account, hcleaned,
        List.mem_append_left _ (mem_removals.mpr ⟨rfl, hline'⟩)⟩

/-- A row is cleared if and only if its account has answered every line of the call with success
and one of the lines has removed its directory, and it is cleared after all of them.  Where a line
of an account fails, no row of it is cleared. -/
theorem cleared_iff_removed (accounts : List Account) (table : Table) (cutoff : Text)
    (rows : List Row) (sessions : Account → Session) :
    (∀ (front : List Effect) (table' : Table) (id : ℕ) (fields : List (Text × Text)),
      front ++ [.update table' id fields] <+: cleanupRows accounts table cutoff rows sessions →
        table' = table ∧ fields = table.cleared ∧
          ∃ row ∈ listFinishedForCleanup table cutoff rows, row.id = id ∧
            ∃ account, accountByName accounts row.accountName = some account ∧
              Removed (cleanupRows accounts table cutoff rows sessions) account row.remoteDir ∧
              ∀ line status, .removal account line status ∈
                cleanupRows accounts table cutoff rows sessions →
                  .removal account line status ∈ front) ∧
    (∀ row ∈ listFinishedForCleanup table cutoff rows, ∀ account,
      accountByName accounts row.accountName = some account →
        Removed (cleanupRows accounts table cutoff rows sessions) account row.remoteDir →
          .update table row.id table.cleared ∈ cleanupRows accounts table cutoff rows sessions) ∧
    ∀ account line status,
      .removal account line status ∈ cleanupRows accounts table cutoff rows sessions →
        status ≠ some 0 → ∀ row ∈ listFinishedForCleanup table cutoff rows,
          accountByName accounts row.accountName = some account →
            (∀ other ∈ listFinishedForCleanup table cutoff rows, other.id = row.id →
              other = row) →
              ∀ fields, .update table row.id fields ∉
                cleanupRows accounts table cutoff rows sessions := by
  refine ⟨fun _ _ _ _ h ↦ removed_of_cleared h, fun _ hrow _ ↦ cleared_of_removed hrow, ?_⟩
  intro account line status hline hfailed row hrow haccount hunique fields hupdate
  obtain ⟨front, rest, heq⟩ := List.append_of_mem hupdate
  have hprefix : front ++ [.update table row.id fields] <+:
      cleanupRows accounts table cutoff rows sessions := ⟨rest, by rw [heq]; simp⟩
  obtain ⟨-, -, other, hother, hid, account', haccount', hremoved, -⟩ := removed_of_cleared hprefix
  rw [hunique other hother hid, haccount] at haccount'
  cases haccount'
  exact hfailed (hremoved.succeeded line status hline)

end Rows

end SlurmScheduler.Artifacts
