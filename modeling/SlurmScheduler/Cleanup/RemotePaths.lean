import Mathlib.Data.List.TakeWhile
import SlurmScheduler.Cleanup.Workspaces
import SlurmScheduler.Posix.Paths

namespace SlurmScheduler.Cleanup

open Posix

theorem splitSlash_eq (path : List Char) : splitSlash path = components path := by
  induction path with
  | nil => rfl
  | cons c path ih =>
    rw [splitSlash, components_cons, ih]
    by_cases hc : c = '/'
    · rw [if_pos (beq_iff_eq.mpr hc), if_pos hc]
    · rw [if_neg (fun h ↦ hc (beq_iff_eq.mp h)), if_neg hc]
      cases hsplit : components path with
      | nil => exact absurd hsplit (components_ne_nil path)
      | cons first rest => rfl

theorem initialSlashes_eq_zero {path : List Char} :
    initialSlashes path = 0 ↔ path.head? ≠ some '/' := by
  unfold initialSlashes
  split
  · simp
  · simp
  · simp
  · rename_i h
    refine ⟨fun _ hhead ↦ ?_, fun _ ↦ rfl⟩
    obtain ⟨rest, hrest⟩ := List.head?_eq_some_iff.mp hhead
    exact h rest hrest

theorem initialSlashes_le (path : List Char) : initialSlashes path ≤ 2 := by
  unfold initialSlashes
  split
  all_goals omega

def normalNames (path : List Char) : List (List Char) :=
  ((splitSlash path).foldl (pushComponent (initialSlashes path)) []).reverse

theorem normpath_eq (path : List Char) : normpath path =
    if spell (initialSlashes path) (normalNames path) = [] then dot
    else spell (initialSlashes path) (normalNames path) := by
  have hspell : List.replicate (initialSlashes path) '/' ++ ['/'].intercalate
      ((splitSlash path).foldl (pushComponent (initialSlashes path)) []).reverse =
        spell (initialSlashes path) (normalNames path) := rfl
  rw [normpath]
  simp only [hspell, beq_iff_eq]
  rfl

section Pushing

variable {slashes : ℕ} {kept : List (List Char)} {component : List Char}

structure Kept (slashes : ℕ) (kept : List (List Char)) : Prop where
  names : ∀ name ∈ kept, IsName name ∧ name ≠ dot
  rooted : slashes ≠ 0 → dotDot ∉ kept
  /-- Nothing goes back after a name that goes down. -/
  front : ∀ (upper lower : List (List Char)) (name : List Char), kept = lower ++ name :: upper →
    name ≠ dotDot → dotDot ∉ lower

theorem kept_nil : Kept slashes [] where
  names := nofun
  rooted := fun _ ↦ List.not_mem_nil
  front := by
    intro upper lower name heq
    exact absurd heq.symm (by simp)

theorem Kept.tail (h : Kept slashes kept) : Kept slashes kept.tail := by
  cases kept with
  | nil => exact kept_nil
  | cons last kept =>
    refine ⟨fun name hname ↦ h.names name (List.mem_cons_of_mem last hname), ?_, ?_⟩
    · intro hslashes hmem
      exact h.rooted hslashes (List.mem_cons_of_mem last hmem)
    · intro upper lower name heq hname hmem
      have hwhole : last :: kept = (last :: lower) ++ name :: upper := by
        rw [List.cons_append, ← heq]
        rfl
      exact h.front upper (last :: lower) name hwhole hname (List.mem_cons_of_mem last hmem)

theorem Kept.cons (h : Kept slashes kept) (hcomponent : IsName component ∧ component ≠ dot)
    (hback : component = dotDot → slashes = 0 ∧ ∀ name ∈ kept, name = dotDot) :
    Kept slashes (component :: kept) := by
  refine ⟨?_, ?_, ?_⟩
  · intro name hname
    obtain heq | hmem := List.mem_cons.mp hname
    · rw [heq]
      exact hcomponent
    · exact h.names name hmem
  · intro hslashes hmem
    obtain heq | hmem := List.mem_cons.mp hmem
    · exact hslashes (hback heq.symm).1
    · exact h.rooted hslashes hmem
  · intro upper lower name heq hname hmem
    cases lower with
    | nil => cases hmem
    | cons first lower =>
      rw [List.cons_append] at heq
      obtain ⟨hfirst, hrest⟩ := List.cons.inj heq
      obtain hdot | hmem := List.mem_cons.mp hmem
      · have hall := (hback (hfirst.trans hdot.symm)).2 name
        exact hname (hall (by rw [hrest]; simp))
      · exact h.front upper lower name hrest hname hmem

theorem Kept.of_head (h : Kept slashes kept) (hhead : kept.head? = some dotDot) :
    slashes = 0 ∧ ∀ name ∈ kept, name = dotDot := by
  obtain ⟨rest, rfl⟩ := List.head?_eq_some_iff.mp hhead
  constructor
  · by_contra hslashes
    exact h.rooted hslashes List.mem_cons_self
  · intro name hname
    by_contra hne
    obtain heq | hmem := List.mem_cons.mp hname
    · exact hne heq
    · obtain ⟨lower, upper, hsplit⟩ := List.append_of_mem hmem
      have hwhole : dotDot :: rest = (dotDot :: lower) ++ name :: upper := by
        rw [List.cons_append, ← hsplit]
      exact h.front upper (dotDot :: lower) name hwhole hne List.mem_cons_self

theorem Kept.push (h : Kept slashes kept) (hcomponent : '/' ∉ component)
    (cwd : List (List Char)) : Kept slashes (pushComponent slashes kept component) ∧
      walk (if slashes = 0 then cwd else []) (pushComponent slashes kept component).reverse =
        walkStep (walk (if slashes = 0 then cwd else []) kept.reverse) component := by
  rw [pushComponent]
  by_cases hstay : component = [] ∨ component = dot
  · have hcond : (component == [] || component == ['.']) = true := by
      simpa [dot] using hstay
    rw [if_pos hcond]
    refine ⟨h, ?_⟩
    rw [walkStep, if_pos hstay]
  · have hcond : ¬ (component == [] || component == ['.']) = true := by
      simpa [dot] using hstay
    rw [if_neg hcond]
    obtain ⟨hne, hdot⟩ := not_or.mp hstay
    split
    · rename_i hpush
      refine ⟨h.cons ⟨⟨hne, hcomponent⟩, hdot⟩ ?_, ?_⟩
      · intro hback
        simp only [Bool.or_eq_true, bne_iff_ne, ne_eq, Bool.and_eq_true, beq_iff_eq] at hpush
        obtain (hgo | hempty) | hhead := hpush
        · exact absurd hback hgo
        · refine ⟨hempty.1, ?_⟩
          rw [List.isEmpty_iff.mp hempty.2]
          intro name hname
          cases hname
        · exact h.of_head hhead
      · rw [List.reverse_cons, walk_append, walk_cons, walk_nil]
    · rename_i hpop
      simp only [Bool.or_eq_true, bne_iff_ne, ne_eq, Bool.and_eq_true, beq_iff_eq, not_or,
        not_not] at hpop
      obtain ⟨⟨hback, hempty⟩, hhead⟩ := hpop
      refine ⟨h.tail, ?_⟩
      rw [walkStep, if_neg hstay, if_pos (show component = dotDot from hback)]
      cases kept with
      | nil =>
        have hslashes : slashes ≠ 0 := fun hzero ↦ hempty ⟨hzero, rfl⟩
        rw [if_neg hslashes]
        rfl
      | cons last kept =>
        have hlast : last ≠ dotDot := fun heq ↦ hhead (congrArg some heq)
        obtain ⟨hname, hnotdot⟩ := h.names last List.mem_cons_self
        rw [List.tail_cons, List.reverse_cons, walk_append, walk_cons, walk_nil,
          walkStep_ordinary ⟨hname.1, hnotdot, hlast⟩, List.dropLast_concat]

end Pushing

/-- Everything that `normpath` keeps is a name, and the names lead where the path leads. -/
theorem normalNames_spec (path : List Char) (cwd : List (List Char)) :
    Kept (initialSlashes path) (normalNames path).reverse ∧
      walk (if initialSlashes path = 0 then cwd else []) (normalNames path) =
        resolve cwd path := by
  have hfold : ∀ (rest : List (List Char)) (kept : List (List Char)),
      (∀ name ∈ rest, '/' ∉ name) → Kept (initialSlashes path) kept →
      Kept (initialSlashes path) (rest.foldl (pushComponent (initialSlashes path)) kept) ∧
        walk (if initialSlashes path = 0 then cwd else [])
            (rest.foldl (pushComponent (initialSlashes path)) kept).reverse =
          walk (walk (if initialSlashes path = 0 then cwd else []) kept.reverse) rest := by
    intro rest
    induction rest with
    | nil => exact fun kept _ hkept ↦ ⟨hkept, rfl⟩
    | cons component rest ih =>
      intro kept hrest hkept
      obtain ⟨hpush, hwalk⟩ := hkept.push (hrest component List.mem_cons_self) cwd
      rw [List.foldl_cons, walk_cons, ← hwalk]
      exact ih _ (fun name hname ↦ hrest name (List.mem_cons_of_mem component hname)) hpush
  have hslash : ∀ name ∈ splitSlash path, '/' ∉ name := by
    rw [splitSlash_eq]
    exact fun name hname ↦ slash_notMem_components hname
  obtain ⟨hkept, hwalk⟩ := hfold (splitSlash path) [] hslash kept_nil
  have hstart : (if initialSlashes path = 0 then cwd else []) =
      if path.head? = some '/' then [] else cwd := by
    by_cases hhead : path.head? = some '/'
    · rw [if_pos hhead, if_neg fun hzero ↦ initialSlashes_eq_zero.mp hzero hhead]
    · rw [if_neg hhead, if_pos (initialSlashes_eq_zero.mpr hhead)]
  rw [normalNames, List.reverse_reverse]
  refine ⟨hkept, ?_⟩
  rw [hwalk, List.reverse_nil, walk_nil, resolve, hstart, splitSlash_eq]

theorem isName_normalNames {path name : List Char} (h : name ∈ normalNames path) : IsName name :=
  ((normalNames_spec path []).1.names name (List.mem_reverse.mpr h)).1

theorem resolve_normpath (cwd : List (List Char)) (path : List Char) :
    resolve cwd (normpath path) = resolve cwd path := by
  have hnames : ∀ name ∈ normalNames path, IsName name := fun _ h ↦ isName_normalNames h
  rw [normpath_eq, ← (normalNames_spec path cwd).2]
  split
  · rename_i hnil
    obtain ⟨hslashes, hnames⟩ := (spell_eq_nil hnames).mp hnil
    rw [hslashes, hnames]
    rfl
  · exact resolve_spell hnames

theorem initialSlashes_spell {slashes : ℕ} {names : List (List Char)} (hle : slashes ≤ 2)
    (h : ∀ name ∈ names, IsName name) : initialSlashes (spell slashes names) = slashes := by
  have hhead := joinNames_head h
  obtain rfl | rfl | rfl : slashes = 0 ∨ slashes = 1 ∨ slashes = 2 := by omega
  · exact initialSlashes_eq_zero.mpr hhead
  · rw [spell_succ, spell_zero, initialSlashes]
    · intro rest hrest
      rw [hrest] at hhead
      exact hhead rfl
    · intro rest hrest
      rw [hrest] at hhead
      exact hhead rfl
  · rw [spell_succ, spell_succ, spell_zero, initialSlashes]
    intro rest hrest
    rw [hrest] at hhead
    exact hhead rfl

theorem normalNames_spell {slashes : ℕ} {names : List (List Char)} (hle : slashes ≤ 2)
    (h : Kept slashes names.reverse) : normalNames (spell slashes names) = names := by
  have hnames : ∀ name ∈ names, IsName name :=
    fun name hname ↦ (h.names name (List.mem_reverse.mpr hname)).1
  have hempty : ∀ n : ℕ, (List.replicate n ([] : List Char)).foldl (pushComponent slashes) [] =
      [] := by
    intro n
    induction n with
    | zero => rfl
    | succ n ih =>
      rw [List.replicate_succ, List.foldl_cons]
      exact ih
  have hfold : names.foldl (pushComponent slashes) [] = names.reverse := by
    clear hnames
    induction names using List.reverseRecOn with
    | nil => rfl
    | append_singleton upper last ih =>
      rw [List.reverse_append, List.reverse_singleton, List.singleton_append] at h ⊢
      have hrest : Kept slashes upper.reverse := h.tail
      obtain ⟨hname, hdot⟩ := h.names last List.mem_cons_self
      have hstay : ¬ (last == [] || last == ['.']) = true := by
        simp only [Bool.or_eq_true, beq_iff_eq, not_or]
        exact ⟨hname.1, hdot⟩
      have hpush : (last != ['.', '.'] || (slashes == 0 && upper.reverse.isEmpty) ||
          upper.reverse.head? == some ['.', '.']) = true := by
        by_cases hback : last = dotDot
        · obtain ⟨hslashes, hall⟩ := h.of_head (congrArg some hback)
          cases hupper : upper.reverse with
          | nil => simp [hslashes]
          | cons first rest =>
            have hfirst := hall first (by rw [hupper]; simp)
            simp [hfirst, dotDot]
        · have hne : (last != ['.', '.']) = true := bne_iff_ne.mpr hback
          rw [hne]
          rfl
      rw [List.foldl_append, ih hrest, List.foldl_cons, List.foldl_nil, pushComponent,
        if_neg hstay, if_pos hpush]
  rw [normalNames, initialSlashes_spell hle hnames, splitSlash_eq, spell, components_slashes,
    List.foldl_append, hempty]
  by_cases hnil : names = []
  · subst hnil
    rfl
  · rw [components_joinNames hnames hnil, hfold, List.reverse_reverse]

/-- `posixpath.join` -/
def joinPath (root leaf : List Char) : List Char :=
  if leaf.head? = some '/' then leaf else join root leaf

section Parts

variable {slashes : ℕ} {names : List (List Char)} {last leaf : List Char}

theorem spell_getLast (h : ∀ name ∈ names, IsName name) (hne : names ≠ []) :
    (spell slashes names).getLast? ≠ some '/' := by
  have hjoin : joinNames names ≠ [] := fun hnil ↦ hne ((joinNames_eq_nil h).mp hnil)
  rw [spell, List.getLast?_append_of_ne_nil _ hjoin]
  exact joinNames_getLast h

theorem spell_concat (hne : names ≠ []) :
    spell slashes (names ++ [last]) = spell slashes names ++ '/' :: last := by
  rw [spell, joinNames_append hne (List.cons_ne_nil last []), joinNames_singleton,
    ← List.append_assoc]
  rfl

theorem join_spell (h : ∀ name ∈ names, IsName name) :
    join (spell slashes names) leaf = spell slashes (names ++ [leaf]) := by
  rw [join]
  by_cases hnil : names = []
  · have hcond : (spell slashes names == [] || (spell slashes names).getLast? == some '/') =
        true := by
      rw [hnil]
      cases slashes with
      | zero => rfl
      | succ slashes =>
        rw [spell, List.replicate_succ']
        simp [joinNames]
    rw [if_pos hcond, hnil, List.nil_append, spell, spell, joinNames_singleton]
    simp [joinNames]
  · have hcond : ¬ (spell slashes names == [] ||
        (spell slashes names).getLast? == some '/') = true := by
      simp only [Bool.or_eq_true, beq_iff_eq, not_or]
      refine ⟨fun hempty ↦ hnil ((spell_eq_nil h).mp hempty).2, spell_getLast h hnil⟩
    rw [if_neg hcond, spell_concat hnil]

theorem dropWhile_last_slash {front : List Char} (hlast : '/' ∉ last) :
    ((front ++ '/' :: last).reverse.dropWhile (· != '/')).reverse = front ++ ['/'] := by
  have hdrop : ∀ text : List Char, '/' ∉ text →
      (text ++ '/' :: front.reverse).dropWhile (· != '/') = '/' :: front.reverse := by
    intro text htext
    induction text with
    | nil => rfl
    | cons c text ih =>
      have hc : c ≠ '/' := fun heq ↦ htext (heq ▸ List.mem_cons_self)
      rw [List.cons_append, List.dropWhile_cons_of_pos (by simpa using hc)]
      exact ih fun hmem ↦ htext (List.mem_cons_of_mem c hmem)
  rw [List.reverse_append, List.reverse_cons, List.append_assoc, List.singleton_append,
    hdrop _ fun hmem ↦ hlast (List.mem_reverse.mp hmem), List.reverse_cons, List.reverse_reverse]

theorem dropWhile_no_slash (hlast : '/' ∉ last) : last.reverse.dropWhile (· != '/') = [] := by
  apply List.dropWhile_eq_nil_iff.mpr
  intro c hc
  have hne : c ≠ '/' := fun heq ↦ hlast (heq ▸ List.mem_reverse.mp hc)
  simpa using hne

theorem all_slashes (slashes : ℕ) : (List.replicate slashes '/').all (· == '/') = true := by
  rw [List.all_eq_true]
  intro c hc
  rw [List.eq_of_mem_replicate hc]
  rfl

theorem dirname_spell (h : ∀ name ∈ names, IsName name) (hlast : '/' ∉ last) :
    dirname (spell slashes (names ++ [last])) = spell slashes names := by
  rw [dirname]
  by_cases hnil : names = []
  · subst hnil
    have hhead : ((spell slashes ([] ++ [last])).reverse.dropWhile (· != '/')).reverse =
        List.replicate slashes '/' := by
      rw [List.nil_append, spell, joinNames_singleton]
      cases slashes with
      | zero => rw [List.replicate_zero, List.nil_append, dropWhile_no_slash hlast]; rfl
      | succ slashes =>
        rw [List.replicate_succ', List.append_assoc, List.singleton_append,
          dropWhile_last_slash hlast]
    simp only [hhead, all_slashes, if_true]
    simp [spell, joinNames]
  · have hhead : ((spell slashes (names ++ [last])).reverse.dropWhile (· != '/')).reverse =
        spell slashes names ++ ['/'] := by
      rw [spell_concat hnil, dropWhile_last_slash hlast]
    have hend : (spell slashes names).getLast? ≠ some '/' := spell_getLast h hnil
    have hne : spell slashes names ≠ [] := fun hempty ↦ hnil ((spell_eq_nil h).mp hempty).2
    have hcond : ¬ (spell slashes names ++ ['/']).all (· == '/') = true := by
      intro hall
      obtain ⟨front, c, heq⟩ := List.eq_nil_or_concat (spell slashes names) |>.resolve_left hne
      rw [List.concat_eq_append] at heq
      rw [heq, List.getLast?_concat] at hend
      rw [List.all_eq_true] at hall
      have hc := hall c (by rw [heq]; simp)
      exact hend (congrArg some (beq_iff_eq.mp hc))
    rw [hhead, if_neg hcond, List.reverse_append, List.reverse_singleton, List.singleton_append,
      List.dropWhile_cons_of_pos rfl]
    have hstop : (spell slashes names).reverse.dropWhile (· == '/') =
        (spell slashes names).reverse := by
      cases hreverse : (spell slashes names).reverse with
      | nil => rfl
      | cons c rest =>
        have hc : (spell slashes names).getLast? = some c := by
          rw [← List.head?_reverse, hreverse]
          rfl
        rw [List.dropWhile_cons_of_neg]
        intro heq
        rw [hc, beq_iff_eq.mp heq] at hend
        exact hend rfl
    rw [hstop, List.reverse_reverse]

theorem basename_spell (hlast : '/' ∉ last) :
    basename (spell slashes (names ++ [last])) = last := by
  have htake : ∀ rest : List Char, (rest = [] ∨ rest.head? = some '/') →
      (last.reverse ++ rest).takeWhile (· != '/') = last.reverse := by
    intro rest hrest
    rw [List.takeWhile_append_of_pos]
    · have hstop : rest.takeWhile (· != '/') = [] := by
        obtain hnil | hhead := hrest
        · rw [hnil]
          rfl
        · obtain ⟨rest', rfl⟩ := List.head?_eq_some_iff.mp hhead
          rfl
      rw [hstop, List.append_nil]
    · intro c hc
      have hne : c ≠ '/' := fun heq ↦ hlast (heq ▸ List.mem_reverse.mp hc)
      simpa using hne
  rw [basename]
  by_cases hnil : names = []
  · rw [hnil, List.nil_append, spell, joinNames_singleton, List.reverse_append, htake]
    · exact List.reverse_reverse last
    · cases slashes with
      | zero => exact .inl rfl
      | succ slashes =>
        rw [List.reverse_replicate, List.replicate_succ]
        exact .inr rfl
  · rw [spell_concat hnil, List.reverse_append, List.reverse_cons, List.append_assoc, htake]
    · exact List.reverse_reverse last
    · exact .inr rfl

end Parts

end SlurmScheduler.Cleanup
