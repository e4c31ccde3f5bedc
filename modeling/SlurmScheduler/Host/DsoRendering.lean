import SlurmScheduler.Host.DsoTemplate

namespace SlurmScheduler.Host

open Relational
open Slurm.Text

/-- No character of the key is a blank or an equals sign. -/
def Plain (key : String) : Prop := ∀ c ∈ key.toList, isBlank c = false ∧ c ≠ '='

theorem plain_of_mem {key : String} (h : key ∈ dsoKeys) : key.toList ≠ [] ∧ Plain key := by
  have hall : (dsoKeys.all fun key ↦
      !key.toList.isEmpty && key.toList.all fun c ↦ !isBlank c && c != '=') = true := by decide
  have hkey := List.all_eq_true.mp hall key h
  simp only [Bool.and_eq_true, Bool.not_eq_true', List.isEmpty_eq_false_iff, List.all_eq_true,
    bne_iff_ne] at hkey
  exact hkey

def Heads (key : String) (before : List Char) : Prop :=
  ∃ blanks blanks', (∀ c ∈ blanks, isBlank c = true) ∧ (∀ c ∈ blanks', isBlank c = true) ∧
    before = blanks ++ (key.toList ++ (blanks' ++ ['=']))

theorem dropWhile_append_of_all {p : Char → Bool} {l rest : List Char} (h : ∀ c ∈ l, p c = true) :
    (l ++ rest).dropWhile p = rest.dropWhile p := by
  rw [List.dropWhile_append, List.dropWhile_eq_nil_iff.mpr h]
  rfl

theorem splitSetting_of_heads {key : String} (hne : key.toList ≠ []) (hplain : Plain key)
    {before : List Char} (h : Heads key before) (value : List Char) :
    splitSetting key (before ++ value) = some (before, value) := by
  obtain ⟨blanks, blanks', hblanks, hblanks', hbefore⟩ := h
  obtain ⟨c, key', hkey⟩ := List.exists_cons_of_ne_nil hne
  have hc : isBlank c = false := (hplain c (hkey ▸ List.mem_cons_self)).1
  have hdrop : (before ++ value).dropWhile isBlank =
      key.toList ++ (blanks' ++ '=' :: value) := by
    rw [hbefore, List.append_assoc, dropWhile_append_of_all hblanks, hkey]
    simp [hc]
  have hafter : (blanks' ++ '=' :: value).dropWhile isBlank = '=' :: value := by
    rw [dropWhile_append_of_all hblanks']
    rfl
  unfold splitSetting
  rw [hdrop]
  dsimp only
  rw [if_pos (List.isPrefixOf_iff_prefix.mpr (List.prefix_append _ _)), List.drop_left, hafter]
  change some ((before ++ value).take ((before ++ value).length - value.length), value) = _
  rw [List.length_append, Nat.add_sub_cancel, List.take_left]

theorem heads_of_splitSetting {key : String} {line before value : List Char}
    (h : splitSetting key line = some (before, value)) :
    line = before ++ value ∧ Heads key before := by
  unfold splitSetting at h
  dsimp only at h
  split at h
  · rename_i hprefix
    obtain ⟨rest, hrest⟩ := List.isPrefixOf_iff_prefix.mp hprefix
    split at h
    · rename_i value' hvalue
      rw [← hrest, List.drop_left] at hvalue
      cases h
      have hline : line = line.takeWhile isBlank ++ (key.toList ++
          (rest.takeWhile isBlank ++ ['='])) ++ value := by
        calc line = line.takeWhile isBlank ++ line.dropWhile isBlank :=
              List.takeWhile_append_dropWhile.symm
          _ = line.takeWhile isBlank ++ (key.toList ++
              (rest.takeWhile isBlank ++ rest.dropWhile isBlank)) := by
              rw [← hrest, List.takeWhile_append_dropWhile]
          _ = _ := by
              rw [hvalue]
              simp
      have htake : line.take (line.length - value.length) = line.takeWhile isBlank ++
          (key.toList ++ (rest.takeWhile isBlank ++ ['='])) := by
        conv => lhs; rw [hline]
        rw [List.length_append, Nat.add_sub_cancel, List.take_left]
      rw [htake]
      refine ⟨hline, line.takeWhile isBlank, rest.takeWhile isBlank, ?_, ?_, rfl⟩
      · intro c hc
        exact List.mem_takeWhile_imp hc
      · intro c hc
        exact List.mem_takeWhile_imp hc
    · cases h
  · cases h

theorem key_unique {key key' : String} {before before' : List Char} (hplain : Plain key)
    (hplain' : Plain key') (hne : key.toList ≠ []) (hne' : key'.toList ≠ [])
    {value value' : List Char} (h : Heads key before)
    (h' : Heads key' before') (hline : before ++ value = before' ++ value') : key = key' := by
  obtain ⟨a, b, ha, hb, hbefore⟩ := h
  obtain ⟨a', b', ha', hb', hbefore'⟩ := h'
  have hname : ∀ {k : String} {x y r : List Char}, Plain k → k.toList ≠ [] →
      (∀ c ∈ x, isBlank c = true) → (∀ c ∈ y, isBlank c = true) →
      ((x ++ (k.toList ++ (y ++ '=' :: r))).dropWhile isBlank).takeWhile
        (fun c ↦ !isBlank c && c != '=') = k.toList := by
    intro k x y r hk hkne hx hy
    obtain ⟨c, k', hck⟩ := List.exists_cons_of_ne_nil hkne
    have hc : isBlank c = false := (hk c (hck ▸ List.mem_cons_self)).1
    have hdrop : (x ++ (k.toList ++ (y ++ '=' :: r))).dropWhile isBlank =
        k.toList ++ (y ++ '=' :: r) := by
      rw [dropWhile_append_of_all hx, hck]
      simp [hc]
    have htail : (y ++ '=' :: r).takeWhile (fun c ↦ !isBlank c && c != '=') = [] := by
      cases y with
      | nil => rfl
      | cons d y =>
        have hd := hy d List.mem_cons_self
        simp [hd]
    rw [hdrop, List.takeWhile_append_of_pos, htail, List.append_nil]
    intro d hd
    obtain ⟨hblank, heq⟩ := hk d hd
    simp [hblank, heq]
  have hleft := hname (r := value) hplain hne ha hb
  have hright := hname (r := value') hplain' hne' ha' hb'
  have hsame : a ++ (key.toList ++ (b ++ '=' :: value)) =
      a' ++ (key'.toList ++ (b' ++ '=' :: value')) := by
    rw [hbefore, hbefore'] at hline
    simpa using hline
  rw [hsame, hright] at hleft
  exact String.toList_injective hleft.symm

section Lines

variable {key key' : String} {value line before old : List Char}

theorem splitSetting_none (hkey : key ∈ dsoKeys) (hkey' : key' ∈ dsoKeys) (hne : key' ≠ key)
    (h : splitSetting key line = some (before, old)) : splitSetting key' line = none := by
  cases h' : splitSetting key' line with
  | none => rfl
  | some setting =>
    obtain ⟨before', old'⟩ := setting
    obtain ⟨hline, hheads⟩ := heads_of_splitSetting h
    obtain ⟨hline', hheads'⟩ := heads_of_splitSetting h'
    obtain ⟨hnil, hplain⟩ := plain_of_mem hkey
    obtain ⟨hnil', hplain'⟩ := plain_of_mem hkey'
    exact absurd (key_unique hplain' hplain hnil' hnil hheads' hheads (hline'.symm.trans hline)) hne

theorem splitSetting_replaced (hkey : key ∈ dsoKeys)
    (h : splitSetting key line = some (before, old)) (value : List Char) :
    splitSetting key (before ++ value) = some (before, value) := by
  obtain ⟨hnil, hplain⟩ := plain_of_mem hkey
  exact splitSetting_of_heads hnil hplain (heads_of_splitSetting h).2 value

theorem setLine_of_none (h : splitSetting key line = none) : setLine key value line = line := by
  rw [setLine, h]

theorem setLine_of_some (h : splitSetting key line = some (before, old)) (hold : '\r' ∉ old) :
    setLine key value line = before ++ value := by
  rw [setLine, h]
  exact if_neg hold

theorem splitSetting_setLine (hkey : key ∈ dsoKeys) (hkey' : key' ∈ dsoKeys) (hne : key' ≠ key) :
    splitSetting key' (setLine key value line) = splitSetting key' line := by
  cases h : splitSetting key line with
  | none => rw [setLine_of_none h]
  | some setting =>
    obtain ⟨before, old⟩ := setting
    rw [splitSetting_none hkey hkey' hne h]
    by_cases hold : '\r' ∈ old
    · rw [setLine, h]
      dsimp only
      rw [if_pos hold, splitSetting_none hkey hkey' hne h]
    · rw [setLine_of_some h hold]
      exact splitSetting_none hkey hkey' hne (splitSetting_replaced hkey h value)

def setAll (values : List (String × List Char)) (line : List Char) : List Char :=
  values.foldl (fun line setting ↦ setLine setting.1 setting.2 line) line

variable {values : List (String × List Char)}

theorem fst_ne_of_mem {s : String × List Char} (hkey : key ∉ values.map (·.1)) (hs : s ∈ values) :
    s.1 ≠ key := by
  intro heq
  rw [← heq] at hkey
  exact hkey (List.mem_map_of_mem (f := (·.1)) hs)

theorem setAll_of_none (h : ∀ setting ∈ values, splitSetting setting.1 line = none) :
    setAll values line = line := by
  induction values with
  | nil => rfl
  | cons setting values ih =>
    rw [setAll, List.foldl_cons, setLine_of_none (h setting List.mem_cons_self)]
    exact ih fun s hs ↦ h s (List.mem_cons_of_mem setting hs)

theorem setAll_of_some (hkeys : ∀ setting ∈ values, setting.1 ∈ dsoKeys)
    (hnodup : (values.map (·.1)).Nodup) (hmem : (key, value) ∈ values)
    (h : splitSetting key line = some (before, old)) (hold : '\r' ∉ old) :
    setAll values line = before ++ value := by
  induction values with
  | nil => cases hmem
  | cons setting values ih =>
    rw [List.map_cons, List.nodup_cons] at hnodup
    have hkey : key ∈ dsoKeys := hkeys (key, value) hmem
    have htail : ∀ s ∈ values, s.1 ∈ dsoKeys := fun s hs ↦ hkeys s (List.mem_cons_of_mem setting hs)
    rw [setAll, List.foldl_cons]
    rcases List.mem_cons.mp hmem with heq | hrest
    · subst heq
      dsimp only
      rw [setLine_of_some h hold]
      refine setAll_of_none fun s hs ↦ ?_
      exact splitSetting_none hkey (htail s hs) (fst_ne_of_mem hnodup.1 hs)
        (splitSetting_replaced hkey h value)
    · have hne : setting.1 ≠ key := by
        intro heq
        exact hnodup.1 (heq ▸ List.mem_map_of_mem (f := (·.1)) hrest)
      rw [setLine_of_none (splitSetting_none hkey (hkeys setting List.mem_cons_self) hne h)]
      exact ih htail hnodup.2 hrest

theorem replaceable_congr {line' : List Char}
    (h : splitSetting key line' = splitSetting key line) :
    replaceable key line' = replaceable key line := by
  rw [replaceable, replaceable, h]

theorem newline_notMem_setLine (hvalue : '\n' ∉ value) (hline : '\n' ∉ line) :
    '\n' ∉ setLine key value line := by
  unfold setLine
  split
  · rename_i before old h
    split
    · exact hline
    · intro hmem
      rcases List.mem_append.mp hmem with hbefore | hnew
      · exact hline ((heads_of_splitSetting h).1 ▸ List.mem_append_left _ hbefore)
      · exact hvalue hnew
  · exact hline

end Lines

theorem countP_setLine {key key' : String} {value : List Char} (hkey : key ∈ dsoKeys)
    (hkey' : key' ∈ dsoKeys) (hne : key' ≠ key) (lines : List (List Char)) :
    (lines.map (setLine key value)).countP (replaceable key') = lines.countP (replaceable key') := by
  rw [List.countP_map]
  apply List.countP_congr
  intro line _
  rw [Function.comp_apply, replaceable_congr (splitSetting_setLine hkey hkey' hne)]

/-- Every substitution finds its setting once where the text had it once to begin with. -/
theorem renderSettings_eq_ok_iff {values : List (String × List Char)} {lines : List (List Char)}
    {rendered : List Char} (hkeys : ∀ setting ∈ values, setting.1 ∈ dsoKeys)
    (hnodup : (values.map (·.1)).Nodup) (hvalues : ∀ setting ∈ values, '\n' ∉ setting.2)
    (hne : lines ≠ []) (hlines : ∀ line ∈ lines, '\n' ∉ line) :
    renderSettings values (joinLines lines) = .ok rendered ↔
      (∀ setting ∈ values, lines.countP (replaceable setting.1) = 1) ∧
        rendered = joinLines (lines.map (setAll values)) := by
  induction values generalizing lines with
  | nil =>
    have hmap : lines.map (setAll []) = lines := List.map_id lines
    rw [renderSettings, Except.ok.injEq, hmap]
    constructor
    · intro h
      refine ⟨?_, h.symm⟩
      intro setting hmem
      cases hmem
    · intro h
      exact h.2.symm
  | cons setting values ih =>
    obtain ⟨key, value⟩ := setting
    rw [List.map_cons, List.nodup_cons] at hnodup
    have hkey := hkeys (key, value) List.mem_cons_self
    have hvalue := hvalues (key, value) List.mem_cons_self
    have htail : ∀ s ∈ values, s.1 ∈ dsoKeys := fun s hs ↦ hkeys s (List.mem_cons_of_mem _ hs)
    have hlines' : ∀ line ∈ lines.map (setLine key value), '\n' ∉ line := by
      intro line hline
      obtain ⟨line', hline', rfl⟩ := List.mem_map.mp hline
      exact newline_notMem_setLine hvalue (hlines line' hline')
    have hne' : lines.map (setLine key value) ≠ [] := by simpa using hne
    have hrest := ih htail hnodup.2 (fun s hs ↦ hvalues s (List.mem_cons_of_mem _ hs)) hne' hlines'
    have hcounts : (∀ s ∈ values, (lines.map (setLine key value)).countP (replaceable s.1) = 1) ↔
        ∀ s ∈ values, lines.countP (replaceable s.1) = 1 := by
      refine forall₂_congr fun s hs ↦ ?_
      rw [countP_setLine hkey (htail s hs) (fst_ne_of_mem hnodup.1 hs)]
    have hmap : (lines.map (setLine key value)).map (setAll values) =
        lines.map (setAll ((key, value) :: values)) := by
      rw [List.map_map]
      rfl
    rw [hcounts, hmap] at hrest
    rw [renderSettings, substitute, newlines_joinLines hne hlines]
    dsimp only
    split
    · rename_i hcount
      constructor
      · intro h
        cases h
      · intro h
        exact absurd (h.1 _ List.mem_cons_self) hcount
    · rename_i hcount
      rw [hrest, List.forall_mem_cons, not_not.mp hcount]
      simp

theorem blockLines_eq (template : List Char) :
    blockLines template = (filled template).filterMap blockLine := by
  rw [blockLines, filled, List.filterMap_filter]
  apply List.filterMap_congr
  intro line _
  cases line with
  | nil => rfl
  | cons c line => rfl

theorem checkSettings_eq_ok_iff {template : List Char} {keys : List String} :
    checkSettings template keys = .ok () ↔ ∀ key ∈ keys, countSettings key template = 1 := by
  induction keys with
  | nil => simp [checkSettings]
  | cons key keys ih =>
    rw [checkSettings, List.forall_mem_cons, ← ih]
    by_cases h : countSettings key template = 1
    · simp [h]
    · simp [h]

/-- The validator looks at the blocks and at the numbers of settings. -/
theorem validate_eq_ok_iff {template : List Char} : validateDsoTemplate template = .ok () ↔
    (∃ paths, blockPaths [] (blockLines template) = .ok paths ∧
      ∀ path ∈ requiredPaths, path ∈ paths) ∧
    ∀ key ∈ dsoKeys, countSettings key template = 1 := by
  rw [← checkSettings_eq_ok_iff, validateDsoTemplate]
  cases hpaths : blockPaths [] (blockLines template) with
  | error e =>
    constructor
    · intro h
      cases h
    · intro h
      obtain ⟨⟨paths, hok, -⟩, -⟩ := h
      cases hok
  | ok paths =>
    have hmissing : (sortedBy id ((requiredPaths.filter fun path ↦ !paths.contains path).map
        fun path ↦ "/".intercalate (path.map String.ofList))).isEmpty = true ↔
        ∀ path ∈ requiredPaths, path ∈ paths := by
      rw [List.isEmpty_iff_length_eq_zero, length_sortedBy, List.length_map, List.length_eq_zero_iff,
        List.filter_eq_nil_iff]
      simp
    simp only [bind, Except.bind, Except.ok.injEq, exists_eq_left']
    rw [← hmissing]
    cases (sortedBy id ((requiredPaths.filter fun path ↦ !paths.contains path).map
        fun path ↦ "/".intercalate (path.map String.ofList))).isEmpty with
    | true => simp
    | false =>
      simp only [Bool.not_false, if_true, Bool.false_eq_true, false_and, iff_false]
      intro h
      cases h

theorem validate_congr {template template' : List Char}
    (hblocks : blockLines template' = blockLines template)
    (hcounts : ∀ key ∈ dsoKeys, countSettings key template' = countSettings key template) :
    validateDsoTemplate template' = .ok () ↔ validateDsoTemplate template = .ok () := by
  rw [validate_eq_ok_iff, validate_eq_ok_iff, hblocks]
  refine and_congr_right fun _ ↦ forall₂_congr fun key hkey ↦ ?_
  rw [hcounts key hkey]

theorem getLast?_heads {key : String} {before : List Char} (h : Heads key before) :
    before.getLast? = some '=' := by
  obtain ⟨blanks, blanks', -, -, hbefore⟩ := h
  rw [hbefore]
  simp

theorem ne_nil_of_heads {key : String} {before : List Char} (h : Heads key before) : before ≠ [] := by
  intro hnil
  have hlast := getLast?_heads h
  rw [hnil] at hlast
  cases hlast

theorem isSome_splitSetting_chomp {key : String} (hkey : key ∈ dsoKeys) (line : List Char) :
    (splitSetting key (chomp line)).isSome = (splitSetting key line).isSome := by
  obtain ⟨hnil, hplain⟩ := plain_of_mem hkey
  unfold chomp
  split
  · rename_i hlast
    have hline : line.dropLast ++ ['\r'] = line := List.dropLast_append_getLast? '\r' hlast
    cases h : splitSetting key line with
    | some setting =>
      obtain ⟨before, value⟩ := setting
      obtain ⟨hsplit, hheads⟩ := heads_of_splitSetting h
      have hvalue : value ≠ [] := by
        intro hempty
        rw [hsplit, hempty, List.append_nil, getLast?_heads hheads] at hlast
        cases hlast
      rw [hsplit, List.dropLast_append_of_ne_nil hvalue, splitSetting_of_heads hnil hplain hheads]
      rfl
    | none =>
      cases h' : splitSetting key line.dropLast with
      | none => rfl
      | some setting =>
        obtain ⟨before, value⟩ := setting
        obtain ⟨hsplit, hheads⟩ := heads_of_splitSetting h'
        rw [← hline, hsplit, List.append_assoc, splitSetting_of_heads hnil hplain hheads] at h
        cases h
  · rfl

theorem countP_chompInit {p : List Char → Bool} (h : ∀ line, p (chomp line) = p line)
    (lines : List (List Char)) : (chompInit lines).countP p = lines.countP p := by
  induction lines with
  | nil => rfl
  | cons line lines ih =>
    cases lines with
    | nil => rfl
    | cons next lines => rw [chompInit, List.countP_cons, List.countP_cons, ih, h]

theorem countSettings_crlfToLf {key : String} (hkey : key ∈ dsoKeys) (template : List Char) :
    countSettings key (crlfToLf template) = countSettings key template := by
  rw [countSettings, newlines_crlfToLf, countP_chompInit (isSome_splitSetting_chomp hkey)]
  rfl

theorem blockLines_crlfToLf (template : List Char) :
    blockLines (crlfToLf template) = blockLines template := by
  rw [blockLines_eq, filled_crlfToLf, ← blockLines_eq]

theorem isLineEnd_of_all {text : List Char} (h : (text.all fun c ↦ !isLineEnd c) = true) :
    ∀ c ∈ text, isLineEnd c = false := by
  intro c hc
  have hplain := List.all_eq_true.mp h c hc
  rwa [Bool.not_eq_true'] at hplain

theorem isLineEnd_heads {key : String} (hkey : key ∈ dsoKeys) {before : List Char}
    (h : Heads key before) : ∀ c ∈ before, isLineEnd c = false := by
  obtain ⟨blanks, blanks', hblanks, hblanks', hbefore⟩ := h
  have hall : (dsoKeys.all fun key ↦ key.toList.all fun c ↦ !isLineEnd c) = true := by decide
  have hnamed : ∀ key ∈ dsoKeys, ∀ c ∈ key.toList, isLineEnd c = false :=
    fun key hkey ↦ isLineEnd_of_all (List.all_eq_true.mp hall key hkey)
  have hblank : ∀ c, isBlank c = true → isLineEnd c = false := by
    intro c hc
    rcases Bool.or_eq_true _ _ ▸ hc with hspace | htab
    · rw [beq_iff_eq.mp hspace]
      decide
    · rw [beq_iff_eq.mp htab]
      decide
  intro c hc
  rw [hbefore] at hc
  rcases List.mem_append.mp hc with hc | hc
  · exact hblank c (hblanks c hc)
  · rcases List.mem_append.mp hc with hc | hc
    · exact hnamed key hkey c hc
    · rcases List.mem_append.mp hc with hc | hc
      · exact hblank c (hblanks' c hc)
      · rw [List.mem_singleton.mp hc]
        decide

/-- The first character of a stripped setting line is that of the key. -/
theorem blockLine_setting {key : String} (hkey : key ∈ dsoKeys) {before : List Char}
    (h : Heads key before) (value : List Char) : blockLine (before ++ value) = none := by
  have hfirst : ∀ key ∈ dsoKeys, ∃ c rest, key.toList = c :: rest ∧ isSpace c = false ∧
      c ≠ '$' := by
    intro key hkey
    fin_cases hkey
    all_goals exact ⟨_, _, rfl, by decide, by decide⟩
  obtain ⟨blanks, blanks', hblanks, -, hbefore⟩ := h
  obtain ⟨c, rest, hck, hspace, hdollar⟩ := hfirst key hkey
  have hspaces : ∀ c ∈ blanks, isSpace c = true := by
    intro c hc
    rcases Bool.or_eq_true _ _ ▸ hblanks c hc with hspace | htab
    · rw [beq_iff_eq.mp hspace]
      decide
    · rw [beq_iff_eq.mp htab]
      decide
  obtain ⟨rest', hstripped⟩ : ∃ rest', stripChars (before ++ value) = c :: rest' := by
    unfold stripChars
    have hdrop : (before ++ value).dropWhile isSpace =
        c :: (rest ++ (blanks' ++ ['=']) ++ value) := by
      rw [hbefore, List.append_assoc, dropWhile_append_of_all hspaces, hck]
      simp [hspace]
    rw [hdrop]
    have hprefix := List.rdropWhile_prefix isSpace (c :: (rest ++ (blanks' ++ ['=']) ++ value))
    have hne : (c :: (rest ++ (blanks' ++ ['=']) ++ value)).rdropWhile isSpace ≠ [] := by
      intro hnil
      have hall := List.rdropWhile_eq_nil_iff.mp hnil c List.mem_cons_self
      rw [hspace] at hall
      cases hall
    obtain ⟨d, rest', hd⟩ := List.exists_cons_of_ne_nil hne
    rw [hd] at hprefix ⊢
    exact ⟨rest', by rw [(List.cons_prefix_cons.mp hprefix).1]⟩
  have hword : ∀ word : List Char, word.head? = some '$' →
      word.isPrefixOf (c :: rest') = false := by
    intro word hword
    cases word with
    | nil => cases hword
    | cons d word =>
      cases hword
      rw [List.isPrefixOf_cons_cons, beq_eq_false_iff_ne.mpr (Ne.symm hdollar), Bool.false_and]
  unfold blockLine blockName
  rw [hstripped]
  simp only [hword "$begin".toList rfl, hword "$end".toList rfl, Bool.false_eq_true, false_and,
    if_false, Bool.or_self]

theorem plain_setting {key : String} (hkey : key ∈ dsoKeys) {line before value : List Char}
    (hsetting : splitSetting key line = some (before, value))
    (h : ∀ c ∈ value, isLineEnd c = false) : ∀ c ∈ line, isLineEnd c = false := by
  obtain ⟨hline, hheads⟩ := heads_of_splitSetting hsetting
  intro c hc
  rw [hline] at hc
  rcases List.mem_append.mp hc with hbefore | hvalue
  · exact isLineEnd_heads hkey hheads c hbefore
  · exact h c hvalue

/-- No value of a setting has a line end in it, and no line keeps a carriage return at its end. -/
structure Replaceable (template : List Char) : Prop where
  settings : ∀ line ∈ newlines (crlfToLf template), ∀ key ∈ dsoKeys, ∀ before value,
    splitSetting key line = some (before, value) → ∀ c ∈ value, isLineEnd c = false
  returns : ∀ line ∈ newlines (crlfToLf template), line.getLast? ≠ some '\r'

def Settable (line : List Char) : Prop := ∀ key ∈ dsoKeys, ∀ before value,
  splitSetting key line = some (before, value) → ∀ c ∈ value, isLineEnd c = false

def Replaced (line : List Char) : Prop := ∀ key ∈ dsoKeys, ∀ before value,
  splitSetting key line = some (before, value) → '\r' ∉ value

theorem return_notMem {value : List Char} (h : ∀ c ∈ value, isLineEnd c = false) : '\r' ∉ value := by
  intro hmem
  have hreturn := h '\r' hmem
  rw [isLineEnd_return] at hreturn
  cases hreturn

theorem Settable.replaced {line : List Char} (h : Settable line) : Replaced line :=
  fun key hkey before value hsetting ↦ return_notMem (h key hkey before value hsetting)

section Values

variable {designType : String} {useAutoSettings : Bool}

theorem dsoKeys_nodup : dsoKeys.Nodup := by decide

theorem mem_dsoKeys {setting : String × List Char}
    (h : setting ∈ dsoValues designType useAutoSettings) : setting.1 ∈ dsoKeys := by
  rw [← show (dsoValues designType useAutoSettings).map (·.1) = dsoKeys from rfl]
  exact List.mem_map_of_mem (f := (·.1)) h

variable (designType useAutoSettings) in
theorem exists_value {key : String} (h : key ∈ dsoKeys) :
    ∃ value, (key, value) ∈ dsoValues designType useAutoSettings := by
  rw [← show (dsoValues designType useAutoSettings).map (·.1) = dsoKeys from rfl] at h
  obtain ⟨setting, hmem, rfl⟩ := List.mem_map.mp h
  exact ⟨setting.2, hmem⟩

theorem isLineEnd_value (hdesign : ∀ c ∈ designType.toList, isLineEnd c = false)
    {setting : String × List Char} (h : setting ∈ dsoValues designType useAutoSettings) :
    ∀ c ∈ setting.2, isLineEnd c = false := by
  simp only [dsoValues, List.mem_cons, List.not_mem_nil, or_false] at h
  rcases h with rfl | rfl | rfl | rfl | rfl | rfl
  · exact isLineEnd_of_all (by decide)
  · intro c hc
    rcases List.mem_cons.mp hc with rfl | hc
    · decide
    · rcases List.mem_append.mp hc with hc | hc
      · exact hdesign c hc
      · rw [List.mem_singleton.mp hc]
        decide
  · exact isLineEnd_of_all (by decide)
  · exact isLineEnd_of_all (by decide)
  · exact isLineEnd_of_all (by decide)
  · cases useAutoSettings
    all_goals exact isLineEnd_of_all (by decide)

variable (designType useAutoSettings) in
/-- A line has none of the settings, or one of them gets its value. -/
theorem setAll_cases {line : List Char} (h : Replaced line) :
    ((∀ key ∈ dsoKeys, splitSetting key line = none) ∧
      setAll (dsoValues designType useAutoSettings) line = line) ∨
    ∃ key ∈ dsoKeys, ∃ before old value, splitSetting key line = some (before, old) ∧
      (key, value) ∈ dsoValues designType useAutoSettings ∧
      setAll (dsoValues designType useAutoSettings) line = before ++ value := by
  by_cases hnone : ∀ key ∈ dsoKeys, splitSetting key line = none
  · exact .inl ⟨hnone, setAll_of_none fun setting hmem ↦ hnone setting.1 (mem_dsoKeys hmem)⟩
  · push Not at hnone
    obtain ⟨key, hkey, hsome⟩ := hnone
    obtain ⟨setting, hsetting⟩ := Option.ne_none_iff_exists'.mp hsome
    obtain ⟨before, old⟩ := setting
    obtain ⟨value, hvalue⟩ := exists_value designType useAutoSettings hkey
    have hold := h key hkey before old hsetting
    exact .inr ⟨key, hkey, before, old, value, hsetting, hvalue,
      setAll_of_some (fun _ ↦ mem_dsoKeys) dsoKeys_nodup hvalue hsetting hold⟩

variable {line : List Char}

theorem setAll_eq_nil_iff (h : Replaced line) :
    setAll (dsoValues designType useAutoSettings) line = [] ↔ line = [] := by
  rcases setAll_cases designType useAutoSettings h with
    ⟨-, hset⟩ | ⟨key, -, before, old, value, hsetting, -, hset⟩
  · rw [hset]
  · obtain ⟨hline, hheads⟩ := heads_of_splitSetting hsetting
    have hbefore := ne_nil_of_heads hheads
    rw [hset, hline]
    simp [hbefore]

theorem isSome_setAll (h : Replaced line) {key : String} (hkey : key ∈ dsoKeys) :
    (splitSetting key (setAll (dsoValues designType useAutoSettings) line)).isSome =
      (splitSetting key line).isSome := by
  rcases setAll_cases designType useAutoSettings h with
    ⟨-, hset⟩ | ⟨key', hkey', before, old, value, hsetting, -, hset⟩
  · rw [hset]
  · rw [hset]
    have hnew := splitSetting_replaced hkey' hsetting value
    by_cases hne : key = key'
    · rw [hne, hsetting, hnew]
      rfl
    · rw [splitSetting_none hkey' hkey hne hsetting, splitSetting_none hkey' hkey hne hnew]

variable (hdesign : ∀ c ∈ designType.toList, isLineEnd c = false)

include hdesign

theorem isLineEnd_setting {key : String} (hkey : key ∈ dsoKeys) {before old value : List Char}
    (hsetting : splitSetting key line = some (before, old))
    (hvalue : (key, value) ∈ dsoValues designType useAutoSettings) :
    ∀ c ∈ before ++ value, isLineEnd c = false := by
  intro c hc
  rcases List.mem_append.mp hc with hbefore | hnew
  · exact isLineEnd_heads hkey (heads_of_splitSetting hsetting).2 c hbefore
  · exact isLineEnd_value hdesign hvalue c hnew

theorem settable_setAll (h : Settable line) :
    Settable (setAll (dsoValues designType useAutoSettings) line) := by
  rcases setAll_cases designType useAutoSettings h.replaced with
    ⟨-, hset⟩ | ⟨key', hkey', before, old, value, hsetting, hvalue, hset⟩
  · rw [hset]
    exact h
  · intro key hkey before' value' hsplit c hc
    rw [hset] at hsplit
    refine isLineEnd_setting hdesign hkey' hsetting hvalue c ?_
    rw [(heads_of_splitSetting hsplit).1]
    exact List.mem_append_right _ hc

theorem setAll_setAll (h : Replaced line) :
    setAll (dsoValues designType useAutoSettings)
      (setAll (dsoValues designType useAutoSettings) line) =
        setAll (dsoValues designType useAutoSettings) line := by
  rcases setAll_cases designType useAutoSettings h with
    ⟨-, hset⟩ | ⟨key, hkey, before, old, value, hsetting, hvalue, hset⟩
  · rw [hset, hset]
  · rw [hset]
    exact setAll_of_some (fun _ ↦ mem_dsoKeys) dsoKeys_nodup hvalue
      (splitSetting_replaced hkey hsetting value)
      (return_notMem (isLineEnd_value hdesign hvalue))

/-- A setting stays on a line of its own, which opens and closes no block. -/
theorem blockLines_setAll (h : Settable line) :
    (filled (setAll (dsoValues designType useAutoSettings) line)).filterMap blockLine =
      (filled line).filterMap blockLine := by
  rcases setAll_cases designType useAutoSettings h.replaced with
    ⟨-, hset⟩ | ⟨key, hkey, before, old, value, hsetting, hvalue, hset⟩
  · rw [hset]
  · obtain ⟨hline, hheads⟩ := heads_of_splitSetting hsetting
    have hbefore := ne_nil_of_heads hheads
    have hplain := plain_setting hkey hsetting (h key hkey before old hsetting)
    rw [hline] at hplain
    rw [hset, hline, filled_line hplain (by simp [hbefore]),
      filled_line (isLineEnd_setting hdesign hkey hsetting hvalue) (by simp [hbefore])]
    simp only [List.filterMap_cons, blockLine_setting hkey hheads, List.filterMap_nil]

end Values

end SlurmScheduler.Host
