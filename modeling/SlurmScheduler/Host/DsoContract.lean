import Mathlib.Algebra.Order.BigOperators.Group.List
import SlurmScheduler.Host.DsoRendering

namespace SlurmScheduler.Host

open Relational
open Slurm.Text

def uniform (template : List Char) : List Char :=
  (crlfToLf template).rdropWhile (· == '\n') ++ ['\n']

def KeptLine (old new : List Char) : Prop :=
  new = old ∨ ∃ key ∈ dsoKeys, ∃ before value value',
    splitSetting key old = some (before, value) ∧ splitSetting key new = some (before, value')

def settingValues (key : String) (template : List Char) : List (List Char) :=
  ((newlines template).filterMap (splitSetting key)).map (·.2)

structure RendersExactly (template : List Char) (designType : String) (useAutoSettings : Bool)
    (rendered : List Char) : Prop where
  renders : renderDsoConfiguration template designType useAutoSettings = .ok rendered
  accepted : validateDsoTemplate rendered = .ok ()
  blocks : blockLines rendered = blockLines template
  settings : ∀ setting ∈ dsoValues designType useAutoSettings,
    settingValues setting.1 rendered = [setting.2]
  lines : List.Forall₂ KeptLine (linesAfter [] (uniform template)) (linesAfter [] rendered)
  again : renderDsoConfiguration rendered designType useAutoSettings = .ok rendered

section Rendering

variable {template rendered : List Char} {designType : String} {useAutoSettings : Bool}

def templateLines (template : List Char) : List (List Char) := newlines (crlfToLf template)

def bodyLines (template : List Char) : List (List Char) :=
  (templateLines template).rdropWhile List.isEmpty

theorem templateLines_ne_nil (template : List Char) : templateLines template ≠ [] :=
  newlines_ne_nil (crlfToLf template)

theorem newline_notMem_templateLines {line : List Char} (h : line ∈ templateLines template) :
    '\n' ∉ line := newline_notMem_of_mem_newlines h

theorem mem_of_mem_bodyLines {line : List Char} (h : line ∈ bodyLines template) :
    line ∈ templateLines template := (List.rdropWhile_prefix _ _).subset h

theorem splitSetting_nil {key : String} (hkey : key ∈ dsoKeys) : splitSetting key [] = none := by
  have hall : ∀ key ∈ dsoKeys, splitSetting key [] = none := by decide
  exact hall key hkey

theorem splitSetting_chomp_none {key : String} (hkey : key ∈ dsoKeys) {line : List Char}
    (h : splitSetting key line = none) : splitSetting key (chomp line) = none := by
  have hsome := isSome_splitSetting_chomp hkey line
  rw [h] at hsome
  exact Option.isNone_iff_eq_none.mp (by simpa using hsome)

theorem settable_of_mem_bodyLines (h : ∀ line ∈ bodyLines template, Settable line) :
    ∀ line ∈ templateLines template, Settable line := by
  intro line hline
  rcases mem_or_eq_nil hline with hkept | hnil
  · exact h line hkept
  · intro key hkey before value hsetting
    rw [hnil, splitSetting_nil hkey] at hsetting
    cases hsetting

theorem countSettings_lines {key : String} {lines : List (List Char)} (hne : lines ≠ [])
    (h : ∀ line ∈ lines, '\n' ∉ line) : countSettings key (joinLines lines) =
      lines.countP fun line ↦ (splitSetting key line).isSome := by
  rw [countSettings, newlines_joinLines hne h]

theorem blockLines_joinLines {lines : List (List Char)} (hne : lines ≠ []) :
    blockLines (joinLines lines) = lines.flatMap fun line ↦ (filled line).filterMap blockLine := by
  rw [blockLines_eq, filled_joinLines hne, List.filterMap_flatMap]

theorem blockLines_unlines (lines : List (List Char)) :
    blockLines (unlines lines) = lines.flatMap fun line ↦ (filled line).filterMap blockLine := by
  rw [blockLines_eq, filled_unlines, List.filterMap_flatMap]

theorem countSettings_unlines {key : String} (hkey : key ∈ dsoKeys) {lines : List (List Char)}
    (h : ∀ line ∈ lines, '\n' ∉ line) : countSettings key (unlines lines) =
      lines.countP fun line ↦ (splitSetting key line).isSome := by
  rw [countSettings, newlines_unlines h, List.countP_append, List.countP_singleton,
    splitSetting_nil hkey]
  rfl

theorem countSettings_templateLines {key : String} (hkey : key ∈ dsoKeys) :
    (templateLines template).countP (fun line ↦ (splitSetting key line).isSome) =
      countSettings key template := by
  rw [← countSettings_crlfToLf hkey]
  rfl

theorem blockLines_templateLines :
    ((templateLines template).flatMap fun line ↦ (filled line).filterMap blockLine) =
      blockLines template := by
  rw [← blockLines_crlfToLf, ← blockLines_joinLines (templateLines_ne_nil template),
    templateLines, joinLines_newlines]

theorem exists_setting {p : List Char → Bool} {lines : List (List Char)} (h : lines.countP p = 1) :
    ∃ line ∈ lines, p line = true := by
  apply List.countP_pos_iff.mp
  rw [h]
  exact Nat.one_pos

theorem replaceable_eq_isSome {key : String} (hkey : key ∈ dsoKeys) {line : List Char}
    (h : Replaced line) : replaceable key line = (splitSetting key line).isSome := by
  unfold replaceable
  cases hsetting : splitSetting key line with
  | none => rfl
  | some setting =>
    have hold := h key hkey setting.1 setting.2 hsetting
    simp [hold]

theorem isSome_of_replaceable {key : String} {line : List Char} (h : replaceable key line = true) :
    (splitSetting key line).isSome = true := by
  unfold replaceable at h
  cases hsetting : splitSetting key line with
  | none =>
    rw [hsetting] at h
    cases h
  | some setting => rfl

theorem replaced_of_countP {lines : List (List Char)} (h : ∀ key ∈ dsoKeys,
    lines.countP (replaceable key) = lines.countP fun line ↦ (splitSetting key line).isSome) :
    ∀ line ∈ lines, Replaced line := by
  intro line hline key hkey before value hsetting
  have hsub : (lines.filter (replaceable key)).Sublist
      (lines.filter fun line ↦ (splitSetting key line).isSome) :=
    List.monotone_filter_right lines fun line ↦ isSome_of_replaceable
  have hcount := h key hkey
  rw [List.countP_eq_length_filter, List.countP_eq_length_filter] at hcount
  have hmem : line ∈ lines.filter fun line ↦ (splitSetting key line).isSome :=
    List.mem_filter.mpr ⟨hline, by rw [hsetting]; rfl⟩
  rw [← hsub.eq_of_length hcount] at hmem
  have hreplaceable := (List.mem_filter.mp hmem).2
  unfold replaceable at hreplaceable
  rw [hsetting] at hreplaceable
  simpa using hreplaceable

/-- The counts that the validator and the renderer make agree. -/
theorem replaced_of_counts (hvalid : validateDsoTemplate template = .ok ())
    (h : ∀ key ∈ dsoKeys, (templateLines template).countP (replaceable key) = 1) :
    ∀ line ∈ templateLines template, Replaced line := by
  apply replaced_of_countP
  intro key hkey
  rw [h key hkey, countSettings_templateLines hkey, (validate_eq_ok_iff.mp hvalid).2 key hkey]

theorem render_steps :
    renderDsoConfiguration template designType useAutoSettings = .ok rendered ↔
      validateDsoTemplate template = .ok () ∧
      ∃ text, renderSettings (dsoValues designType useAutoSettings) (crlfToLf template) = .ok text ∧
        validateDsoTemplate text = .ok () ∧
        rendered = text.rdropWhile (· == '\n') ++ ['\n'] := by
  unfold renderDsoConfiguration
  cases hvalid : validateDsoTemplate template with
  | error e => simp [bind, Except.bind]
  | ok _ =>
    cases hsettings : renderSettings (dsoValues designType useAutoSettings) (crlfToLf template) with
    | error e => simp [bind, Except.bind]
    | ok text =>
      cases htext : validateDsoTemplate text with
      | error e => simp [bind, Except.bind, htext]
      | ok _ => simp [bind, Except.bind, htext, pure, Except.pure, eq_comm]

theorem replaced_templateLines (h : Replaceable template) :
    ∀ line ∈ templateLines template, Replaced line := by
  intro line hline
  exact Settable.replaced (h.settings line hline)

theorem countP_replaceable (hvalid : validateDsoTemplate template = .ok ())
    (h : ∀ line ∈ templateLines template, Replaced line) {key : String} (hkey : key ∈ dsoKeys) :
    (templateLines template).countP (replaceable key) = 1 := by
  rw [← (validate_eq_ok_iff.mp hvalid).2 key hkey, ← countSettings_templateLines hkey]
  apply List.countP_congr
  intro line hline
  rw [replaceable_eq_isSome hkey (h line hline)]

theorem countP_setAll {lines : List (List Char)} (h : ∀ line ∈ lines, Replaced line) {key : String}
    (hkey : key ∈ dsoKeys) : (lines.map (setAll (dsoValues designType useAutoSettings))).countP
      (fun line ↦ (splitSetting key line).isSome) =
        lines.countP fun line ↦ (splitSetting key line).isSome := by
  rw [List.countP_map]
  apply List.countP_congr
  intro line hline
  rw [Function.comp_apply, isSome_setAll (h line hline) hkey]

theorem validate_lines {text : List Char} (hvalid : validateDsoTemplate template = .ok ())
    (hblocks : blockLines text = blockLines template) (hcounts : ∀ key ∈ dsoKeys,
      countSettings key text =
        (templateLines template).countP fun line ↦ (splitSetting key line).isSome) :
    validateDsoTemplate text = .ok () := by
  refine (validate_congr hblocks fun key hkey ↦ ?_).mpr hvalid
  rw [hcounts key hkey, countSettings_templateLines hkey]

/-- A line that has a setting after the substitutions has the value asked for. -/
theorem value_of_splitSetting_setAll {line : List Char} (h : Replaced line)
    {key : String} (hkey : key ∈ dsoKeys) {value before value' : List Char}
    (hvalue : (key, value) ∈ dsoValues designType useAutoSettings)
    (hsetting : splitSetting key (setAll (dsoValues designType useAutoSettings) line) =
      some (before, value')) : value' = value := by
  cases hold : splitSetting key line with
  | none =>
    have hsome : (splitSetting key (setAll (dsoValues designType useAutoSettings) line)).isSome =
        (splitSetting key line).isSome := isSome_setAll h hkey
    rw [hold, hsetting] at hsome
    cases hsome
  | some setting =>
    obtain ⟨before', old⟩ := setting
    have hreturn := h key hkey before' old hold
    rw [setAll_of_some (fun _ ↦ mem_dsoKeys) dsoKeys_nodup hvalue hold hreturn,
      splitSetting_replaced hkey hold] at hsetting
    cases hsetting
    rfl

theorem forall₂_flatMap {α β : Type*} {r : β → β → Prop} {f g : α → List β} {l : List α}
    (h : ∀ a ∈ l, List.Forall₂ r (f a) (g a)) : List.Forall₂ r (l.flatMap f) (l.flatMap g) := by
  induction l with
  | nil => exact .nil
  | cons a l ih =>
    rw [List.flatMap_cons, List.flatMap_cons]
    exact List.rel_append (h a List.mem_cons_self) (ih fun b hb ↦ h b (List.mem_cons_of_mem a hb))

theorem exists_nonblank (hvalid : validateDsoTemplate template = .ok ()) :
    ∃ line ∈ templateLines template, line ≠ [] := by
  have hcount := (validate_eq_ok_iff.mp hvalid).2 "ConfigName" (by decide)
  rw [← countSettings_templateLines (by decide)] at hcount
  obtain ⟨line, hline, hsome⟩ := exists_setting hcount
  refine ⟨line, hline, fun hnil ↦ ?_⟩
  rw [hnil] at hsome
  exact absurd hsome (by decide)

theorem uniform_eq (hvalid : validateDsoTemplate template = .ok ()) :
    uniform template = unlines (bodyLines template) := by
  have hstrip := rstrip_joinLines (fun line hline ↦ newline_notMem_templateLines hline)
    (exists_nonblank hvalid)
  rw [templateLines, joinLines_newlines] at hstrip
  exact hstrip

theorem templateLines_unlines {lines : List (List Char)} (h : ∀ line ∈ lines, '\n' ∉ line) :
    templateLines (unlines lines) = lines.map chomp ++ [[]] := by
  rw [templateLines, newlines_crlfToLf, newlines_unlines h, chompInit_concat]

theorem bodyLines_unlines {lines : List (List Char)} (h : ∀ line ∈ lines, '\n' ∉ line) :
    bodyLines (unlines lines) = (lines.map chomp).rdropWhile List.isEmpty := by
  rw [bodyLines, templateLines_unlines h, List.rdropWhile_concat_pos _ _ _ rfl]

section Design

variable (hdesign : ∀ c ∈ designType.toList, isLineEnd c = false)

include hdesign

theorem newline_notMem_value {setting : String × List Char}
    (h : setting ∈ dsoValues designType useAutoSettings) : '\n' ∉ setting.2 := by
  intro hmem
  have hend := isLineEnd_value hdesign h '\n' hmem
  rw [isLineEnd_newline] at hend
  cases hend

theorem newline_notMem_setAll {line : List Char} (hline : '\n' ∉ line) (h : Replaced line) :
    '\n' ∉ setAll (dsoValues designType useAutoSettings) line := by
  rcases setAll_cases designType useAutoSettings h with
    ⟨-, hset⟩ | ⟨key, -, before, old, value, hsetting, hvalue, hset⟩
  · rw [hset]
    exact hline
  · rw [hset]
    intro hmem
    rcases List.mem_append.mp hmem with hbefore | hnew
    · exact hline ((heads_of_splitSetting hsetting).1 ▸ List.mem_append_left old hbefore)
    · exact newline_notMem_value hdesign hvalue hnew

theorem unlines_bodyLines (h : ∀ line ∈ templateLines template, Replaced line)
    (hcount : ∃ key ∈ dsoKeys, (templateLines template).countP (replaceable key) = 1) :
    (joinLines ((templateLines template).map
      (setAll (dsoValues designType useAutoSettings)))).rdropWhile (· == '\n') ++ ['\n'] =
        unlines ((bodyLines template).map (setAll (dsoValues designType useAutoSettings))) := by
  obtain ⟨key, hkey, hone⟩ := hcount
  obtain ⟨line, hline, hreplaceable⟩ := exists_setting hone
  have hne : line ≠ [] := by
    intro hnil
    have hsome := isSome_of_replaceable hreplaceable
    rw [hnil, splitSetting_nil hkey] at hsome
    cases hsome
  rw [rstrip_joinLines, rdropWhile_isEmpty_map fun line hline ↦ setAll_eq_nil_iff (h line hline)]
  · rfl
  · intro line' hmem
    obtain ⟨line, hline, rfl⟩ := List.mem_map.mp hmem
    exact newline_notMem_setAll hdesign (newline_notMem_templateLines hline) (h line hline)
  · exact ⟨_, List.mem_map_of_mem hline, fun hnil ↦ hne ((setAll_eq_nil_iff (h line hline)).mp hnil)⟩

theorem renderSettings_template (text : List Char) :
    renderSettings (dsoValues designType useAutoSettings) (crlfToLf template) = .ok text ↔
      (∀ key ∈ dsoKeys, (templateLines template).countP (replaceable key) = 1) ∧
      text = joinLines ((templateLines template).map
        (setAll (dsoValues designType useAutoSettings))) := by
  have hkeys : (∀ setting ∈ dsoValues designType useAutoSettings,
      (templateLines template).countP (replaceable setting.1) = 1) ↔
      ∀ key ∈ dsoKeys, (templateLines template).countP (replaceable key) = 1 := by
    rw [← show (dsoValues designType useAutoSettings).map (·.1) = dsoKeys from rfl,
      List.forall_mem_map]
  have hjoin : crlfToLf template = joinLines (templateLines template) :=
    (joinLines_newlines _).symm
  rw [hjoin, ← hkeys]
  apply renderSettings_eq_ok_iff (fun _ ↦ mem_dsoKeys) dsoKeys_nodup
    (fun _ ↦ newline_notMem_value hdesign) (templateLines_ne_nil template)
  intro line hline
  exact newline_notMem_templateLines hline

theorem render_eq_ok_iff :
    renderDsoConfiguration template designType useAutoSettings = .ok rendered ↔
      validateDsoTemplate template = .ok () ∧
      (∀ key ∈ dsoKeys, (templateLines template).countP (replaceable key) = 1) ∧
      validateDsoTemplate (joinLines ((templateLines template).map
        (setAll (dsoValues designType useAutoSettings)))) = .ok () ∧
      rendered = unlines ((bodyLines template).map
        (setAll (dsoValues designType useAutoSettings))) := by
  rw [render_steps]
  refine and_congr_right fun hvalid ↦ ?_
  constructor
  · intro h
    obtain ⟨text, htext, haccepted, hrendered⟩ := h
    obtain ⟨hcounts, rfl⟩ := (renderSettings_template hdesign text).mp htext
    have hreplaced := replaced_of_counts hvalid hcounts
    rw [unlines_bodyLines hdesign hreplaced ⟨"ConfigName", by decide, hcounts _ (by decide)⟩]
      at hrendered
    exact ⟨hcounts, haccepted, hrendered⟩
  · intro h
    obtain ⟨hcounts, haccepted, hrendered⟩ := h
    have hreplaced := replaced_of_counts hvalid hcounts
    refine ⟨_, (renderSettings_template hdesign _).mpr ⟨hcounts, rfl⟩, haccepted, ?_⟩
    rw [unlines_bodyLines hdesign hreplaced ⟨"ConfigName", by decide, hcounts _ (by decide)⟩]
    exact hrendered

theorem blockLines_map_setAll {lines : List (List Char)} (h : ∀ line ∈ lines, Settable line) :
    ((lines.map (setAll (dsoValues designType useAutoSettings))).flatMap
      fun line ↦ (filled line).filterMap blockLine) =
        lines.flatMap fun line ↦ (filled line).filterMap blockLine := by
  rw [List.flatMap_map]
  exact List.flatMap_congr fun line hline ↦ blockLines_setAll hdesign (h line hline)

theorem newline_notMem_map_setAll {lines : List (List Char)} (hlines : ∀ line ∈ lines, '\n' ∉ line)
    (h : ∀ line ∈ lines, Replaced line) :
    ∀ line ∈ lines.map (setAll (dsoValues designType useAutoSettings)), '\n' ∉ line := by
  intro line' hmem
  obtain ⟨line, hline, rfl⟩ := List.mem_map.mp hmem
  exact newline_notMem_setAll hdesign (hlines line hline) (h line hline)

theorem newline_notMem_rendered (h : ∀ line ∈ templateLines template, Replaced line) :
    ∀ line ∈ (bodyLines template).map (setAll (dsoValues designType useAutoSettings)),
      '\n' ∉ line := by
  apply newline_notMem_map_setAll hdesign
  · intro line hline
    exact newline_notMem_templateLines (mem_of_mem_bodyLines hline)
  · intro line hline
    exact h line (mem_of_mem_bodyLines hline)

theorem blockLines_rendered (h : ∀ line ∈ templateLines template, Settable line) :
    blockLines (unlines ((bodyLines template).map
      (setAll (dsoValues designType useAutoSettings)))) = blockLines template := by
  rw [blockLines_unlines, blockLines_map_setAll hdesign fun line hline ↦
    h line (mem_of_mem_bodyLines hline), bodyLines, flatMap_rdropWhile_isEmpty rfl,
    blockLines_templateLines]

theorem countSettings_rendered (h : ∀ line ∈ templateLines template, Replaced line) {key : String}
    (hkey : key ∈ dsoKeys) : countSettings key (unlines ((bodyLines template).map
      (setAll (dsoValues designType useAutoSettings)))) =
        (templateLines template).countP fun line ↦ (splitSetting key line).isSome := by
  rw [countSettings_unlines hkey (newline_notMem_rendered hdesign h),
    countP_setAll (fun line hline ↦ h line (mem_of_mem_bodyLines hline)) hkey, bodyLines,
    countP_rdropWhile_isEmpty (by rw [splitSetting_nil hkey]; rfl)]

theorem render_of_settable (hvalid : validateDsoTemplate template = .ok ())
    (h : ∀ line ∈ templateLines template, Settable line) :
    renderDsoConfiguration template designType useAutoSettings =
      .ok (unlines ((bodyLines template).map (setAll (dsoValues designType useAutoSettings)))) := by
  have hreplaced : ∀ line ∈ templateLines template, Replaced line :=
    fun line hline ↦ (h line hline).replaced
  refine (render_eq_ok_iff hdesign).mpr ⟨hvalid, fun key hkey ↦ countP_replaceable hvalid hreplaced
    hkey, ?_, rfl⟩
  have hne : (templateLines template).map (setAll (dsoValues designType useAutoSettings)) ≠ [] := by
    simpa using templateLines_ne_nil template
  apply validate_lines hvalid
  · rw [blockLines_joinLines hne, blockLines_map_setAll hdesign h, blockLines_templateLines]
  · intro key hkey
    rw [countSettings_lines hne (newline_notMem_map_setAll hdesign
      (fun line hline ↦ newline_notMem_templateLines hline) hreplaced), countP_setAll hreplaced hkey]

theorem validate_rendered (hvalid : validateDsoTemplate template = .ok ())
    (h : ∀ line ∈ templateLines template, Settable line) :
    validateDsoTemplate (unlines ((bodyLines template).map
      (setAll (dsoValues designType useAutoSettings)))) = .ok () := by
  apply validate_lines hvalid (blockLines_rendered hdesign h)
  intro key hkey
  exact countSettings_rendered hdesign (fun line hline ↦ (h line hline).replaced) hkey

theorem settingValues_rendered (hvalid : validateDsoTemplate template = .ok ())
    (h : ∀ line ∈ templateLines template, Replaced line) {key : String} {value : List Char}
    (hvalue : (key, value) ∈ dsoValues designType useAutoSettings) :
    settingValues key (unlines ((bodyLines template).map
      (setAll (dsoValues designType useAutoSettings)))) = [value] := by
  have hkey : key ∈ dsoKeys := mem_dsoKeys hvalue
  have hcount : countSettings key (unlines ((bodyLines template).map
      (setAll (dsoValues designType useAutoSettings)))) = 1 := by
    rw [countSettings_rendered hdesign h hkey, countSettings_templateLines hkey,
      (validate_eq_ok_iff.mp hvalid).2 key hkey]
  rw [countSettings, newlines_unlines (newline_notMem_rendered hdesign h)] at hcount
  unfold settingValues
  rw [newlines_unlines (newline_notMem_rendered hdesign h)]
  obtain ⟨setting, hsetting⟩ :=
    List.length_eq_one_iff.mp (List.length_filterMap_eq_countP.trans hcount)
  obtain ⟨before, value'⟩ := setting
  obtain ⟨line', hline', hsplit⟩ := List.mem_filterMap.mp (hsetting ▸ List.mem_singleton_self _)
  rw [hsetting]
  rcases List.mem_append.mp hline' with hmem | hblank
  · obtain ⟨line, hline, rfl⟩ := List.mem_map.mp hmem
    rw [value_of_splitSetting_setAll (h line (mem_of_mem_bodyLines hline)) hkey hvalue hsplit]
    rfl
  · rw [List.mem_singleton.mp hblank, splitSetting_nil hkey] at hsplit
    cases hsplit

/-- A line is one line before and after the substitutions, or is not touched by them. -/
theorem keptLine_setAll {line : List Char} (h : Settable line) :
    List.Forall₂ KeptLine (linesAfter [] (line ++ ['\n']))
      (linesAfter [] (setAll (dsoValues designType useAutoSettings) line ++ ['\n'])) := by
  rcases setAll_cases designType useAutoSettings h.replaced with
    ⟨-, hset⟩ | ⟨key, hkey, before, old, value, hsetting, hvalue, hset⟩
  · rw [hset]
    exact List.forall₂_same.mpr fun _ _ ↦ .inl rfl
  · have hold := plain_setting hkey hsetting (h key hkey before old hsetting)
    rw [hset, linesAfter_line hold,
      linesAfter_line (isLineEnd_setting hdesign hkey hsetting hvalue)]
    refine .cons (.inr ⟨key, hkey, before, old, value, hsetting, ?_⟩) .nil
    exact splitSetting_replaced hkey hsetting value

theorem lines_rendered (hvalid : validateDsoTemplate template = .ok ())
    (h : ∀ line ∈ templateLines template, Settable line) :
    List.Forall₂ KeptLine (linesAfter [] (uniform template)) (linesAfter [] (unlines
      ((bodyLines template).map (setAll (dsoValues designType useAutoSettings))))) := by
  rw [uniform_eq hvalid, linesAfter_unlines, linesAfter_unlines, List.flatMap_map]
  apply forall₂_flatMap
  intro line hline
  exact keptLine_setAll hdesign (h line (mem_of_mem_bodyLines hline))

/-- No line of the rendered text ends in a carriage return. -/
theorem chomp_rendered (h : Replaceable template) :
    ((bodyLines template).map (setAll (dsoValues designType useAutoSettings))).map chomp =
      (bodyLines template).map (setAll (dsoValues designType useAutoSettings)) := by
  rw [List.map_map]
  apply List.map_congr_left
  intro line hline
  have hmem := mem_of_mem_bodyLines hline
  rw [Function.comp_apply, chomp_eq_self_iff]
  rcases setAll_cases designType useAutoSettings (replaced_templateLines h line hmem) with
    ⟨-, hset⟩ | ⟨key, hkey, before, old, value, hsetting, hvalue, hset⟩
  · rw [hset]
    exact h.returns line hmem
  · rw [hset]
    intro hlast
    have hplain := isLineEnd_setting hdesign hkey hsetting hvalue
    exact return_notMem hplain (List.mem_of_getLast? hlast)

theorem render_rendered (hvalid : validateDsoTemplate template = .ok ())
    (h : Replaceable template) : renderDsoConfiguration (unlines ((bodyLines template).map
      (setAll (dsoValues designType useAutoSettings)))) designType useAutoSettings =
        .ok (unlines ((bodyLines template).map (setAll (dsoValues designType useAutoSettings)))) := by
  have hreplaced := replaced_templateLines h
  have hlines : ∀ line ∈ (bodyLines template).map (setAll (dsoValues designType useAutoSettings)),
      '\n' ∉ line := newline_notMem_rendered hdesign hreplaced
  rw [render_of_settable hdesign (validate_rendered hdesign hvalid h.settings),
    bodyLines_unlines hlines, chomp_rendered hdesign h]
  · congr 2
    rw [bodyLines, ← rdropWhile_isEmpty_map fun line hline ↦
      setAll_eq_nil_iff (hreplaced line hline), List.rdropWhile_idempotent,
      rdropWhile_isEmpty_map fun line hline ↦ setAll_eq_nil_iff (hreplaced line hline),
      List.map_map]
    apply List.map_congr_left
    intro line hline
    rw [Function.comp_apply, setAll_setAll hdesign (hreplaced line (mem_of_mem_bodyLines hline))]
  · intro line' hmem
    rw [templateLines_unlines hlines, chomp_rendered hdesign h] at hmem
    rcases List.mem_append.mp hmem with hmem | hblank
    · obtain ⟨line, hline, rfl⟩ := List.mem_map.mp hmem
      exact settable_setAll hdesign (h.settings line (mem_of_mem_bodyLines hline))
    · intro key hkey before value hsetting
      rw [List.mem_singleton.mp hblank, splitSetting_nil hkey] at hsetting
      cases hsetting

/-- The rest of a setting's line is another line of the template, and is lost. -/
theorem length_setAll_lt {line : List Char} (h : Replaced line) (hends : ¬Settable line) :
    (linesAfter [] (setAll (dsoValues designType useAutoSettings) line ++ ['\n'])).length <
      (linesAfter [] (line ++ ['\n'])).length := by
  rcases setAll_cases designType useAutoSettings h with
    ⟨hnone, -⟩ | ⟨key, hkey, before, old, value, hsetting, hvalue, hset⟩
  · refine absurd (fun key hkey before value hsetting ↦ ?_) hends
    rw [hnone key hkey] at hsetting
    cases hsetting
  · obtain ⟨hline, hheads⟩ := heads_of_splitSetting hsetting
    have hend : ∃ c ∈ old, isLineEnd c = true := by
      by_contra hall
      push Not at hall
      have hold : ∀ c ∈ old, isLineEnd c = false :=
        fun c hc ↦ Bool.eq_false_iff.mpr (hall c hc)
      refine hends fun key' hkey' before' value' hsetting' c hc ↦ ?_
      refine plain_setting hkey hsetting hold c ?_
      rw [(heads_of_splitSetting hsetting').1]
      exact List.mem_append_right _ hc
    obtain ⟨c, hc, hcend⟩ := hend
    have hreturn : '\r' ∉ line := by
      rw [hline]
      intro hmem
      rcases List.mem_append.mp hmem with hbefore | hmem
      · exact return_notMem (isLineEnd_heads hkey hheads) hbefore
      · exact h key hkey before old hsetting hmem
    have htwo := two_le_length_linesAfter
      ⟨c, hline ▸ List.mem_append_right _ hc, hcend⟩ hreturn []
    rw [hset, linesAfter_line (isLineEnd_setting hdesign hkey hsetting hvalue), List.length_singleton]
    omega

theorem settable_of_lines (h : ∀ line ∈ bodyLines template, Replaced line)
    (hlength : (linesAfter [] (unlines (bodyLines template))).length = (linesAfter [] (unlines
      ((bodyLines template).map (setAll (dsoValues designType useAutoSettings))))).length) :
    ∀ line ∈ bodyLines template, Settable line := by
  by_contra hall
  push Not at hall
  obtain ⟨line, hline, hends⟩ := hall
  have hlt := List.sum_lt_sum
    (fun line ↦ (linesAfter [] (setAll (dsoValues designType useAutoSettings) line ++ ['\n'])).length)
    (fun line ↦ (linesAfter [] (line ++ ['\n'])).length) (l := bodyLines template)
    (fun line' hline' ↦ ?_) ⟨line, hline, length_setAll_lt hdesign (h line hline) hends⟩
  · rw [linesAfter_unlines, linesAfter_unlines, List.flatMap_map, List.length_flatMap,
      List.length_flatMap] at hlength
    omega
  · by_cases hset : Settable line'
    · exact (keptLine_setAll hdesign hset).length_eq.ge
    · exact (length_setAll_lt hdesign (h line' hline') hset).le

/-- A text that is rendered as it stands has no carriage return at the end of a line. -/
theorem chomp_of_again (h : ∀ line ∈ bodyLines template, Settable line)
    (hlines : ∀ line ∈ (bodyLines template).map (setAll (dsoValues designType useAutoSettings)),
      '\n' ∉ line)
    (hagain : renderDsoConfiguration (unlines ((bodyLines template).map
      (setAll (dsoValues designType useAutoSettings)))) designType useAutoSettings =
        .ok (unlines ((bodyLines template).map (setAll (dsoValues designType useAutoSettings))))) :
    ∀ line ∈ bodyLines template, chomp line = line := by
  obtain ⟨hvalid, hcounts, -, heq⟩ := (render_eq_ok_iff hdesign).mp hagain
  have hinj := unlines_inj hlines
    (newline_notMem_rendered hdesign (replaced_of_counts hvalid hcounts)) heq
  rw [bodyLines_unlines hlines] at hinj
  have hlength := congrArg List.length hinj
  rw [List.length_map, List.length_map] at hlength
  have hwhole := (List.rdropWhile_prefix List.isEmpty (((bodyLines template).map
    (setAll (dsoValues designType useAutoSettings))).map chomp)).eq_of_length (by
      rw [List.length_map, List.length_map]
      exact hlength.symm)
  rw [hwhole, List.map_map, List.map_map] at hinj
  intro line hline
  rcases setAll_cases designType useAutoSettings (h line hline).replaced with
    ⟨hnone, hset⟩ | ⟨key, hkey, before, old, value, hsetting, -, -⟩
  · have hsame := (List.map_inj_left.mp hinj) line hline
    rw [Function.comp_apply, Function.comp_apply, hset, setAll_of_none fun setting hmem ↦
      splitSetting_chomp_none (mem_dsoKeys hmem) (hnone setting.1 (mem_dsoKeys hmem))] at hsame
    exact hsame.symm
  · rw [chomp_eq_self_iff]
    intro hlast
    have hplain := plain_setting hkey hsetting (h line hline key hkey before old hsetting)
    exact return_notMem hplain (List.mem_of_getLast? hlast)

theorem rendersExactly_of_replaceable (hvalid : validateDsoTemplate template = .ok ())
    (h : Replaceable template) : RendersExactly template designType useAutoSettings
      (unlines ((bodyLines template).map (setAll (dsoValues designType useAutoSettings)))) where
  renders := render_of_settable hdesign hvalid h.settings
  accepted := validate_rendered hdesign hvalid h.settings
  blocks := blockLines_rendered hdesign h.settings
  settings := fun _ hvalue ↦ settingValues_rendered hdesign hvalid (replaced_templateLines h) hvalue
  lines := lines_rendered hdesign hvalid h.settings
  again := render_rendered hdesign hvalid h

theorem replaceable_of_rendersExactly
    (h : RendersExactly template designType useAutoSettings rendered) : Replaceable template := by
  obtain ⟨hvalid, hcounts, -, hrendered⟩ := (render_eq_ok_iff hdesign).mp h.renders
  subst hrendered
  have hreplaced := replaced_of_counts hvalid hcounts
  have hlength := h.lines.length_eq
  rw [uniform_eq hvalid] at hlength
  have hbody := settable_of_lines hdesign
    (fun line hline ↦ hreplaced line (mem_of_mem_bodyLines hline)) hlength
  refine ⟨settable_of_mem_bodyLines hbody, ?_⟩
  intro line hline
  rcases mem_or_eq_nil hline with hkept | hnil
  · exact chomp_eq_self_iff.mp (chomp_of_again hdesign hbody
      (newline_notMem_rendered hdesign hreplaced) h.again line hkept)
  · rw [hnil]
    exact fun hlast ↦ by cases hlast

/-- Rendering changes the six settings and nothing else exactly where the renderer may replace
them. -/
theorem renders_exactly_iff (hvalid : validateDsoTemplate template = .ok ()) :
    (∃ rendered, RendersExactly template designType useAutoSettings rendered) ↔
      Replaceable template := by
  constructor
  · intro h
    obtain ⟨rendered, hrenders⟩ := h
    exact replaceable_of_rendersExactly hdesign hrenders
  · intro h
    exact ⟨_, rendersExactly_of_replaceable hdesign hvalid h⟩

end Design

end Rendering

def coresTemplate (cores : String) : List Char := unlines (List.map String.toList
  ["$begin 'Configs'", "$begin 'Configs'", "$begin 'DSOConfig'", "ConfigName='Local'",
    "DesignType='HFSS'", "$begin 'DSOMachineList'", "$begin 'DSOMachineInfo'", "NumEngines=1",
    "NumCores=" ++ cores, "NumGPUs=0", "$end 'DSOMachineInfo'", "$end 'DSOMachineList'",
    "$begin 'DSOJobDistributionInfo'", "$end 'DSOJobDistributionInfo'",
    "$begin 'DSOMachineOptionsInfo'", "UseAutoSettings=true", "$end 'DSOMachineOptionsInfo'",
    "$end 'DSOConfig'", "$end 'Configs'", "$end 'Configs'"])

theorem renders_eight_cores : Replaceable (coresTemplate "8") ∧
    ∃ rendered, RendersExactly (coresTemplate "8") "Icepak" false rendered := by
  have hplain : (newlines (crlfToLf (coresTemplate "8"))).all (fun line ↦
      line.getLast? != some '\r' && dsoKeys.all fun key ↦
        (splitSetting key line).all fun setting ↦ setting.2.all fun c ↦ !isLineEnd c) = true := by
    rfl
  simp only [List.all_eq_true, Bool.and_eq_true, bne_iff_ne, Option.all_eq_true,
    Bool.not_eq_true'] at hplain
  have hreplaceable : Replaceable (coresTemplate "8") :=
    ⟨fun line hline key hkey before value hsetting c hc ↦
      (hplain line hline).2 key hkey (before, value) hsetting c hc,
      fun line hline ↦ (hplain line hline).1⟩
  exact ⟨hreplaceable,
    (renders_exactly_iff (isLineEnd_of_all (by decide)) (by rfl)).mpr hreplaceable⟩

/-- After a form feed, the rest of the line is lost. -/
theorem form_feed_loses_setting :
    validateDsoTemplate (coresTemplate "8\x0cIsEnabled=true") = .ok () ∧
      ¬∃ rendered,
        RendersExactly (coresTemplate "8\x0cIsEnabled=true") "Icepak" false rendered := by
  refine ⟨by rfl, ?_⟩
  intro h
  obtain ⟨rendered, hrenders⟩ := h
  have hsettings := (replaceable_of_rendersExactly (isLineEnd_of_all (by decide)) hrenders).settings
    "NumCores=8\x0cIsEnabled=true".toList (by decide) "NumCores" (by decide)
    "NumCores=".toList "8\x0cIsEnabled=true".toList (by decide) '\x0c' (by decide)
  exact absurd hsettings (by decide)

end SlurmScheduler.Host
