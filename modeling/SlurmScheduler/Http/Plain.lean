import SlurmScheduler.Http.Reading

namespace SlurmScheduler.Http

def isVisible (b : UInt8) : Bool := 33 ≤ b && b ≤ 126

theorem forall_octet {p : UInt8 → Prop} (h : ∀ n : Fin 256, p (UInt8.ofFin n)) (b : UInt8) :
    p b := by
  simpa using h b.toFin

theorem octet_classes (b : UInt8) :
    (isTokenOctet b = true → isVisible b = true) ∧ (isTargetOctet b = true → isVisible b = true) ∧
      (isHex b = true → isVisible b = true) ∧
      (isDigit b = true → isVisible b = true ∧ (b == comma) = false ∧ isBlank b = false) ∧
      (isVisible b = true → (b == sp) = false ∧ Reader.isLineBlank b = false ∧
        isFieldOctet b = true ∧ isBlank b = false) ∧
      (isFieldOctet b = true → b ≠ cr ∧ b ≠ lf) := by
  revert b
  apply forall_octet
  decide +kernel

theorem isVisible_of_isTokenOctet (b : UInt8) : isTokenOctet b = true → isVisible b = true :=
  (octet_classes b).1

theorem isVisible_of_isTargetOctet (b : UInt8) : isTargetOctet b = true → isVisible b = true :=
  (octet_classes b).2.1

theorem isVisible_of_isHex (b : UInt8) : isHex b = true → isVisible b = true :=
  (octet_classes b).2.2.1

theorem isVisible_of_isDigit (b : UInt8) : isDigit b = true → isVisible b = true :=
  fun h ↦ ((octet_classes b).2.2.2.1 h).1

theorem visible_of_isToken {text : Octets} (h : isToken text = true) :
    ∀ b ∈ text, isVisible b = true := by
  intro b hb
  simp only [isToken, Bool.and_eq_true, List.all_eq_true] at h
  exact isVisible_of_isTokenOctet b (h.2 b hb)

theorem visible_of_isTargetText {text : Octets} (h : isTargetText text = true) :
    ∀ b ∈ text, isVisible b = true := by
  fun_induction isTargetText text with
  | case1 => simp
  | case2 b hb h' l rest ih =>
    simp only [Bool.and_eq_true] at h
    intro c hc
    simp only [List.mem_cons] at hc
    rcases hc with rfl | rfl | rfl | hc
    · rw [eq_of_beq hb]
      decide
    · exact isVisible_of_isHex _ h.1.1
    · exact isVisible_of_isHex _ h.1.2
    · exact ih h.2 c hc
  | case3 => cases h
  | case4 b rest hb ih =>
    simp only [Bool.and_eq_true] at h
    intro c hc
    cases hc with
    | head => exact isVisible_of_isTargetOctet _ h.1
    | tail _ hc => exact ih h.2 c hc

theorem visible_of_isVersion {text : Octets} (h : isVersion text = true) :
    ∀ b ∈ text, isVisible b = true := by
  unfold isVersion at h
  split at h
  · next a b c d e major dot minor =>
    simp only [Bool.and_eq_true, beq_iff_eq] at h
    obtain ⟨⟨⟨hs, hmajor⟩, hdot⟩, hminor⟩ := h
    intro x hx
    have hx' : x ∈ ascii "HTTP/" ∨ x = major ∨ x = dot ∨ x = minor := by
      rw [← hs]
      simpa [or_assoc] using hx
    rcases hx' with hx | rfl | rfl | rfl
    · exact List.all_eq_true.mp (by decide : (ascii "HTTP/").all isVisible = true) x hx
    · exact isVisible_of_isDigit _ hmajor
    · rw [hdot]
      decide
    · exact isVisible_of_isDigit _ hminor
  · cases h

theorem isToken_ne_nil {text : Octets} (h : isToken text = true) : text ≠ [] := by
  rintro rfl
  cases h

theorem isOriginForm_ne_nil {text : Octets} (h : isOriginForm text = true) : text ≠ [] := by
  rintro rfl
  cases h

theorem isVersion_ne_nil {text : Octets} (h : isVersion text = true) : text ≠ [] := by
  rintro rfl
  cases h

theorem splitOnP_three {blank : UInt8 → Bool} {m t v : Octets} (hs : blank sp = true)
    (hm : ∀ b ∈ m, blank b = false) (ht : ∀ b ∈ t, blank b = false)
    (hv : ∀ b ∈ v, blank b = false) :
    (m ++ sp :: (t ++ sp :: v)).splitOnP blank = [m, t, v] := by
  rw [List.splitOnP_append_cons_of_forall_mem hm _ hs,
    List.splitOnP_append_cons_of_forall_mem ht _ hs, List.splitOnP_eq_singleton hv]

theorem words_three {blank : UInt8 → Bool} {m t v : Octets} (hs : blank sp = true)
    (hm : ∀ b ∈ m, blank b = false) (ht : ∀ b ∈ t, blank b = false)
    (hv : ∀ b ∈ v, blank b = false) (hm' : m ≠ []) (ht' : t ≠ []) (hv' : v ≠ []) :
    words blank (m ++ sp :: (t ++ sp :: v)) = [m, t, v] := by
  rw [words, splitOnP_three hs hm ht hv]
  simp [hm', ht', hv']

structure RequestLine.Written (line : RequestLine) (text : Octets) : Prop where
  text_eq : text = line.method ++ sp :: (line.target ++ sp :: line.version)
  method : isToken line.method = true
  target : isOriginForm line.target = true
  version : isVersion line.version = true

namespace RequestLine.Written

variable {line : RequestLine} {text : Octets}

theorem visible (h : line.Written text) {b : UInt8}
    (hb : b ∈ line.method ∨ b ∈ line.target ∨ b ∈ line.version) : isVisible b = true := by
  have ht := h.target
  rw [isOriginForm, Bool.and_eq_true] at ht
  rcases hb with hb | hb | hb
  · exact visible_of_isToken h.method b hb
  · exact visible_of_isTargetText ht.2 b hb
  · exact visible_of_isVersion h.version b hb

theorem words (h : line.Written text) {blank : UInt8 → Bool} (hs : blank sp = true)
    (hblank : ∀ b, isVisible b = true → blank b = false) :
    Http.words blank text = [line.method, line.target, line.version] := by
  rw [h.text_eq]
  exact words_three hs (fun b hb ↦ hblank b (h.visible (.inl hb)))
    (fun b hb ↦ hblank b (h.visible (.inr (.inl hb))))
    (fun b hb ↦ hblank b (h.visible (.inr (.inr hb))))
    (isToken_ne_nil h.method) (isOriginForm_ne_nil h.target) (isVersion_ne_nil h.version)

theorem octet (h : line.Written text) {b : UInt8} (hb : b ∈ text) :
    b = sp ∨ isVisible b = true := by
  rw [h.text_eq] at hb
  simp only [List.mem_append, List.mem_cons] at hb
  rcases hb with hb | hb | hb | hb | hb
  · exact .inr (h.visible (.inl hb))
  · exact .inl hb
  · exact .inr (h.visible (.inr (.inl hb)))
  · exact .inl hb
  · exact .inr (h.visible (.inr (.inr hb)))

end RequestLine.Written

theorem isVisible_ne_sp (b : UInt8) : isVisible b = true → (b == sp) = false :=
  fun h ↦ ((octet_classes b).2.2.2.2.1 h).1

theorem isVisible_not_isLineBlank (b : UInt8) :
    isVisible b = true → Reader.isLineBlank b = false :=
  fun h ↦ ((octet_classes b).2.2.2.2.1 h).2.1

namespace Reader

theorem requestLine_of_written (r : Reader) {line : RequestLine} {text : Octets}
    (h : line.Written text) : r.requestLine text = some line := by
  have hw : (if r.cutsWords then words isLineBlank text else text.splitOn sp) =
      [line.method, line.target, line.version] := by
    split
    · exact h.words (by decide) isVisible_not_isLineBlank
    · rw [List.splitOn_eq_splitOnP, h.text_eq]
      exact splitOnP_three (by decide) (fun b hb ↦ isVisible_ne_sp b (h.visible (.inl hb)))
        (fun b hb ↦ isVisible_ne_sp b (h.visible (.inr (.inl hb))))
        (fun b hb ↦ isVisible_ne_sp b (h.visible (.inr (.inr hb))))
  rw [requestLine, hw]
  simp [h.method, h.target, h.version]

theorem strict_requestLine_iff {line : RequestLine} {text : Octets} :
    strict.requestLine text = some line ↔ line.Written text := by
  refine ⟨fun h ↦ ?_, requestLine_of_written strict⟩
  have hi : [sp].intercalate (text.splitOn sp) = text := List.intercalate_splitOn sp
  simp only [requestLine, strict, Bool.false_eq_true, if_false] at h
  split at h
  · next m t v hsplit =>
    rw [hsplit] at hi
    split at h
    · next hok =>
      cases h
      simp only [Bool.and_eq_true] at hok
      refine ⟨?_, hok.1.1, hok.1.2, hok.2⟩
      rw [← hi]
      simp [List.intercalate]
    · cases h
  · cases h

theorem valueOctet_of_isFieldOctet (r : Reader) {b : UInt8} (h : isFieldOctet b = true) :
    r.valueOctet b = some b := by
  rw [valueOctet, if_pos h]

theorem strict_valueOctet {b c : UInt8} (h : strict.valueOctet b = some c) :
    isFieldOctet b = true ∧ c = b := by
  unfold valueOctet at h
  split at h
  · next hb => exact ⟨hb, by cases h; rfl⟩
  · split at h <;> cases h

end Reader

structure Field.Written (field : Field) (text : Octets) : Prop where
  name : isToken field.name = true
  text_eq : ∃ value, text = field.name ++ colon :: value ∧ field.value = trim isBlank value ∧
    ∀ b ∈ value, isFieldOctet b = true

theorem cutAt_colon {name value : Octets} (h : colon ∉ name) :
    cutAt [colon] (name ++ colon :: value) = some (name, value) := by
  induction name with
  | nil => exact cutAt_cons_here rfl
  | cons b name ih =>
    rw [List.mem_cons, not_or] at h
    have hp : ¬ [colon] <+: b :: (name ++ colon :: value) := by
      rw [List.cons_prefix_cons]
      exact fun hp ↦ h.1 hp.1
    rw [List.cons_append, cutAt_cons_skip hp, ih h.2]
    rfl

theorem colon_notMem_token {name : Octets} (h : isToken name = true) : colon ∉ name := by
  intro hm
  simp only [isToken, Bool.and_eq_true, List.all_eq_true] at h
  exact absurd (h.2 colon hm) (by decide)

theorem mapM_eq_self {α : Type} {f : α → Option α} {l : List α} (h : ∀ a ∈ l, f a = some a) :
    l.mapM f = some l := by
  induction l with
  | nil => rfl
  | cons a l ih =>
    rw [List.mapM_cons, h a (by simp), ih fun b hb ↦ h b (by simp [hb])]
    rfl

theorem eq_of_mapM {α : Type} {f : α → Option α} (hf : ∀ a b, f a = some b → b = a)
    {l kept : List α} (h : l.mapM f = some kept) : kept = l := by
  induction l generalizing kept with
  | nil =>
    cases h
    rfl
  | cons a l ih =>
    simp only [List.mapM_cons, Option.bind_eq_bind, Option.bind_eq_some_iff, Option.pure_def,
      Option.some.injEq] at h
    obtain ⟨b, hb, rest, hr, rfl⟩ := h
    rw [hf a b hb, ih hr]

theorem forall_of_mapM {α β : Type} {f : α → Option β} {l : List α} {kept : List β}
    (h : l.mapM f = some kept) : ∀ a ∈ l, (f a).isSome := by
  induction l generalizing kept with
  | nil => simp
  | cons a l ih =>
    simp only [List.mapM_cons, Option.bind_eq_bind, Option.bind_eq_some_iff] at h
    obtain ⟨b, hb, rest, hr, -⟩ := h
    intro c hc
    cases hc with
    | head => rw [hb]; rfl
    | tail _ hc => exact ih hr c hc

namespace Reader

theorem field_of_written (r : Reader) {f : Field} {text : Octets} (h : f.Written text) :
    r.field text = some f := by
  obtain ⟨value, ht, hv, hoct⟩ := h.text_eq
  rw [field, ht, cutAt_colon (colon_notMem_token h.name)]
  simp only [h.name, if_true,
    mapM_eq_self fun b hb ↦ r.valueOctet_of_isFieldOctet (hoct b hb), Option.map_some]
  rw [← hv]

theorem strict_field_iff {f : Field} {text : Octets} :
    strict.field text = some f ↔ f.Written text := by
  refine ⟨fun h ↦ ?_, field_of_written strict⟩
  unfold field at h
  split at h
  · cases h
  · next name value hc =>
    split at h
    · next hn =>
      rw [Option.map_eq_some_iff] at h
      obtain ⟨kept, hk, rfl⟩ := h
      cases eq_of_mapM (fun _ _ hb ↦ (strict_valueOctet hb).2) hk
      have hoct : ∀ b ∈ value, isFieldOctet b = true := by
        intro b hb
        obtain ⟨c, hc⟩ := Option.isSome_iff_exists.mp (forall_of_mapM hk b hb)
        exact (strict_valueOctet hc).1
      exact ⟨hn, value, by simpa using eq_of_cutAt hc, rfl, hoct⟩
    · cases h

end Reader

theorem dropWhile_of_forall {blank : UInt8 → Bool} {text : Octets}
    (h : ∀ b ∈ text, blank b = false) : text.dropWhile blank = text := by
  cases text with
  | nil => rfl
  | cons b text => rw [List.dropWhile_cons, h b (by simp)]; rfl

theorem trim_of_forall {blank : UInt8 → Bool} {text : Octets}
    (h : ∀ b ∈ text, blank b = false) : trim blank text = text := by
  rw [trim, dropWhile_of_forall h, dropWhile_of_forall (by simpa using h), List.reverse_reverse]

theorem digits_of_decimal {text : Octets} {n : ℕ} (h : decimal text = some n) :
    text ≠ [] ∧ ∀ b ∈ text, isDigit b = true := by
  unfold decimal at h
  split at h
  · next hd =>
    simp only [Bool.and_eq_true, List.all_eq_true] at hd
    exact ⟨by simpa using hd.1, hd.2⟩
  · cases h

theorem isDigit_plain (b : UInt8) :
    isDigit b = true → (b == comma) = false ∧ isBlank b = false :=
  fun h ↦ ((octet_classes b).2.2.2.1 h).2

theorem listElements_of_decimal {text : Octets} {n : ℕ} (h : decimal text = some n) :
    Reader.listElements text = [text] := by
  obtain ⟨hn, hd⟩ := digits_of_decimal h
  rw [Reader.listElements, List.splitOn_eq_splitOnP,
    List.splitOnP_eq_singleton fun b hb ↦ (isDigit_plain b (hd b hb)).1]
  simp [trim_of_forall fun b hb ↦ (isDigit_plain b (hd b hb)).2, hn]

namespace Reader

theorem mapM_decimal_eq_singleton {values : List Octets} {n : ℕ} :
    values.mapM decimal = some [n] ↔ ∃ value, values = [value] ∧ decimal value = some n := by
  constructor
  · intro h
    match values with
    | [] => cases h
    | [value] =>
      refine ⟨value, rfl, ?_⟩
      simpa [List.mapM_cons, Option.bind_eq_some_iff] using h
    | value :: next :: rest =>
      simp [List.mapM_cons, Option.bind_eq_some_iff] at h
  · rintro ⟨value, rfl, hd⟩
    simp [hd]

theorem strict_framing_length_iff {fields : List Field} {n : ℕ} :
    strict.framing fields = some (.length n) ↔
      (∀ f ∈ fields, f.isNamed "transfer-encoding" = false) ∧
        ((lengthValues fields = [] ∧ n = 0) ∨
          ∃ value, lengthValues fields = [value] ∧ decimal value = some n) := by
  unfold framing
  split
  · next hte =>
    obtain ⟨f, hf, hn⟩ := List.any_eq_true.mp hte
    refine iff_of_false (by simp) ?_
    rintro ⟨hall, -⟩
    rw [hall f hf] at hn
    cases hn
  · next hte =>
    have hnone : ∀ f ∈ fields, f.isNamed "transfer-encoding" = false := by
      simpa using hte
    rw [and_iff_right hnone]
    split
    · next hv => simp [hv, eq_comm]
    · next hne =>
      rw [← mapM_decimal_eq_singleton, or_iff_right fun h ↦ hne h.1]
      simp only [strict, Bool.false_eq_true, if_false, Bool.false_or]
      constructor
      · intro h
        split at h
        · next m ms hm =>
          split at h
          · next hok =>
            cases h
            rw [Bool.and_eq_true, List.isEmpty_iff] at hok
            rw [hm, hok.2]
          · cases h
        · cases h
      · intro h
        simp [h]

theorem framing_of_strict (r : Reader) {fields : List Field} {fr : Framing}
    (h : strict.framing fields = some fr) : r.framing fields = some fr := by
  cases fr with
  | transferCoding =>
    unfold framing at h ⊢
    split at h
    · next hte => rw [if_pos hte]
    · split at h
      · cases h
      · split at h
        · split at h <;> cases h
        · cases h
  | length n =>
    obtain ⟨hte, hl⟩ := strict_framing_length_iff.mp h
    have hnot : fields.any (·.isNamed "transfer-encoding") = false := by
      simpa using hte
    rw [framing, hnot]
    rcases hl with ⟨hv, rfl⟩ | ⟨value, hv, hd⟩
    · simp [hv]
    · simp [hv, hd, listElements_of_decimal hd]

theorem written_of_mapM {lines : List Octets} {fields : List Field}
    (h : lines.mapM strict.field = some fields) :
    List.Forall₂ Field.Written fields lines := by
  induction lines generalizing fields with
  | nil =>
    cases h
    exact .nil
  | cons line lines ih =>
    simp only [List.mapM_cons, Option.bind_eq_bind, Option.bind_eq_some_iff, Option.pure_def,
      Option.some.injEq] at h
    obtain ⟨f, hf, fs, hfs, rfl⟩ := h
    exact .cons (strict_field_iff.mp hf) (ih hfs)

end Reader

theorem isFieldOctet_ne (b : UInt8) : isFieldOctet b = true → b ≠ cr ∧ b ≠ lf :=
  (octet_classes b).2.2.2.2.2

theorem isVisible_isFieldOctet (b : UInt8) :
    isVisible b = true → isFieldOctet b = true ∧ isBlank b = false :=
  fun h ↦ ((octet_classes b).2.2.2.2.1 h).2.2

/-- A line on which readers cannot differ, and not empty -/
structure Plain (line : Octets) : Prop where
  octets : ∀ b ∈ line, b ≠ cr ∧ b ≠ lf
  ne_nil : line ≠ []

theorem Plain.unbroken {line : Octets} (h : Plain line) (bareLf : Bool) :
    Unbroken bareLf line := by
  refine ⟨?_, fun _ hm ↦ (h.octets lf hm).2 rfl⟩
  rintro ⟨front, back, rfl⟩
  exact (h.octets cr (by simp)).1 rfl

theorem Plain.cleanLine {line : Octets} (h : Plain line) (r : Reader) :
    r.cleanLine line = some line := by
  rw [Reader.cleanLine, if_neg fun hm ↦ (h.octets cr hm).1 rfl]

theorem RequestLine.Written.plain {line : RequestLine} {text : Octets}
    (h : line.Written text) : Plain text := by
  refine ⟨fun b hb ↦ ?_, ?_⟩
  · rcases h.octet hb with rfl | hv
    · decide
    · exact isFieldOctet_ne b (isVisible_isFieldOctet b hv).1
  · rw [h.text_eq]
    simp

theorem Field.Written.plain {f : Field} {text : Octets} (h : f.Written text) : Plain text := by
  obtain ⟨value, rfl, -, hoct⟩ := h.text_eq
  refine ⟨fun b hb ↦ ?_, by simp⟩
  rw [List.mem_append, List.mem_cons] at hb
  rcases hb with hb | rfl | hb
  · exact isFieldOctet_ne b (isVisible_isFieldOctet b (visible_of_isToken h.name b hb)).1
  · decide
  · exact isFieldOctet_ne b (hoct b hb)

theorem Field.Written.startsBlank {f : Field} {text : Octets} (h : f.Written text) :
    Reader.startsBlank text = false := by
  obtain ⟨value, rfl, -, -⟩ := h.text_eq
  obtain ⟨b, name, hn⟩ := List.exists_cons_of_ne_nil (isToken_ne_nil h.name)
  have hv := visible_of_isToken h.name b (by simp [hn])
  rw [hn]
  simpa [Reader.startsBlank] using (isVisible_isFieldOctet b hv).2

namespace Reader

variable (r : Reader)

theorem unfoldFrom_of_not_blank {lines : List Octets}
    (h : ∀ line ∈ lines, startsBlank line = false) (current : Octets) :
    r.unfoldFrom current lines = some (current :: lines) := by
  induction lines generalizing current with
  | nil => rfl
  | cons line lines ih =>
    rw [unfoldFrom, if_neg (by simp [h line (by simp)]), ih fun other ho ↦ h other (by simp [ho])]
    rfl

theorem fieldLines_of_not_blank {lines : List Octets}
    (h : ∀ line ∈ lines, startsBlank line = false) : r.fieldLines lines = some lines := by
  cases lines with
  | nil => rfl
  | cons line lines =>
    rw [fieldLines, if_neg (by simp [h line (by simp)]),
      r.unfoldFrom_of_not_blank fun other ho ↦ h other (by simp [ho])]

theorem strict_unfoldFrom {lines unfolded : List Octets} {current : Octets}
    (h : strict.unfoldFrom current lines = some unfolded) : unfolded = current :: lines := by
  induction lines generalizing current unfolded with
  | nil =>
    cases h
    rfl
  | cons line lines ih =>
    rw [unfoldFrom] at h
    split at h
    · cases h
    · rw [Option.map_eq_some_iff] at h
      obtain ⟨later, hl, rfl⟩ := h
      rw [ih hl]

theorem strict_fieldLines {lines unfolded : List Octets}
    (h : strict.fieldLines lines = some unfolded) : unfolded = lines := by
  cases lines with
  | nil =>
    cases h
    rfl
  | cons line lines =>
    rw [fieldLines] at h
    split at h
    · cases h
    · exact strict_unfoldFrom h

theorem strict_cleanLine {line cleaned : Octets} (h : strict.cleanLine line = some cleaned) :
    cleaned = line := by
  unfold cleanLine at h
  split at h
  · cases h
  · cases h
    rfl

end Reader

structure HeadWritten (line : RequestLine) (fields : List Field) (framing : Framing)
    (start : Octets) (others : List Octets) : Prop where
  firstLine : line.Written start
  fieldLines : List.Forall₂ Field.Written fields others
  framed : Reader.strict.framing fields = some framing

namespace HeadWritten

variable {line : RequestLine} {fields : List Field} {framing : Framing} {start : Octets}
  {others : List Octets}

theorem exists_field (h : HeadWritten line fields framing start others) {text : Octets}
    (hm : text ∈ others) : ∃ f ∈ fields, f.Written text := by
  obtain ⟨i, hi, rfl⟩ := List.getElem_of_mem hm
  have hi' : i < fields.length := by rwa [h.fieldLines.length_eq]
  exact ⟨fields[i], List.getElem_mem hi', h.fieldLines.get hi' hi⟩

theorem plain (h : HeadWritten line fields framing start others) {text : Octets}
    (hm : text ∈ start :: others) : Plain text := by
  cases hm with
  | head => exact h.firstLine.plain
  | tail _ hm =>
    obtain ⟨f, -, hf⟩ := h.exists_field hm
    exact hf.plain

theorem mapM_field (h : HeadWritten line fields framing start others) (r : Reader) :
    others.mapM r.field = some fields := by
  have hf := h.fieldLines
  clear h
  induction hf with
  | nil => rfl
  | cons hw _ ih =>
    rw [List.mapM_cons, r.field_of_written hw, ih]
    rfl

theorem interpret (h : HeadWritten line fields framing start others) (r : Reader)
    (body : Octets) :
    r.interpret (start :: others) body = .request line fields framing body := by
  have hclean : (start :: others).mapM r.cleanLine = some (start :: others) :=
    mapM_eq_self fun text hm ↦ (h.plain hm).cleanLine r
  have hblank : ∀ text ∈ others, Reader.startsBlank text = false := by
    intro text hm
    obtain ⟨f, -, hf⟩ := h.exists_field hm
    exact hf.startsBlank
  rw [Reader.interpret, hclean]
  simp only [r.requestLine_of_written h.firstLine, r.fieldLines_of_not_blank hblank, Option.bind_some,
    h.mapM_field r, r.framing_of_strict h.framed]

/-- Every reader reads a request written in the grammar as the same request. -/
theorem read (h : HeadWritten line fields framing start others) (r : Reader) (body : Octets) :
    r.read (wire (start :: others) ++ body) = .request line fields framing body := by
  have hskip : ∀ n, r.skipEmpty n (wire (start :: others) ++ body) =
      wire (start :: others) ++ body := by
    intro n
    obtain ⟨b, rest, hb⟩ := List.exists_cons_of_ne_nil h.firstLine.plain.ne_nil
    have ho := h.firstLine.plain.octets b (by simp [hb])
    obtain ⟨c, tail, hc⟩ : ∃ c tail, wire (start :: others) ++ body = b :: c :: tail := by
      cases rest with
      | nil => exact ⟨cr, _, by rw [wire, hb]; rfl⟩
      | cons c rest => exact ⟨c, _, by rw [wire, hb]; rfl⟩
    cases n with
    | zero => rfl
    | succ n =>
      rw [hc, Reader.skipEmpty]
      simp [ho.1, ho.2]
  rw [Reader.read, hskip, headOf_wire body fun text hm ↦
    ⟨(h.plain hm).unbroken r.bareLf, (h.plain hm).ne_nil⟩]
  exact h.interpret r body

end HeadWritten

/-- The strictest reader cuts a message into the lines it was written with. -/
theorem strict_read_wire {lines : List Octets} (body : Octets)
    (h : ∀ line ∈ lines, ¬ crlf <:+: line ∧ line ≠ []) :
    Reader.strict.read (wire lines ++ body) = Reader.strict.interpret lines body := by
  have hhead : headOf false [] (wire lines ++ body) = some (lines, body) :=
    headOf_wire body fun line hm ↦ ⟨⟨(h line hm).1, fun hb ↦ by cases hb⟩, (h line hm).2⟩
  have hskip : Reader.strict.skipEmpty Reader.strict.emptyLines (wire lines ++ body) =
      wire lines ++ body := rfl
  rw [Reader.read, hskip, show Reader.strict.bareLf = false from rfl, hhead]

/-- What the strictest reader makes of well-cut lines says how they are written. -/
theorem strict_interpret_iff {line : RequestLine} {fields : List Field} {framing : Framing}
    {start body rest : Octets} {others : List Octets} :
    Reader.strict.interpret (start :: others) body = .request line fields framing rest ↔
      HeadWritten line fields framing start others ∧ rest = body := by
  constructor
  · intro h
    unfold Reader.interpret at h
    split at h
    · next start' others' hclean =>
      cases eq_of_mapM (fun _ _ ↦ Reader.strict_cleanLine) hclean
      split at h
      · next line' fields' hline hfields =>
        rw [Option.bind_eq_some_iff] at hfields
        obtain ⟨unfolded, hu, hfields⟩ := hfields
        cases Reader.strict_fieldLines hu
        split at h
        · next framing' hframing =>
          cases h
          exact ⟨⟨Reader.strict_requestLine_iff.mp hline, Reader.written_of_mapM hfields,
            hframing⟩, rfl⟩
        · cases h
      · cases h
    · cases h
  · rintro ⟨h, rfl⟩
    exact h.interpret Reader.strict rest

end SlurmScheduler.Http
