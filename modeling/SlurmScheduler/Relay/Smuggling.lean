import SlurmScheduler.Relay.Checks

namespace SlurmScheduler.Relay

open Http

def liesUnder (path : Octets) (start : String) : Bool :=
  startsWith path start &&
    (start.toList.getLast? == some '/' ||
      ((decode path).drop start.toList.length).head?.all (· == '/'))

/-- The octets are the head of one request on an allowed path, without a
transfer coding, and no more of a body than it declares. -/
def OneAllowedRequest (allowed : List String) : Reading → Prop
  | .request line _ (.length n) rest =>
      rest.length ≤ n ∧ ∃ start ∈ allowed, liesUnder line.path start = true
  | _ => False

instance (allowed : List String) : (reading : Reading) →
    Decidable (OneAllowedRequest allowed reading)
  | .request _ _ (.length _) _ => inferInstanceAs (Decidable (_ ∧ _))
  | .request _ _ .transferCoding _ => .isFalse id
  | .incomplete => .isFalse id
  | .refused => .isFalse id

def requestLineOf (rawHead : Octets) : Octets := (crlfLines rawHead).headD []

def sentHeaders (rawHead : Octets) : List Octets :=
  (crlfLines rawHead).tail.filter (!isConnection ·)

/-- The lines that are sent on are lines of the grammar; Content-Length stands
in one of them at most, in digits, and the path ends a prefix with a segment. -/
structure PlainlyWritten (allowed : List String) (rawHead : Octets) : Prop where
  requestLine : ∃ line : RequestLine, line.Written (requestLineOf rawHead) ∧
    ∃ start ∈ allowed, liesUnder line.path start = true
  headers : ∀ raw ∈ sentHeaders rawHead, ∃ field : Field, field.Written raw
  single : ((sentHeaders rawHead).filter isContentLength).length ≤ 1
  digits : ∀ raw ∈ sentHeaders rawHead, isContentLength raw = true →
    ∃ n, decimal (strip (lineValue raw)) = some n

def headOfStream (stream : Octets) : Octets := (cutAt headEnd stream).elim [] (·.1)

theorem isFieldOctet_isBlank (b : UInt8) : isFieldOctet b = true → isByteSpace b = isBlank b :=
  forall_octet (p := fun b ↦ isFieldOctet b = true → isByteSpace b = isBlank b)
    (by decide +kernel) b

theorem isVisible_not_isByteSpace (b : UInt8) (h : isVisible b = true) : isByteSpace b = false := by
  obtain ⟨hfield, hblank⟩ := isVisible_isFieldOctet b h
  rw [isFieldOctet_isBlank b hfield, hblank]

theorem dropWhile_congr {p q : UInt8 → Bool} {text : Octets} (h : ∀ b ∈ text, p b = q b) :
    text.dropWhile p = text.dropWhile q := by
  induction text with
  | nil => rfl
  | cons b text ih =>
    rw [List.dropWhile_cons, List.dropWhile_cons, h b (by simp),
      ih fun c hc ↦ h c (by simp [hc])]

theorem trim_congr {p q : UInt8 → Bool} {text : Octets} (h : ∀ b ∈ text, p b = q b) :
    trim p text = trim q text := by
  have hd := dropWhile_congr h
  unfold trim
  rw [hd, dropWhile_congr fun b hb ↦
    h b ((List.dropWhile_suffix q).subset (List.mem_reverse.mp hb))]

section Written

variable {field : Field} {raw : Octets}

theorem lineName_of_written (h : field.Written raw) : lineName raw = lower field.name := by
  obtain ⟨value, rfl, -, -⟩ := h.text_eq
  rw [lineName, cutAt_colon (colon_notMem_token h.name)]
  simp only [Option.elim_some, headerName, strip]
  rw [trim_of_forall fun b hb ↦ isVisible_not_isByteSpace b (visible_of_isToken h.name b hb)]

theorem isContentLength_of_written (h : field.Written raw) :
    isContentLength raw = field.isNamed "content-length" := by
  rw [isContentLength, lineName_of_written h, Field.isNamed]

theorem lineValue_of_written (h : field.Written raw) :
    strip (lineValue raw) = field.value := by
  obtain ⟨value, rfl, hv, hoct⟩ := h.text_eq
  rw [lineValue, cutAt_colon (colon_notMem_token h.name), hv]
  exact trim_congr fun b hb ↦ isFieldOctet_isBlank b (hoct b hb)

theorem lengthValues_of_written {fields : List Field} {lines : List Octets}
    (h : List.Forall₂ Field.Written fields lines) :
    Reader.lengthValues fields =
      (lines.filter isContentLength).map fun raw ↦ strip (lineValue raw) := by
  induction h with
  | nil => rfl
  | cons hw _ ih =>
    unfold Reader.lengthValues at ih ⊢
    rw [List.filter_cons, List.filter_cons, isContentLength_of_written hw]
    split
    · rw [List.map_cons, List.map_cons, ih, lineValue_of_written hw]
    · exact ih

end Written

theorem isDigit_ne (b : UInt8) : isDigit b = true → (b == 95) = false ∧ b ≠ 43 ∧ b ≠ 45 :=
  forall_octet (p := fun b ↦ isDigit b = true → (b == 95) = false ∧ b ≠ 43 ∧ b ≠ 45)
    (by decide +kernel) b

theorem unsignedInt_of_decimal {text : Octets} {n m : ℕ} (h : decimal text = some n)
    (hm : unsignedInt text = some m) : m = n := by
  obtain ⟨-, hd⟩ := digits_of_decimal h
  have hs : text.splitOn 95 = [text] := by
    rw [List.splitOn_eq_splitOnP]
    exact List.splitOnP_eq_singleton fun b hb ↦ (isDigit_ne b (hd b hb)).1
  unfold unsignedInt at hm
  rw [hs] at hm
  dsimp only at hm
  split at hm
  · rw [List.flatten_singleton, h] at hm
    cases hm
    rfl
  · cases hm

theorem pyInt_of_decimal {text : Octets} {n : ℕ} {z : ℤ} (h : decimal text = some n)
    (hz : pyInt text = some z) : z = n := by
  obtain ⟨hn, hd⟩ := digits_of_decimal h
  obtain ⟨b, rest, rfl⟩ := List.exists_cons_of_ne_nil hn
  obtain ⟨-, hp, hm⟩ := isDigit_ne b (hd b (by simp))
  rw [pyInt, if_neg (by simpa using hp), if_neg (by simpa using hm),
    Option.map_eq_some_iff] at hz
  obtain ⟨m, hu, rfl⟩ := hz
  rw [unsignedInt_of_decimal h hu]

theorem filterMap_lengthOf (lines : List Octets) :
    lines.filterMap lengthOf = (lines.filter isContentLength).filterMap lengthOf := by
  rw [List.filterMap_filter]
  congr 1
  funext raw
  by_cases h : isContentLength raw <;> simp [lengthOf, h]

theorem declaredLength_nil : declaredLength [] = .ok 0 := by decide

theorem declaredLength_singleton {n length : ℕ} (h : declaredLength [(n : ℤ)] = .ok length) :
    length = n := by
  unfold declaredLength at h
  split at h
  · cases h
  · dsimp only at h
    split at h
    · cases h
    · cases h
      rfl

/-- The length a stage counts with is the one the digits say. -/
theorem declaredLength_of_decimal {lines : List Octets} {raw : Octets} {n length : ℕ}
    (hraw : lines.filter isContentLength = [raw]) (hpass : Passes raw)
    (hn : decimal (strip (lineValue raw)) = some n)
    (hok : declaredLength (lines.filterMap lengthOf) = .ok length) : length = n := by
  have hi : isContentLength raw = true := by
    have hm : raw ∈ lines.filter isContentLength := by rw [hraw]; exact List.mem_cons_self
    exact (List.mem_filter.mp hm).2
  obtain ⟨z, hz⟩ := Option.isSome_iff_exists.mp (hpass.contentLength hi)
  have hz' : pyInt (strip (lineValue raw)) = some z := by
    rwa [lengthOf, if_pos hi] at hz
  rw [filterMap_lengthOf, hraw, List.filterMap_cons_some hz, List.filterMap_nil,
    pyInt_of_decimal hn hz'] at hok
  exact declaredLength_singleton hok

def closeLine : Octets := ascii "Connection: close"

def closeField : Field := ⟨ascii "Connection", ascii "close"⟩

theorem closeField_written : closeField.Written closeLine :=
  ⟨by decide, ascii " close", by decide, by decide, by
    have h : (ascii " close").all isFieldOctet = true := by decide
    simpa using h⟩

theorem forwardedHead_eq (checked : Checked) :
    forwardedHead checked = wire (checked.requestLine :: (checked.headers ++ [closeLine])) := by
  rw [← intercalate_crlf_eq_wire]
  simp [forwardedHead, closeLine]

section Forwarded

variable {stage : Stage} {stream line rawHead after : Octets} {checked : Checked}

theorem Framed.headers_eq (h : Framed stage stream line rawHead after checked) :
    checked.headers = sentHeaders rawHead := (checkHead_ok h.headOk).2.2.1

theorem Framed.forwardedHead_eq (h : Framed stage stream line rawHead after checked) :
    forwardedHead checked = wire (line :: (sentHeaders rawHead ++ [closeLine])) := by
  rw [Relay.forwardedHead_eq, h.headers_eq, (checkHead_ok h.headOk).2.1]

theorem Framed.requestLineOf_eq (h : Framed stage stream line rawHead after checked) :
    requestLineOf rawHead = line := by
  rw [requestLineOf, h.head_lines, List.headD_cons]

theorem Framed.headOfStream_eq (h : Framed stage stream line rawHead after checked) :
    headOfStream stream = rawHead := by
  rw [headOfStream, h.headAt, Option.elim_some]

theorem Framed.passes (h : Framed stage stream line rawHead after checked) {raw : Octets}
    (hm : raw ∈ sentHeaders rawHead) : Passes raw :=
  (checkHead_ok h.headOk).1 raw (List.mem_of_mem_filter hm)

theorem checkRequestLine_words {stage : Stage} {line : Octets}
    (h : stage.checkRequestLine line = .ok ()) :
    ∃ method target version, words isSpace line = [method, target, version] := by
  unfold Stage.checkRequestLine at h
  split at h
  · next method target version hw => exact ⟨method, target, version, hw⟩
  · cases h

theorem Framed.line_ne_nil (h : Framed stage stream line rawHead after checked) : line ≠ [] := by
  rintro rfl
  obtain ⟨method, target, version, hw⟩ := checkRequestLine_words h.lineOk
  simp [words] at hw

theorem Framed.sent_lines (h : Framed stage stream line rawHead after checked) :
    ∀ raw ∈ line :: (sentHeaders rawHead ++ [closeLine]), ¬ crlf <:+: raw ∧ raw ≠ [] := by
  intro raw hm
  rw [List.mem_cons, List.mem_append, List.mem_singleton] at hm
  rcases hm with rfl | hm | rfl
  · have hfirst : raw ∈ crlfLines rawHead := by
      rw [h.head_lines]
      exact List.mem_cons_self
    exact ⟨not_infix_of_mem_crlfLines hfirst, h.line_ne_nil⟩
  · refine ⟨not_infix_of_mem_crlfLines (List.mem_of_mem_tail (List.mem_of_mem_filter hm)), ?_⟩
    rintro rfl
    obtain ⟨name, value, hc, -⟩ := (h.passes hm).named
    cases hc
  · exact ⟨(closeField_written.plain.unbroken false).1, closeField_written.plain.ne_nil⟩

/-- What the strictest reader reads in the octets that are sent on. -/
theorem Framed.strict_read (h : Framed stage stream line rawHead after checked) (body : Octets) :
    Reader.strict.read (forwardedHead checked ++ body) =
      Reader.strict.interpret (line :: (sentHeaders rawHead ++ [closeLine])) body := by
  rw [h.forwardedHead_eq]
  exact strict_read_wire body h.sent_lines

theorem Framed.sent_lengths (h : Framed stage stream line rawHead after checked) :
    declaredLength ((sentHeaders rawHead).filterMap lengthOf) = .ok checked.contentLength := by
  have hlengths := (checkHead_ok h.headOk).2.2.2
  have hf : (crlfLines rawHead).tail.filter isContentLength =
      (sentHeaders rawHead).filter isContentLength := by
    rw [sentHeaders, List.filter_filter]
    apply List.filter_congr
    intro raw _
    by_cases hi : isContentLength raw = true
    · simp [hi, isContentLength_not_isConnection hi]
    · simp [hi]
  rw [filterMap_lengthOf, ← hf, ← filterMap_lengthOf, hlengths]

end Forwarded

theorem exists_forall₂ {α β : Type} {R : α → β → Prop} {l : List β} (h : ∀ b ∈ l, ∃ a, R a b) :
    ∃ as, List.Forall₂ R as l := by
  induction l with
  | nil => exact ⟨[], .nil⟩
  | cons b l ih =>
    obtain ⟨a, ha⟩ := h b (by simp)
    obtain ⟨as, has⟩ := ih fun c hc ↦ h c (by simp [hc])
    exact ⟨a :: as, .cons ha has⟩

theorem written_line_of_mem {fields : List Field} {lines : List Octets}
    (h : List.Forall₂ Field.Written fields lines) {field : Field} (hm : field ∈ fields) :
    ∃ raw ∈ lines, field.Written raw := by
  obtain ⟨i, hi, rfl⟩ := List.getElem_of_mem hm
  have hi' : i < lines.length := by rwa [← h.length_eq]
  exact ⟨lines[i], List.getElem_mem hi', h.get hi hi'⟩

theorem sent_lengthValues {rawHead : Octets} {fields : List Field}
    (h : List.Forall₂ Field.Written fields (sentHeaders rawHead ++ [closeLine])) :
    Reader.lengthValues fields =
      ((sentHeaders rawHead).filter isContentLength).map fun raw ↦ strip (lineValue raw) := by
  have hclose : isContentLength closeLine = false := by decide
  rw [lengthValues_of_written h, List.filter_append]
  simp [hclose]

/-- Read as one allowed request by the strictest reader, the head is written plainly. -/
theorem plainlyWritten_of_strict {stage : Stage} {stream line rawHead after body : Octets}
    {checked : Checked} (h : Framed stage stream line rawHead after checked)
    (hr : OneAllowedRequest stage.allowedPrefixes
      (Reader.strict.read (forwardedHead checked ++ body))) :
    PlainlyWritten stage.allowedPrefixes rawHead := by
  rw [h.strict_read] at hr
  match hread : Reader.strict.interpret (line :: (sentHeaders rawHead ++ [closeLine])) body with
  | .incomplete => rw [hread] at hr; exact hr.elim
  | .refused => rw [hread] at hr; exact hr.elim
  | .request _ _ .transferCoding _ => rw [hread] at hr; exact hr.elim
  | .request first fields (.length n) rest =>
    rw [hread] at hr
    obtain ⟨hw, -⟩ := strict_interpret_iff.mp hread
    have hlengths := (Reader.strict_framing_length_iff.mp hw.framed).2
    rw [sent_lengthValues hw.fieldLines] at hlengths
    refine ⟨⟨first, ?_, hr.2⟩, fun raw hm ↦ ?_, ?_, fun raw hm hi ↦ ?_⟩
    · rw [h.requestLineOf_eq]
      exact hw.firstLine
    · obtain ⟨field, -, hf⟩ := hw.exists_field (List.mem_append_left _ hm)
      exact ⟨field, hf⟩
    · rcases hlengths with ⟨hv, -⟩ | ⟨value, hv, -⟩
      · rw [List.map_eq_nil_iff.mp hv]
        exact Nat.zero_le 1
      · rw [← List.length_map, hv, List.length_singleton]
    · have hvalue : strip (lineValue raw) ∈
          ((sentHeaders rawHead).filter isContentLength).map fun raw ↦ strip (lineValue raw) :=
        List.mem_map_of_mem (List.mem_filter.mpr ⟨hm, hi⟩)
      rcases hlengths with ⟨hv, -⟩ | ⟨value, hv, hd⟩
      · rw [hv] at hvalue
        cases hvalue
      · rw [hv, List.mem_singleton] at hvalue
        exact ⟨n, by rw [hvalue, hd]⟩

/-- Written plainly, the octets that are sent on are one allowed request to every reader. -/
theorem oneAllowedRequest_of_plainlyWritten {stage : Stage}
    {stream line rawHead after body : Octets} {checked : Checked}
    (h : Framed stage stream line rawHead after checked)
    (hbody : body.length ≤ checked.contentLength)
    (hw : PlainlyWritten stage.allowedPrefixes rawHead) (r : Reader) :
    OneAllowedRequest stage.allowedPrefixes (r.read (forwardedHead checked ++ body)) := by
  obtain ⟨first, hfirst, hpath⟩ := hw.requestLine
  rw [h.requestLineOf_eq] at hfirst
  have hall : ∀ raw ∈ sentHeaders rawHead ++ [closeLine], ∃ field : Field, field.Written raw := by
    intro raw hm
    rw [List.mem_append, List.mem_singleton] at hm
    rcases hm with hm | rfl
    · exact hw.headers raw hm
    · exact ⟨closeField, closeField_written⟩
  obtain ⟨fields, hfields⟩ := exists_forall₂ hall
  have hcoding : ∀ field ∈ fields, field.isNamed "transfer-encoding" = false := by
    intro field hf
    obtain ⟨raw, hm, hwritten⟩ := written_line_of_mem hfields hf
    rw [Field.isNamed, ← lineName_of_written hwritten]
    rw [List.mem_append, List.mem_singleton] at hm
    rcases hm with hm | rfl
    · simpa using (h.passes hm).transferEncoding
    · decide
  have hlength : (Reader.lengthValues fields = [] ∧ checked.contentLength = 0) ∨
      ∃ value, Reader.lengthValues fields = [value] ∧
        decimal value = some checked.contentLength := by
    rw [sent_lengthValues hfields]
    match hone : (sentHeaders rawHead).filter isContentLength with
    | [] =>
      have hl := h.sent_lengths
      rw [filterMap_lengthOf, hone, List.filterMap_nil, declaredLength_nil] at hl
      injection hl with hl
      exact .inl ⟨rfl, hl.symm⟩
    | [raw] =>
      have hm : raw ∈ (sentHeaders rawHead).filter isContentLength := by
        rw [hone]
        exact List.mem_cons_self
      obtain ⟨hm, hi⟩ := List.mem_filter.mp hm
      obtain ⟨n, hn⟩ := hw.digits raw hm hi
      have hl := declaredLength_of_decimal hone (h.passes hm) hn h.sent_lengths
      exact .inr ⟨_, rfl, by rw [hn, hl]⟩
    | _ :: _ :: _ =>
      have hsingle := hw.single
      rw [hone] at hsingle
      simp at hsingle
  have hhead : HeadWritten first fields (.length checked.contentLength) line
      (sentHeaders rawHead ++ [closeLine]) :=
    ⟨hfirst, hfields, Reader.strict_framing_length_iff.mpr ⟨hcoding, hlength⟩⟩
  rw [h.forwardedHead_eq, hhead.read r body]
  exact ⟨hbody, hpath⟩

/-- What a stage sends on is one allowed request to every reader of HTTP/1.1
exactly when the head it came with is written in the grammar. -/
theorem forwards_one_request_iff (stage : Stage) (stream : Octets) (waiting : List ℕ)
    (sent : Octets) :
    (stage.handle stream waiting = .forwarded sent →
      ((∀ r : Reader, OneAllowedRequest stage.allowedPrefixes (r.read sent)) ↔
        PlainlyWritten stage.allowedPrefixes (headOfStream stream))) ∧
    (stage.bridgeChannel stream waiting = .forwarded sent →
      ((∀ r : Reader, OneAllowedRequest stage.allowedPrefixes (r.read sent)) ↔
        PlainlyWritten stage.allowedPrefixes (headOfStream stream))) := by
  have hnode (hs : stage.handle stream waiting = .forwarded sent) :
      (∀ r : Reader, OneAllowedRequest stage.allowedPrefixes (r.read sent)) ↔
        PlainlyWritten stage.allowedPrefixes (headOfStream stream) := by
    obtain ⟨line, rawHead, after, checked, k, h, -, hk, rfl, -, -⟩ := handle_forwarded hs
    rw [h.headOfStream_eq]
    constructor
    · intro hall
      exact plainlyWritten_of_strict h (hall Reader.strict)
    · intro hw r
      exact oneAllowedRequest_of_plainlyWritten h
        ((List.length_take_le k after).trans hk) hw r
  exact ⟨hnode, fun hs ↦ hnode (handle_of_bridgeChannel hs)⟩

def relayStage : Stage := ⟨defaultAllowedPrefixes, true, fun _ ↦ true⟩

theorem forwards_one_request_iff_healthz :
    ∃ sent, relayStage.handle (ascii "GET /healthz HTTP/1.1\r\nHost: relay\r\n\r\n") [100] =
        .forwarded sent ∧
      ((∀ r : Reader, OneAllowedRequest defaultAllowedPrefixes (r.read sent)) ↔
        PlainlyWritten defaultAllowedPrefixes
          (headOfStream (ascii "GET /healthz HTTP/1.1\r\nHost: relay\r\n\r\n"))) := by
  obtain ⟨sent, hs⟩ := Verdict.exists_of_isForwarded
    (v := relayStage.handle (ascii "GET /healthz HTTP/1.1\r\nHost: relay\r\n\r\n") [100])
    (by decide +kernel)
  exact ⟨sent, hs, (forwards_one_request_iff relayStage _ [100] sent).1 hs⟩

/-- Content-Length in a folded line: the relay counts the second request as a
body, and a reader that unfolds the line finds no length. -/
def foldedLength : Octets :=
  ascii "GET /healthz HTTP/1.1\r\nHost: relay\r\n Content-Length: 40\r\n\r\n" ++
    ascii "GET /api/tasks HTTP/1.1\r\nHost: relay\r\n\r\n"

def unfolding : Reader := { Reader.strict with unfolds := true }

def Verdict.sent? : Verdict → Option Octets
  | .forwarded sent => some sent
  | _ => none

theorem folded_length_smuggles_request :
    ∃ sent, relayStage.handle foldedLength [200] = .forwarded sent ∧
      relayStage.bridgeChannel foldedLength [200] = .forwarded sent ∧
      ¬ ∀ r : Reader, OneAllowedRequest defaultAllowedPrefixes (r.read sent) := by
  have hrun : (relayStage.handle foldedLength [200]).sent?.any (fun sent ↦
      !decide (OneAllowedRequest defaultAllowedPrefixes (unfolding.read sent))) = true := by
    decide +kernel
  cases hs : relayStage.handle foldedLength [200] with
  | forwarded sent =>
    refine ⟨sent, rfl, by rw [bridgeChannel_eq relayStage _ _ rfl, hs], fun hall ↦ ?_⟩
    rw [hs] at hrun
    simp [Verdict.sent?, hall unfolding] at hrun
  | closed => simp [hs, Verdict.sent?] at hrun
  | replied reply => simp [hs, Verdict.sent?] at hrun

end SlurmScheduler.Relay
