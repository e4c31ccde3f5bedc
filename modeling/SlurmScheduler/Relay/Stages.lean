import SlurmScheduler.Relay.Chunks
import SlurmScheduler.Relay.Smuggling

namespace SlurmScheduler.Relay

open Http

/-- However the stream is split, neither limit is reached before the line and
the head are complete. -/
def Fits (line rawHead stream : Octets) : Prop :=
  min stream.length (line.length + 4097) ≤ maxRequestLine ∧
    min stream.length (rawHead.length + 4099) ≤ maxRequestHeaders

section Handle

variable {stage : Stage} {stream line rawHead after : Octets} {checked : Checked}

theorem Framed.length_eq (h : Framed stage stream line rawHead after checked) :
    stream.length = rawHead.length + 4 + after.length := length_of_cutAt h.headAt

theorem Framed.after_eq (h : Framed stage stream line rawHead after checked) :
    after = stream.drop (rawHead.length + 4) := by
  rw [eq_of_cutAt h.headAt, List.drop_left' (by simp)]

/-- What a stage that has received both marks within the limits does -/
theorem handle_of_fills (h : Framed stage stream line rawHead after checked)
    {waiting waiting₁ waiting₂ : List ℕ} {k₁ k₂ : ℕ}
    (hfill₁ : fill crlf maxRequestLine [] stream waiting =
      some (stream.take k₁, ⟨stream.drop k₁, waiting₁⟩))
    (hk₁ : line.length + 2 ≤ (stream.take k₁).length)
    (hl₁ : (stream.take k₁).length ≤ maxRequestLine)
    (hfill₂ : fill headEnd maxRequestHeaders (stream.take k₁) (stream.drop k₁) waiting₁ =
      some (stream.take k₂, ⟨stream.drop k₂, waiting₂⟩))
    (hk₂ : rawHead.length + 4 ≤ (stream.take k₂).length)
    (hl₂ : (stream.take k₂).length ≤ maxRequestHeaders)
    (hbody : (stream.take k₂).length ≤ rawHead.length + 4 + checked.contentLength)
    (hd : Delivers waiting₂ (stream.drop k₂)) :
    (stage.handle stream waiting =
      if stage.reachable then
        .forwarded (forwardedHead checked ++ after.take checked.contentLength)
      else .replied upstreamUnavailable) ∧
    (stage.reachable = false → stage.bridgeChannel stream waiting = .closed) := by
  obtain ⟨rest, hline⟩ := h.lineAt
  have hcut₁ := cutAt_part hline (List.take_prefix k₁ stream) hk₁ (by simp)
  have hcut₂ := cutAt_part h.headAt (List.take_prefix k₂ stream) hk₂ (by simp)
  set initialBody := (stream.take k₂).drop (rawHead.length + headEnd.length) with hinitial
  have hil : initialBody.length = (stream.take k₂).length - (rawHead.length + 4) := by
    rw [hinitial, List.length_drop]
    rfl
  have hafter : after = initialBody ++ stream.drop k₂ := by
    rw [h.after_eq, hinitial]
    conv_lhs => rw [← List.take_append_drop k₂ stream]
    exact List.drop_append_of_le_length hk₂
  have hsent : sendBody (checked.contentLength - initialBody.length)
      (forwardedHead checked ++ initialBody) (stream.drop k₂) waiting₂ =
      forwardedHead checked ++ after.take checked.contentLength := by
    rw [sendBody_delivered hd, hafter, List.take_append,
      List.take_of_length_le (l := initialBody) (by omega), List.append_assoc]
  have hlong : ¬ checked.contentLength < initialBody.length := by omega
  constructor
  · unfold Stage.handle
    rw [hfill₁]
    simp only [hcut₁, if_neg (Nat.not_lt.mpr hl₁), h.lineOk, hfill₂, hcut₂,
      if_neg (Nat.not_lt.mpr hl₂), h.headOk]
    rw [if_neg hlong, hsent]
    cases stage.reachable <;> rfl
  · intro hreach
    unfold Stage.bridgeChannel
    rw [hfill₁]
    simp only [hcut₁, if_neg (Nat.not_lt.mpr hl₁), h.lineOk, hfill₂, hcut₂,
      if_neg (Nat.not_lt.mpr hl₂), h.headOk]
    rw [if_neg hlong, hreach]
    rfl

theorem handle_line_too_long {waiting waiting₁ : List ℕ} {k₁ : ℕ}
    (hfill₁ : fill crlf maxRequestLine [] stream waiting =
      some (stream.take k₁, ⟨stream.drop k₁, waiting₁⟩))
    (hl₁ : maxRequestLine < (stream.take k₁).length) (sent : Octets) :
    stage.handle stream waiting ≠ .forwarded sent := by
  intro hs
  unfold Stage.handle at hs
  rw [hfill₁] at hs
  simp only [if_pos hl₁] at hs
  split at hs <;> cases hs

theorem handle_head_too_long {waiting waiting₁ waiting₂ : List ℕ} {k₁ k₂ : ℕ}
    (hfill₁ : fill crlf maxRequestLine [] stream waiting =
      some (stream.take k₁, ⟨stream.drop k₁, waiting₁⟩))
    (hfill₂ : fill headEnd maxRequestHeaders (stream.take k₁) (stream.drop k₁) waiting₁ =
      some (stream.take k₂, ⟨stream.drop k₂, waiting₂⟩))
    (hl₂ : maxRequestHeaders < (stream.take k₂).length) (sent : Octets) :
    stage.handle stream waiting ≠ .forwarded sent := by
  intro hs
  unfold Stage.handle at hs
  rw [hfill₁] at hs
  dsimp only at hs
  rw [hfill₂] at hs
  simp only [if_pos hl₂] at hs
  repeat' split at hs
  all_goals cases hs

theorem Framed.line_length_le (h : Framed stage stream line rawHead after checked) :
    line.length ≤ rawHead.length := by
  have hraw := intercalate_crlfLines rawHead
  rw [h.head_lines] at hraw
  cases hl : (crlfLines rawHead).tail with
  | nil =>
    rw [hl, List.intercalate_singleton] at hraw
    rw [hraw]
  | cons next lines =>
    rw [hl, List.intercalate_cons_cons] at hraw
    rw [← hraw]
    simp only [List.length_append]
    omega

theorem handle_of_fits (h : Framed stage stream line rawHead after checked)
    (hfits : Fits line rawHead stream) (hafter : after.length ≤ checked.contentLength)
    {waiting : List ℕ} (hd : Delivers waiting stream) :
    stage.handle stream waiting =
      if stage.reachable then .forwarded (forwardedHead checked ++ after)
      else .replied upstreamUnavailable := by
  obtain ⟨hline, hhead⟩ := hfits
  obtain ⟨rest, hcut⟩ := h.lineAt
  have hlen := h.length_eq
  have hle := h.line_length_le
  have hlimits : maxRequestLine ≤ maxRequestHeaders := by decide
  have hlimit₁ : line.length + crlf.length ≤ maxRequestLine := by simp; omega
  have hbound₁ : min stream.length (line.length + crlf.length + 4095) ≤ maxRequestLine := by
    simp; omega
  have hlimit₂ : rawHead.length + headEnd.length ≤ maxRequestHeaders := by simp; omega
  have hbound₂ : min stream.length (rawHead.length + headEnd.length + 4095) ≤
      maxRequestHeaders := by simp; omega
  obtain ⟨k₁, waiting₁, hfill₁, hk₁, hl₁, hd₁⟩ :=
    fill_delivered (k := 0) hcut (by simp) hlimit₁ hbound₁ (by simp) hd
  obtain ⟨k₂, waiting₂, hfill₂, hk₂, hl₂, hd₂⟩ :=
    fill_delivered (k := k₁) h.headAt (by simp) hlimit₂ hbound₂ (by omega) hd₁
  have hall := (handle_of_fills h hfill₁ hk₁ hl₁ hfill₂ hk₂ hl₂
    (by rw [List.length_take]; omega) hd₂).1
  rwa [List.take_of_length_le hafter] at hall

theorem Framed.fill_line (h : Framed stage stream line rawHead after checked)
    (hline : line.length + 2 ≤ maxRequestLine) (later : List ℕ) :
    fill crlf maxRequestLine [] stream (List.replicate (line.length + 2) 1 ++ later) =
      some (stream.take (line.length + 2), ⟨stream.drop (line.length + 2), later⟩) := by
  obtain ⟨rest, hcut⟩ := h.lineAt
  have hones := fill_ones (k := 0) hcut (by simp) hline later (line.length + 2) (by simp)
  rw [Nat.zero_add, fill_filled hcut (by simp) later (by simp)] at hones
  exact hones

/-- Octet by octet, a stage stops reading right behind the line and the head. -/
theorem handle_ones (h : Framed stage stream line rawHead after checked)
    (hline : line.length + 2 ≤ maxRequestLine) (hhead : rawHead.length + 4 ≤ maxRequestHeaders) :
    (stage.handle stream (List.replicate stream.length 1) =
      if stage.reachable then
        .forwarded (forwardedHead checked ++ after.take checked.contentLength)
      else .replied upstreamUnavailable) ∧
    (stage.reachable = false →
      stage.bridgeChannel stream (List.replicate stream.length 1) = .closed) := by
  have hlen := h.length_eq
  have hle := h.line_length_le
  set last := List.replicate (stream.length - (rawHead.length + 4)) 1 with hlast
  set later := List.replicate (rawHead.length + 4 - (line.length + 2)) 1 ++ last with hlater
  have hsplit : List.replicate stream.length 1 = List.replicate (line.length + 2) 1 ++ later := by
    rw [hlater, hlast, List.replicate_append_replicate, List.replicate_append_replicate]
    congr 1
    omega
  have hfill₁ : fill crlf maxRequestLine [] stream (List.replicate stream.length 1) =
      some (stream.take (line.length + 2), ⟨stream.drop (line.length + 2), later⟩) := by
    rw [hsplit]
    exact h.fill_line hline later
  have hfill₂ : fill headEnd maxRequestHeaders (stream.take (line.length + 2))
      (stream.drop (line.length + 2)) later =
      some (stream.take (rawHead.length + 4), ⟨stream.drop (rawHead.length + 4), last⟩) := by
    have hones := fill_ones (k := line.length + 2) h.headAt (by simp) hhead last
      (rawHead.length + 4 - (line.length + 2)) (by simp; omega)
    rw [show line.length + 2 + (rawHead.length + 4 - (line.length + 2)) = rawHead.length + 4 by
      omega, fill_filled h.headAt (by simp) last (by simp)] at hones
    exact hones
  refine handle_of_fills h hfill₁ ?_ ?_ hfill₂ ?_ ?_ ?_ ?_
  · rw [List.length_take]
    omega
  · rw [List.length_take]
    omega
  · rw [List.length_take]
    omega
  · rw [List.length_take]
    omega
  · rw [List.length_take]
    omega
  · refine ⟨fun n hn ↦ ?_, ?_⟩
    · rw [hlast] at hn
      rw [List.eq_of_mem_replicate hn]
      exact Nat.one_pos
    · rw [hlast, List.length_replicate, List.length_drop]

/-- Past the limits, a chunk of 4096 octets behind the line or the head is refused. -/
theorem exists_refused (h : Framed stage stream line rawHead after checked)
    (hline : line.length + 2 ≤ maxRequestLine) (hhead : rawHead.length + 4 ≤ maxRequestHeaders)
    (hfits : ¬ Fits line rawHead stream) :
    ∃ waiting, Delivers waiting stream ∧
      ∀ sent, stage.handle stream waiting ≠ .forwarded sent := by
  obtain ⟨rest, hcut⟩ := h.lineAt
  have hlen := h.length_eq
  have hle := h.line_length_le
  have htail := delivers_ones stream
  set tail := List.replicate stream.length 1 with htaildef
  have hchunk (d : ℕ) : Delivers (List.replicate d 1 ++ 4096 :: tail) stream := by
    refine ⟨fun n hn ↦ ?_, ?_⟩
    · rw [List.mem_append, List.mem_cons] at hn
      rcases hn with hn | rfl | hn
      · rw [List.eq_of_mem_replicate hn]
        exact Nat.one_pos
      · decide
      · exact htail.positive n hn
    · have := htail.enough
      simp only [List.length_append, List.length_cons]
      omega
  by_cases hfirst : min stream.length (line.length + 4097) ≤ maxRequestLine
  · have hsecond : maxRequestHeaders < min stream.length (rawHead.length + 4099) := by
      by_contra hle'
      exact hfits ⟨hfirst, by omega⟩
    set later := List.replicate (rawHead.length + 3 - (line.length + 2)) 1 ++ 4096 :: tail
      with hlater
    have hfill₂ : fill headEnd maxRequestHeaders (stream.take (line.length + 2))
        (stream.drop (line.length + 2)) later =
        some (stream.take (rawHead.length + 4099), ⟨stream.drop (rawHead.length + 4099), tail⟩) := by
      have hones := fill_ones (k := line.length + 2) h.headAt (by simp) hhead (4096 :: tail)
        (rawHead.length + 3 - (line.length + 2)) (by simp; omega)
      rw [show line.length + 2 + (rawHead.length + 3 - (line.length + 2)) = rawHead.length + 3 by
        omega, fill_chunk h.headAt (by simp) hhead tail (by simp) (by decide)] at hones
      rw [hlater, hones]
      exact fill_filled h.headAt (by simp) tail (by simp)
    refine ⟨List.replicate (line.length + 2) 1 ++ later, ?_,
      handle_head_too_long (h.fill_line hline later) hfill₂ (by rw [List.length_take]; omega)⟩
    rw [hlater, ← List.append_assoc, List.replicate_append_replicate]
    exact hchunk _
  · refine ⟨List.replicate (line.length + 1) 1 ++ 4096 :: tail, hchunk _, ?_⟩
    have hfill₁ : fill crlf maxRequestLine [] stream
        (List.replicate (line.length + 1) 1 ++ 4096 :: tail) =
        some (stream.take (line.length + 4097), ⟨stream.drop (line.length + 4097), tail⟩) := by
      have hones := fill_ones (k := 0) hcut (by simp) hline (4096 :: tail) (line.length + 1)
        (by simp)
      rw [Nat.zero_add, fill_chunk hcut (by simp) hline tail (by simp) (by decide)] at hones
      exact hones.trans (fill_filled hcut (by simp) tail (by simp))
    exact handle_line_too_long hfill₁ (by rw [List.length_take]; omega)

end Handle

theorem passes_of_written {field : Field} {raw : Octets} (h : field.Written raw)
    (hcoding : lower field.name ≠ ascii "transfer-encoding")
    (hexpect : lower field.name ≠ ascii "expect")
    (hlength : field.isNamed "content-length" = false) : Passes raw := by
  have hl : isContentLength raw = false := by rw [isContentLength_of_written h, hlength]
  obtain ⟨value, rfl, -, -⟩ := h.text_eq
  refine ⟨⟨field.name, value, cutAt_colon (colon_notMem_token h.name), ?_⟩, ?_, ?_, ?_⟩
  · have hstrip : strip field.name = field.name :=
      trim_of_forall fun b hb ↦ isVisible_not_isByteSpace b (visible_of_isToken h.name b hb)
    rw [hstrip]
    simpa using isToken_ne_nil h.name
  · rwa [lineName_of_written h]
  · rwa [lineName_of_written h]
  · intro hi
    rw [hl] at hi
    cases hi

theorem passes_closeLine : Passes closeLine :=
  passes_of_written closeField_written (by decide) (by decide) (by decide)

theorem isConnection_closeLine : isConnection closeLine = true := by decide

theorem lengthOf_closeLine : lengthOf closeLine = none := by
  rw [lengthOf, if_neg]
  decide

/-- What is sent on passes the same checks, with the same lines to send on. -/
theorem Framed.again {stage : Stage} {stream line rawHead after : Octets} {checked : Checked}
    (h : Framed stage stream line rawHead after checked) (body : Octets) :
    Framed stage (forwardedHead checked ++ body) line
      (crlf.intercalate (line :: (sentHeaders rawHead ++ [closeLine]))) body checked := by
  have hlines := h.sent_lines
  rw [h.forwardedHead_eq]
  refine ⟨⟨wire (sentHeaders rawHead ++ [closeLine]) ++ body, ?_⟩, ?_, h.lineOk, ?_⟩
  · rw [wire, List.append_assoc]
    exact cutAt_crlf_line _ (hlines line (by simp)).1
  · exact cutAt_wire body (by simp) hlines
  · have hpass : ∀ raw ∈ sentHeaders rawHead ++ [closeLine], Passes raw := by
      intro raw hm
      rw [List.mem_append, List.mem_singleton] at hm
      rcases hm with hm | rfl
      · exact h.passes hm
      · exact passes_closeLine
    have hkept : (sentHeaders rawHead ++ [closeLine]).filter (!isConnection ·) =
        sentHeaders rawHead := by
      rw [List.filter_append, sentHeaders, List.filter_filter]
      simp [isConnection_closeLine]
    have hlengths : (sentHeaders rawHead ++ [closeLine]).filterMap lengthOf =
        (sentHeaders rawHead).filterMap lengthOf := by
      rw [List.filterMap_append]
      simp [lengthOf_closeLine]
    unfold checkHead
    rw [crlfLines_intercalate (by simp) fun raw hm ↦ (hlines raw hm).1, List.tail_cons,
      readHeaders_of_passes hpass]
    simp only [List.nil_append, hkept, hlengths, h.sent_lengths]
    rw [← h.headers_eq, ← (checkHead_ok h.headOk).2.1]

/-- The stream is one request in the grammar, and ends with its body. -/
def SingleRequest (stream : Octets) : Prop :=
  ∃ line fields n rest, Reader.strict.read stream = .request line fields (.length n) rest ∧
    rest.length = n

/-- In a request written in the grammar a stage counts the length that is written. -/
theorem contentLength_of_written {fields : List Field} {lines : List Octets} {n length : ℕ}
    (hfields : List.Forall₂ Field.Written fields lines) (hpass : ∀ raw ∈ lines, Passes raw)
    (hframed : Reader.strict.framing fields = some (.length n))
    (hok : declaredLength (lines.filterMap lengthOf) = .ok length) : length = n := by
  have hl := (Reader.strict_framing_length_iff.mp hframed).2
  rw [lengthValues_of_written hfields] at hl
  rcases hl with ⟨hnil, rfl⟩ | ⟨value, hvalue, hd⟩
  · rw [filterMap_lengthOf, List.map_eq_nil_iff.mp hnil, List.filterMap_nil,
      declaredLength_nil] at hok
    injection hok with hok
    exact hok.symm
  · obtain ⟨raw, hraw, rfl⟩ := List.map_eq_singleton_iff.mp hvalue
    have hm : raw ∈ lines.filter isContentLength := by
      rw [hraw]
      exact List.mem_cons_self
    exact declaredLength_of_decimal hraw (hpass raw (List.mem_filter.mp hm).1) hd hok

theorem Framed.body_of_single {stage : Stage} {stream line rawHead after : Octets}
    {checked : Checked} (h : Framed stage stream line rawHead after checked)
    (hs : SingleRequest stream) : after.length = checked.contentLength := by
  obtain ⟨first, fields, n, rest, hread, hn⟩ := hs
  have hskip : Reader.strict.skipEmpty Reader.strict.emptyLines stream = stream := rfl
  rw [Reader.read, hskip] at hread
  split at hread
  · next lines body hhead =>
    obtain ⟨hw, hlines⟩ := wire_of_headOf hhead
    cases lines with
    | nil => cases hread
    | cons start others =>
      obtain ⟨hwritten, rfl⟩ := strict_interpret_iff.mp hread
      have hcut := cutAt_wire rest (by simp) hlines
      rw [← hw, h.headAt] at hcut
      obtain ⟨rfl, rfl⟩ : rawHead = crlf.intercalate (start :: others) ∧ after = rest := by
        simpa using hcut
      obtain ⟨hpass, -, -, hok⟩ := checkHead_ok h.headOk
      rw [crlfLines_intercalate (by simp) fun raw hm ↦ (hlines raw hm).1,
        List.tail_cons] at hpass hok
      rw [hn, contentLength_of_written hwritten.fieldLines hpass hwritten.framed hok]
  · cases hread

theorem Framed.of_reachable {stage : Stage} {stream line rawHead after : Octets}
    {checked : Checked}
    (h : Framed { stage with reachable := true } stream line rawHead after checked) :
    Framed stage stream line rawHead after checked :=
  ⟨h.lineAt, h.headAt, h.lineOk, h.headOk⟩

theorem Framed.head_length_le {stage : Stage} {stream line rawHead after sent : Octets}
    {checked : Checked} {waiting : List ℕ} (h : Framed stage stream line rawHead after checked)
    (hs : stage.handle stream waiting = .forwarded sent) :
    rawHead.length + 4 ≤ maxRequestHeaders := by
  obtain ⟨line', rawHead', after', checked', k, h', -, -, -, -, hhead⟩ := handle_forwarded hs
  have hcut := h.headAt
  rw [h'.headAt] at hcut
  cases hcut
  exact hhead

/-- The stages differ at most where one cannot reach its upstream. -/
theorem handle_eq_bridgeChannel_or (stage : Stage) (stream : Octets) (waiting : List ℕ) :
    stage.handle stream waiting = stage.bridgeChannel stream waiting ∨
      ∃ sent, ({ stage with reachable := true } : Stage).handle stream waiting =
        .forwarded sent := by
  have hcheck (line : Octets) :
      ({ stage with reachable := true } : Stage).checkRequestLine line =
        stage.checkRequestLine line := rfl
  unfold Stage.handle Stage.bridgeChannel
  simp only [hcheck]
  rcases fill crlf maxRequestLine [] stream waiting with _ | ⟨initial, incoming⟩
  · exact .inl rfl
  dsimp only
  rcases cutAt crlf initial with _ | ⟨requestLine, _⟩
  · exact .inl rfl
  by_cases hline : maxRequestLine < initial.length
  · simp only [hline, if_true, true_or]
  simp only [hline, if_false]
  rcases stage.checkRequestLine requestLine with reply | _
  · exact .inl rfl
  dsimp only
  rcases fill headEnd maxRequestHeaders initial incoming.pending incoming.waiting with
    _ | ⟨initial, incoming⟩
  · exact .inl rfl
  dsimp only
  rcases cutAt headEnd initial with _ | ⟨rawHead, initialBody⟩
  · exact .inl rfl
  by_cases hhead : maxRequestHeaders < initial.length
  · simp only [hhead, if_true, true_or]
  simp only [hhead, if_false]
  rcases checkHead requestLine rawHead with reply | checked
  · exact .inl rfl
  by_cases hbody : checked.contentLength < initialBody.length
  · simp only [hbody, if_true, true_or]
  simp only [hbody, if_false]
  exact .inr ⟨_, rfl⟩

theorem isForwarded_bridgeChannel (stage : Stage) (stream : Octets) (waiting : List ℕ) :
    (stage.bridgeChannel stream waiting).isForwarded =
      (stage.handle stream waiting).isForwarded := by
  rw [Bool.eq_iff_iff]
  constructor
  · intro h
    obtain ⟨sent, hs⟩ := Verdict.exists_of_isForwarded h
    rw [handle_of_bridgeChannel hs]
    rfl
  · intro h
    obtain ⟨sent, hs⟩ := Verdict.exists_of_isForwarded h
    obtain ⟨-, -, -, -, -, -, hreach, -⟩ := handle_forwarded hs
    rw [bridgeChannel_eq stage stream waiting hreach, hs]
    rfl

/-- The lines of the head but for Connection and Proxy-Connection, the line
`Connection: close`, and a part of the body -/
def UnchangedButConnection (stream sent : Octets) : Prop :=
  ∃ rawHead after k, cutAt headEnd stream = some (rawHead, after) ∧
    sent = wire (requestLineOf rawHead :: (sentHeaders rawHead ++ [closeLine])) ++ after.take k

structure StagesCompose (stage : Stage) (stream : Octets) : Prop where
  agree : ∀ waiting, stage.handle stream waiting = stage.bridgeChannel stream waiting
  accepted : ∀ waiting sent, stage.handle stream waiting = .forwarded sent →
    UnchangedButConnection stream sent ∧
      ∀ waiting', Delivers waiting' sent → stage.bridgeChannel sent waiting' = .forwarded sent
  independent : SingleRequest stream →
    (requestLineOf (headOfStream stream)).length ≤ maxRequestLine →
    (headOfStream stream).length ≤ maxRequestHeaders →
    ∀ waiting waiting', Delivers waiting stream → Delivers waiting' stream →
      (stage.handle stream waiting).isForwarded = (stage.handle stream waiting').isForwarded ∧
      (stage.bridgeChannel stream waiting).isForwarded =
        (stage.bridgeChannel stream waiting').isForwarded

/-- The octets that are sent on when the whole body arrives -/
def wholeRequest (checked : Checked) (after : Octets) : Octets :=
  forwardedHead checked ++ after.take checked.contentLength

def sentHead (line rawHead : Octets) : Octets :=
  crlf.intercalate (line :: (sentHeaders rawHead ++ [closeLine]))

/-- The stages agree on a stream and compose exactly when, in case the stream
passes their checks and they can read it at all, they reach their upstream, what
they send on fits their limits in every split, and so does the stream itself if
it is one request. -/
theorem stages_compose_iff (stage : Stage) (stream : Octets) :
    StagesCompose stage stream ↔
      ∀ line rawHead after checked, Framed stage stream line rawHead after checked →
        line.length + 2 ≤ maxRequestLine → rawHead.length + 4 ≤ maxRequestHeaders →
        stage.reachable = true ∧ Fits line (sentHead line rawHead) (wholeRequest checked after) ∧
          (SingleRequest stream → Fits line rawHead stream) := by
  constructor
  · intro h line rawHead after checked hf hline hhead
    obtain ⟨hnode, hclosed⟩ := handle_ones hf hline hhead
    have hreach : stage.reachable = true := by
      by_contra hr
      have hagree := h.agree (List.replicate stream.length 1)
      rw [hnode, if_neg hr, hclosed (by simpa using hr)] at hagree
      cases hagree
    rw [if_pos hreach] at hnode
    refine ⟨hreach, ?_, fun hsingle ↦ ?_⟩
    · have hagain := hf.again (after.take checked.contentLength)
      obtain ⟨-, hall⟩ := h.accepted _ _ hnode
      by_contra hfits
      have hshort : (sentHead line rawHead).length + 4 ≤ maxRequestHeaders :=
        hagain.head_length_le (handle_of_bridgeChannel (hall _ (delivers_ones _)))
      obtain ⟨waiting, hd, hrefused⟩ := exists_refused hagain hline hshort hfits
      exact hrefused _ (handle_of_bridgeChannel (hall waiting hd))
    · by_contra hfits
      obtain ⟨waiting, hd, hrefused⟩ := exists_refused hf hline hhead hfits
      have hsame := (h.independent hsingle (by rw [hf.headOfStream_eq, hf.requestLineOf_eq]; omega)
        (by rw [hf.headOfStream_eq]; omega) _ waiting (delivers_ones stream) hd).1
      rw [hnode] at hsame
      obtain ⟨sent, hsent⟩ := Verdict.exists_of_isForwarded hsame.symm
      exact hrefused sent hsent
  · intro h
    refine ⟨fun waiting ↦ ?_, fun waiting sent hs ↦ ?_, fun hsingle _ _ waiting waiting' hd hd' ↦ ?_⟩
    · rcases handle_eq_bridgeChannel_or stage stream waiting with heq | ⟨sent, hs⟩
      · exact heq
      · obtain ⟨line, rawHead, after, checked, k, hf, -, -, -, hline, hhead⟩ := handle_forwarded hs
        have hreach := (h line rawHead after checked hf.of_reachable hline hhead).1
        exact (bridgeChannel_eq stage stream waiting hreach).symm
    · obtain ⟨line, rawHead, after, checked, k, hf, hreach, hk, rfl, hline, hhead⟩ :=
        handle_forwarded hs
      obtain ⟨-, ⟨hfits₁, hfits₂⟩, -⟩ := h line rawHead after checked hf hline hhead
      refine ⟨⟨rawHead, after, k, hf.headAt, by rw [hf.requestLineOf_eq, hf.forwardedHead_eq]⟩,
        fun waiting' hd ↦ ?_⟩
      have hlen : (forwardedHead checked ++ after.take k).length ≤
          (wholeRequest checked after).length := by
        simp only [wholeRequest, List.length_append, List.length_take]
        omega
      have hfits : Fits line (sentHead line rawHead) (forwardedHead checked ++ after.take k) :=
        ⟨by omega, by omega⟩
      have hsent := handle_of_fits (hf.again (after.take k)) hfits
        ((List.length_take_le k after).trans hk) hd
      rw [if_pos hreach] at hsent
      rw [bridgeChannel_eq stage _ _ hreach, hsent]
    · have hconst (waiting : List ℕ) (hd : Delivers waiting stream) :
          (stage.handle stream waiting).isForwarded = true ↔
            ∃ line rawHead after checked, Framed stage stream line rawHead after checked ∧
              line.length + 2 ≤ maxRequestLine ∧ rawHead.length + 4 ≤ maxRequestHeaders := by
        constructor
        · intro hv
          obtain ⟨sent, hs⟩ := Verdict.exists_of_isForwarded hv
          obtain ⟨line, rawHead, after, checked, k, hf, -, -, -, hline, hhead⟩ :=
            handle_forwarded hs
          exact ⟨line, rawHead, after, checked, hf, hline, hhead⟩
        · rintro ⟨line, rawHead, after, checked, hf, hline, hhead⟩
          obtain ⟨hreach, -, hfits⟩ := h line rawHead after checked hf hline hhead
          rw [handle_of_fits hf (hfits hsingle) (hf.body_of_single hsingle).le hd, if_pos hreach]
          rfl
      have hnode : (stage.handle stream waiting).isForwarded =
          (stage.handle stream waiting').isForwarded :=
        Bool.eq_iff_iff.mpr ((hconst waiting hd).trans (hconst waiting' hd').symm)
      refine ⟨hnode, ?_⟩
      rw [isForwarded_bridgeChannel, isForwarded_bridgeChannel, hnode]

def healthzLine : Octets := ascii "GET /healthz HTTP/1.1"

def paddedLine (padding : Octets) : Octets := ascii "X:" ++ padding

def paddedField (padding : Octets) : Field := ⟨ascii "X", trim isBlank padding⟩

section Padded

variable {padding : Octets}

theorem paddedField_written (h : ∀ b ∈ padding, isFieldOctet b = true) :
    (paddedField padding).Written (paddedLine padding) := by
  have hname : isToken (ascii "X") = true := by decide
  have htext : ascii "X:" = ascii "X" ++ [colon] := by decide
  refine ⟨hname, padding, ?_, rfl, h⟩
  rw [paddedLine, htext, List.append_assoc]
  rfl

theorem isNamed_paddedField (name : String) :
    (paddedField padding).isNamed name = (lower (ascii "X") == ascii name) := rfl

theorem healthzLine_plain : Plain healthzLine := by
  have h : healthzLine.all (fun b ↦ b != cr && b != lf) = true := by decide
  refine ⟨fun b hb ↦ ?_, by decide⟩
  simpa using List.all_eq_true.mp h b hb

theorem padded_lines (h : ∀ b ∈ padding, isFieldOctet b = true) :
    ∀ raw ∈ [healthzLine, paddedLine padding], ¬ crlf <:+: raw ∧ raw ≠ [] := by
  intro raw hm
  have hplain : Plain raw := by
    simp only [List.mem_cons, List.not_mem_nil, or_false] at hm
    rcases hm with rfl | rfl
    · exact healthzLine_plain
    · exact (paddedField_written h).plain
  exact ⟨(hplain.unbroken false).1, hplain.ne_nil⟩

theorem padded_framed (h : ∀ b ∈ padding, isFieldOctet b = true) :
    Framed relayStage (wire [healthzLine, paddedLine padding]) healthzLine
      (crlf.intercalate [healthzLine, paddedLine padding]) []
      ⟨healthzLine, [paddedLine padding], 0⟩ := by
  have hlines := padded_lines h
  have hwritten := paddedField_written h
  refine ⟨⟨wire [paddedLine padding], cutAt_crlf_line _ (hlines _ (by simp)).1⟩, ?_, ?_, ?_⟩
  · have hcut := cutAt_wire [] (by simp) hlines
    rwa [List.append_nil] at hcut
  · rfl
  · have hpass : Passes (paddedLine padding) := by
      refine passes_of_written hwritten ?_ ?_ ?_
      · change lower (ascii "X") ≠ _
        decide
      · change lower (ascii "X") ≠ _
        decide
      · rw [isNamed_paddedField]
        decide
    have hlength : isContentLength (paddedLine padding) = false := by
      rw [isContentLength_of_written hwritten, isNamed_paddedField]
      decide
    have hconn : isConnection (paddedLine padding) = false := by
      rw [isConnection, lineName_of_written hwritten]
      change (lower (ascii "X") == _ || lower (ascii "X") == _) = false
      decide
    have hnone : lengthOf (paddedLine padding) = none := by rw [lengthOf, if_neg (by simp [hlength])]
    unfold checkHead
    rw [crlfLines_intercalate (by simp) fun raw hm ↦ (hlines raw hm).1, List.tail_cons,
      readHeaders_of_passes (by simpa using hpass)]
    simp [hconn, hnone, declaredLength_nil]

theorem padded_not_compose (h : ∀ b ∈ padding, isFieldOctet b = true)
    (hmin : 65489 ≤ padding.length) (hmax : padding.length ≤ 65507) :
    ¬ StagesCompose relayStage (wire [healthzLine, paddedLine padding]) := by
  rw [stages_compose_iff]
  intro hc
  have hhealthz : healthzLine.length = 21 := rfl
  have hpadded : (paddedLine padding).length = padding.length + 2 := by
    rw [paddedLine, List.length_append, Nat.add_comm]
    rfl
  have hclose : closeLine.length = 17 := rfl
  have hframed := padded_framed h
  have hhead : (crlf.intercalate [healthzLine, paddedLine padding]).length =
      padding.length + 25 := by
    simp only [List.intercalate_cons_cons, List.intercalate_singleton, List.length_append,
      hhealthz, hpadded, List.length_cons, List.length_nil]
    omega
  obtain ⟨-, ⟨-, hfits⟩, -⟩ := hc _ _ _ _ hframed (by rw [hhealthz]; decide) (by
    rw [hhead, maxRequestHeaders]
    omega)
  have hsent := hframed.headers_eq
  dsimp only at hsent
  rw [sentHead, wholeRequest, hframed.forwardedHead_eq, ← hsent] at hfits
  simp only [List.cons_append, List.nil_append, List.intercalate_cons_cons,
    List.intercalate_singleton, wire, List.take_nil, List.append_nil, List.length_append,
    List.length_cons, List.length_nil, hhealthz, hpadded, hclose, maxRequestHeaders] at hfits
  omega

end Padded

theorem long_head_refused_by_bridge :
    ¬ StagesCompose relayStage
      (wire [healthzLine, paddedLine (List.replicate 65500 97)]) := by
  refine padded_not_compose (fun b hb ↦ ?_) ?_ ?_
  · rw [List.eq_of_mem_replicate hb]
    decide
  · rw [List.length_replicate]
    decide
  · rw [List.length_replicate]
    decide

end SlurmScheduler.Relay
