import SlurmScheduler.Relay.Handler
import SlurmScheduler.Http.Plain

namespace SlurmScheduler.Relay

open Http

theorem fill_received {mark : Octets} {limit : ℕ} {initial pending received : Octets}
    {waiting : List ℕ} {incoming : Incoming}
    (h : fill mark limit initial pending waiting = some (received, incoming)) :
    ∃ chunk, received = initial ++ chunk ∧ pending = chunk ++ incoming.pending := by
  induction waiting generalizing initial pending with
  | nil =>
    rw [fill] at h
    split at h
    · cases h
      exact ⟨[], by simp, rfl⟩
    · cases h
  | cons n waiting ih =>
    rw [fill] at h
    split at h
    · cases h
      exact ⟨[], by simp, rfl⟩
    · dsimp only at h
      split at h
      · cases h
      · obtain ⟨chunk, hr, hp⟩ := ih h
        refine ⟨pending.take (min 4096 n) ++ chunk, by rw [hr, List.append_assoc], ?_⟩
        rw [List.append_assoc, ← hp]
        exact (List.prefix_iff_eq_append.mp (List.take_prefix _ _)).symm

theorem sendBody_eq (remaining : ℕ) (sent pending : Octets) (waiting : List ℕ) :
    ∃ k ≤ remaining, sendBody remaining sent pending waiting = sent ++ pending.take k := by
  induction waiting generalizing remaining sent pending with
  | nil => exact ⟨0, by omega, by simp [sendBody]⟩
  | cons n waiting ih =>
    rw [sendBody]
    split
    · exact ⟨0, by omega, by simp⟩
    · dsimp only
      split
      · exact ⟨0, by omega, by simp⟩
      · set chunk := pending.take (min (min 65536 remaining) n) with hchunk
        obtain ⟨k, hk, he⟩ := ih (remaining - chunk.length) (sent ++ chunk)
          (pending.drop chunk.length)
        have hl : chunk.length ≤ remaining := by
          rw [hchunk, List.length_take]
          omega
        refine ⟨chunk.length + k, by omega, ?_⟩
        rw [he, List.append_assoc, List.take_add,
          ← List.prefix_iff_eq_take.mp (hchunk ▸ List.take_prefix _ _)]

def lineName (raw : Octets) : Octets := (cutAt [colon] raw).elim [] fun cut ↦ headerName cut.1

def lineValue (raw : Octets) : Octets := (cutAt [colon] raw).elim [] fun cut ↦ cut.2

def isConnection (raw : Octets) : Bool :=
  lineName raw == ascii "connection" || lineName raw == ascii "proxy-connection"

def isContentLength (raw : Octets) : Bool := lineName raw == ascii "content-length"

def lengthOf (raw : Octets) : Option ℤ :=
  if isContentLength raw then pyInt (strip (lineValue raw)) else none

structure Passes (raw : Octets) : Prop where
  named : ∃ name value, cutAt [colon] raw = some (name, value) ∧ (strip name).isEmpty = false
  transferEncoding : lineName raw ≠ ascii "transfer-encoding"
  expect : lineName raw ≠ ascii "expect"
  contentLength : isContentLength raw → (lengthOf raw).isSome

theorem isContentLength_not_isConnection {raw : Octets} (h : isContentLength raw = true) :
    isConnection raw = false := by
  rw [isContentLength, beq_iff_eq] at h
  rw [isConnection, h]
  decide +kernel

theorem passes_of_readHeader {headers headers' : Headers} {raw : Octets}
    (h : readHeader headers raw = .ok headers') : Passes raw := by
  unfold readHeader at h
  split at h
  · cases h
  next name value hc =>
  have hname : lineName raw = headerName name := by simp [lineName, hc]
  have hvalue : lineValue raw = value := by simp [lineValue, hc]
  split at h
  · cases h
  next hblank =>
  split at h
  · cases h
  next hcoding =>
  split at h
  · cases h
  next hexpect =>
  refine ⟨⟨name, value, hc, by simpa using hblank⟩, by rw [hname]; simpa using hcoding,
    by rw [hname]; simpa using hexpect, fun hl ↦ ?_⟩
  have hl' : headerName name == ascii "content-length" := by rwa [isContentLength, hname] at hl
  rw [if_pos hl'] at h
  split at h
  · cases h
  next n hn =>
  rw [lengthOf, if_pos hl, hvalue, hn]
  rfl

theorem readHeader_of_passes {raw : Octets} (h : Passes raw) (headers : Headers) :
    readHeader headers raw =
      .ok ⟨headers.forwarded ++ [raw].filter (!isConnection ·),
        headers.contentLengths ++ [raw].filterMap lengthOf⟩ := by
  obtain ⟨name, value, hc, hblank⟩ := h.named
  have hname : lineName raw = headerName name := by simp [lineName, hc]
  have hvalue : lineValue raw = value := by simp [lineValue, hc]
  have hcoding := h.transferEncoding
  have hexpect := h.expect
  rw [hname] at hcoding hexpect
  unfold readHeader
  rw [hc]
  simp only [hblank, beq_iff_eq, hcoding, hexpect, Bool.false_eq_true, if_false]
  by_cases hl : isContentLength raw = true
  · have hl' : headerName name = ascii "content-length" := by
      rwa [isContentLength, hname, beq_iff_eq] at hl
    obtain ⟨n, hn⟩ := Option.isSome_iff_exists.mp (h.contentLength hl)
    have hn' : pyInt (strip value) = some n := by rwa [lengthOf, if_pos hl, hvalue] at hn
    rw [if_pos hl', hn']
    simp [Headers.keep, isContentLength_not_isConnection hl, hn]
  · have hl' : headerName name ≠ ascii "content-length" := by
      rwa [isContentLength, hname, beq_iff_eq] at hl
    have hnone : lengthOf raw = none := by rw [lengthOf, if_neg hl]
    rw [if_neg hl', ← hname]
    change (if isConnection raw = true then _ else _) = _
    by_cases hi : isConnection raw = true
    · rw [if_pos hi]
      simp [hi, hnone]
    · rw [if_neg hi]
      simp [Headers.keep, hi, hnone]

theorem readHeaders_of_passes {lines : List Octets} (h : ∀ raw ∈ lines, Passes raw)
    (headers : Headers) :
    readHeaders headers lines =
      .ok ⟨headers.forwarded ++ lines.filter (!isConnection ·),
        headers.contentLengths ++ lines.filterMap lengthOf⟩ := by
  induction lines generalizing headers with
  | nil => simp [readHeaders]
  | cons raw lines ih =>
    rw [readHeaders, readHeader_of_passes (h raw (by simp))]
    dsimp only
    rw [ih fun other ho ↦ h other (by simp [ho])]
    simp only [List.append_assoc, ← List.filter_append, ← List.filterMap_append,
      List.singleton_append]

theorem passes_of_readHeaders {headers headers' : Headers} {lines : List Octets}
    (h : readHeaders headers lines = .ok headers') : ∀ raw ∈ lines, Passes raw := by
  induction lines generalizing headers with
  | nil => simp
  | cons raw lines ih =>
    rw [readHeaders] at h
    split at h
    · cases h
    next kept hread =>
    intro other ho
    cases ho with
    | head => exact passes_of_readHeader hread
    | tail _ ho => exact ih h other ho

/-- The checks, made on the whole stream instead of on what has been received. -/
structure Framed (stage : Stage) (stream line rawHead after : Octets) (checked : Checked) :
    Prop where
  lineAt : ∃ rest, cutAt crlf stream = some (line, rest)
  headAt : cutAt headEnd stream = some (rawHead, after)
  lineOk : stage.checkRequestLine line = .ok ()
  headOk : checkHead line rawHead = .ok checked

theorem handle_of_bridgeChannel {stage : Stage} {stream sent : Octets} {waiting : List ℕ}
    (h : stage.bridgeChannel stream waiting = .forwarded sent) :
    stage.handle stream waiting = .forwarded sent := by
  cases hr : stage.reachable with
  | true => rw [← bridgeChannel_eq stage stream waiting hr, h]
  | false =>
    unfold Stage.bridgeChannel at h
    simp only [hr, Bool.not_false, if_true] at h
    repeat' split at h
    all_goals cases h

theorem handle_forwarded {stage : Stage} {stream sent : Octets} {waiting : List ℕ}
    (h : stage.handle stream waiting = .forwarded sent) :
    ∃ line rawHead after checked k, Framed stage stream line rawHead after checked ∧
      stage.reachable = true ∧ k ≤ checked.contentLength ∧
      sent = forwardedHead checked ++ after.take k ∧
      line.length + 2 ≤ maxRequestLine ∧ rawHead.length + 4 ≤ maxRequestHeaders := by
  unfold Stage.handle at h
  split at h
  · cases h
  next received incoming hfill =>
  split at h
  · cases h
  next line rest hline =>
  split at h
  · cases h
  next hshort =>
  split at h
  · cases h
  next hcheck =>
  split at h
  · cases h
  next received' incoming' hfill' =>
  split at h
  · cases h
  next rawHead initialBody hhead =>
  split at h
  · cases h
  next hshort' =>
  split at h
  · cases h
  next checked hchecked =>
  split at h
  · cases h
  next hbody =>
  split at h
  · cases h
  next hreach =>
  obtain ⟨chunk, hr, hp⟩ := fill_received hfill
  obtain ⟨chunk', hr', hp'⟩ := fill_received hfill'
  have hstream : stream = received' ++ incoming'.pending := by
    rw [hp, hp', hr', hr, List.nil_append, List.append_assoc]
  obtain ⟨k, hk, hsent⟩ := sendBody_eq (checked.contentLength - initialBody.length)
    (forwardedHead checked ++ initialBody) incoming'.pending incoming'.waiting
  refine ⟨line, rawHead, initialBody ++ incoming'.pending, checked, initialBody.length + k,
    ⟨⟨rest ++ incoming.pending, ?_⟩, ?_, hcheck, hchecked⟩, by simpa using hreach, by omega, ?_,
    ?_, ?_⟩
  · rw [hp, ← List.nil_append chunk, ← hr]
    exact cutAt_append _ hline
  · rw [hstream]
    exact cutAt_append _ hhead
  · cases h
    rw [hsent, List.take_length_add_append, List.append_assoc]
  · have := length_of_cutAt hline
    simp only [List.length_cons, List.length_nil] at this
    omega
  · have := length_of_cutAt hhead
    simp only [List.length_cons, List.length_nil] at this
    omega

theorem checkHead_ok {line rawHead : Octets} {checked : Checked}
    (h : checkHead line rawHead = .ok checked) :
    (∀ raw ∈ (crlfLines rawHead).tail, Passes raw) ∧ checked.requestLine = line ∧
      checked.headers = (crlfLines rawHead).tail.filter (!isConnection ·) ∧
      declaredLength ((crlfLines rawHead).tail.filterMap lengthOf) = .ok checked.contentLength := by
  unfold checkHead at h
  split at h
  · cases h
  next headers hread =>
  have hall := passes_of_readHeaders hread
  rw [readHeaders_of_passes hall] at hread
  cases hread
  split at h
  · cases h
  next length hlength =>
  cases h
  exact ⟨hall, rfl, rfl, by simpa using hlength⟩

/-- The first line of the stream is the first line of its head. -/
theorem Framed.head_lines {stage : Stage} {stream line rawHead after : Octets} {checked : Checked}
    (h : Framed stage stream line rawHead after checked) :
    crlfLines rawHead = line :: (crlfLines rawHead).tail := by
  obtain ⟨rest, hline⟩ := h.lineAt
  obtain ⟨first, lines, hl⟩ := List.exists_cons_of_ne_nil (crlfLines_ne_nil rawHead)
  have hfirst : ¬ crlf <:+: first := not_infix_of_mem_crlfLines (by rw [hl]; exact List.mem_cons_self)
  have hraw := intercalate_crlfLines rawHead
  have hs := eq_of_cutAt h.headAt
  have hcut : ∃ more, stream = first ++ crlf ++ more := by
    rw [hl] at hraw
    cases lines with
    | nil =>
      rw [List.intercalate_singleton] at hraw
      exact ⟨crlf ++ after, by rw [hs, ← hraw]; simp⟩
    | cons next lines =>
      rw [List.intercalate_cons_cons] at hraw
      exact ⟨crlf.intercalate (next :: lines) ++ headEnd ++ after, by rw [hs, ← hraw]; simp⟩
  obtain ⟨more, hmore⟩ := hcut
  rw [hmore, cutAt_crlf_line more hfirst] at hline
  cases hline
  rw [hl, List.tail_cons]

end SlurmScheduler.Relay
