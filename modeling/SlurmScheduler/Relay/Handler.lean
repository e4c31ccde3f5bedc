import SlurmScheduler.Http.Reading

namespace SlurmScheduler.Relay

open Http

def maxRequestLine : ℕ := 16384
def maxRequestHeaders : ℕ := 65536
def maxRequestBody : ℕ := 16 * 1024 * 1024

def defaultAllowedPrefixes : List String := ["/api/aedt-pool/", "/healthz"]

def isSpace (b : UInt8) : Bool := (9 ≤ b && b ≤ 13) || (28 ≤ b && b ≤ 32) || b == 133 || b == 160

def isByteSpace (b : UInt8) : Bool := (9 ≤ b && b ≤ 13) || b == sp

def strip : Octets → Octets := trim isByteSpace

def maxStrDigits : ℕ := 4300

/-- `int` of digits with single underscores between them, after a sign -/
def unsignedInt (text : Octets) : Option ℕ :=
  let groups := text.splitOn 95
  if groups.all (fun group ↦ !group.isEmpty && group.all isDigit) &&
      groups.flatten.length ≤ maxStrDigits then decimal groups.flatten
  else none

def pyInt (text : Octets) : Option ℤ :=
  match text with
  | [] => none
  | b :: rest =>
      if b == 43 then (unsignedInt rest).map fun n : ℕ ↦ (n : ℤ)
      else if b == 45 then (unsignedInt rest).map fun n : ℕ ↦ -(n : ℤ)
      else (unsignedInt text).map fun n : ℕ ↦ (n : ℤ)

def decode (text : Octets) : List Char := text.map fun b ↦ Char.ofNat b.toNat

def startsWith (path : Octets) (start : String) : Bool := start.toList.isPrefixOf (decode path)

def isNetloc (b : UInt8) : Bool := b != slash && b != question && b != 35

/-- `urlsplit(target).path` of a target that begins with a slash -/
def urlsplitPath (acceptsHost : Octets → Bool) (target : Octets) : Option Octets :=
  let url : Option Octets :=
    if target.take 2 == [slash, slash] then
      let netloc := (target.drop 2).takeWhile isNetloc
      let opened := netloc.contains 91
      let closed := netloc.contains 93
      if opened != closed || (opened && closed && !acceptsHost netloc) then none
      else some ((target.drop 2).dropWhile isNetloc)
    else some target
  url.map fun url ↦ (url.takeWhile (· != 35)).takeWhile (· != question)

/-- What one side still has to send, and how many octets wait at each `recv`.
No octets, or no further entry, is the end of the connection or a timeout. -/
structure Incoming where
  pending : Octets
  waiting : List ℕ

/-- `while mark not in initial and len(initial) <= limit: initial.extend(recv(4096))` -/
def fill (mark : Octets) (limit : ℕ) (initial pending : Octets) :
    List ℕ → Option (Octets × Incoming)
  | [] =>
      if (cutAt mark initial).isSome || limit < initial.length then some (initial, ⟨pending, []⟩)
      else none
  | n :: waiting =>
      if (cutAt mark initial).isSome || limit < initial.length then
        some (initial, ⟨pending, n :: waiting⟩)
      else
        let chunk := pending.take (min 4096 n)
        if chunk.isEmpty then none
        else fill mark limit (initial ++ chunk) (pending.drop chunk.length) waiting

/-- `while remaining: chunk = recv(min(65536, remaining)); upstream.sendall(chunk)` -/
def sendBody (remaining : ℕ) (sent pending : Octets) : List ℕ → Octets
  | [] => sent
  | n :: waiting =>
      if remaining = 0 then sent
      else
        let chunk := pending.take (min (min 65536 remaining) n)
        if chunk.isEmpty then sent
        else
          sendBody (remaining - chunk.length) (sent ++ chunk) (pending.drop chunk.length) waiting

structure Reply where
  status : String
  body : String
  deriving DecidableEq

/-- What becomes of a connection: it is closed without a word, answered by the
relay, or its request is sent on. -/
inductive Verdict
  | closed
  | replied (reply : Reply)
  | forwarded (sent : Octets)
  deriving DecidableEq

def Verdict.isForwarded : Verdict → Bool
  | .forwarded _ => true
  | _ => false

theorem Verdict.exists_of_isForwarded {v : Verdict} (h : v.isForwarded = true) :
    ∃ sent, v = .forwarded sent := by
  cases v with
  | forwarded sent => exact ⟨sent, rfl⟩
  | closed => cases h
  | replied reply => cases h

def badRequest : Reply := ⟨"400 Bad Request", "bad request\n"⟩
def badTarget : Reply := ⟨"400 Bad Request", "bad request target\n"⟩
def badLength : Reply := ⟨"400 Bad Request", "bad content length\n"⟩
def pipelined : Reply := ⟨"400 Bad Request", "pipelined requests forbidden\n"⟩
def forbidden : Reply := ⟨"403 Forbidden", "forbidden\n"⟩
def bodyTooLarge : Reply := ⟨"413 Payload Too Large", "request body too large\n"⟩
def expectUnsupported : Reply := ⟨"417 Expectation Failed", "expect unsupported\n"⟩
def headersTooLarge : Reply :=
  ⟨"431 Request Header Fields Too Large", "headers too large\n"⟩
def chunkedUnsupported : Reply := ⟨"501 Not Implemented", "chunked requests unsupported\n"⟩
def upstreamUnavailable : Reply := ⟨"502 Bad Gateway", "upstream unavailable\n"⟩

/-- A stage: its allowlist, whether it can connect onwards, and the check its
Python makes of a bracketed host. -/
structure Stage where
  allowedPrefixes : List String
  reachable : Bool
  acceptsHost : Octets → Bool

def Stage.checkRequestLine (stage : Stage) (line : Octets) : Except Reply Unit :=
  match words isSpace line with
  | [_, target, version] =>
      if !(ascii "HTTP/").isPrefixOf version || target.head? != some slash then .error badRequest
      else
        match urlsplitPath stage.acceptsHost target with
        | none => .error badTarget
        | some path =>
            if stage.allowedPrefixes.any (startsWith path) then .ok () else .error forbidden
  | _ => .error badRequest

structure Headers where
  forwarded : List Octets
  contentLengths : List ℤ

def Headers.keep (headers : Headers) (raw : Octets) : Headers :=
  { headers with forwarded := headers.forwarded ++ [raw] }

def headerName (name : Octets) : Octets := lower (strip name)

def readHeader (headers : Headers) (raw : Octets) : Except Reply Headers :=
  match cutAt [colon] raw with
  | none => .error badRequest
  | some (name, value) =>
      if (strip name).isEmpty then .error badRequest
      else if headerName name == ascii "transfer-encoding" then .error chunkedUnsupported
      else if headerName name == ascii "expect" then .error expectUnsupported
      else if headerName name == ascii "content-length" then
        match pyInt (strip value) with
        | none => .error badLength
        | some n =>
            .ok { headers.keep raw with contentLengths := headers.contentLengths ++ [n] }
      else if headerName name == ascii "connection" ||
          headerName name == ascii "proxy-connection" then .ok headers
      else .ok (headers.keep raw)

def readHeaders (headers : Headers) : List Octets → Except Reply Headers
  | [] => .ok headers
  | raw :: rest =>
      match readHeader headers raw with
      | .error reply => .error reply
      | .ok headers => readHeaders headers rest

def declaredLength (contentLengths : List ℤ) : Except Reply ℕ :=
  if contentLengths.any (· < 0) || 1 < contentLengths.dedup.length then .error badLength
  else
    let contentLength := (contentLengths.head?.getD 0).toNat
    if maxRequestBody < contentLength then .error bodyTooLarge else .ok contentLength

/-- The lines of the head as they are sent on, and the length of the body. -/
structure Checked where
  requestLine : Octets
  headers : List Octets
  contentLength : ℕ

def checkHead (requestLine rawHead : Octets) : Except Reply Checked :=
  match readHeaders ⟨[], []⟩ (crlfLines rawHead).tail with
  | .error reply => .error reply
  | .ok headers =>
      match declaredLength headers.contentLengths with
      | .error reply => .error reply
      | .ok length => .ok ⟨requestLine, headers.forwarded, length⟩

def forwardedHead (checked : Checked) : Octets :=
  crlf.intercalate
    ([checked.requestLine] ++ checked.headers ++ [ascii "Connection: close", [], []])

def Stage.handle (stage : Stage) (stream : Octets) (waiting : List ℕ) : Verdict :=
  match fill crlf maxRequestLine [] stream waiting with
  | none => .closed
  | some (initial, incoming) =>
  match cutAt crlf initial with
  | none => .replied badRequest
  | some (requestLine, _) =>
  if maxRequestLine < initial.length then .replied badRequest
  else
  match stage.checkRequestLine requestLine with
  | .error reply => .replied reply
  | .ok () =>
  match fill headEnd maxRequestHeaders initial incoming.pending incoming.waiting with
  | none => .closed
  | some (initial, incoming) =>
  match cutAt headEnd initial with
  | none => .replied headersTooLarge
  | some (rawHead, initialBody) =>
  if maxRequestHeaders < initial.length then .replied headersTooLarge
  else
  match checkHead requestLine rawHead with
  | .error reply => .replied reply
  | .ok checked =>
  if checked.contentLength < initialBody.length then .replied pipelined
  else if !stage.reachable then .replied upstreamUnavailable
  else
    .forwarded (sendBody (checked.contentLength - initialBody.length)
      (forwardedHead checked ++ initialBody) incoming.pending incoming.waiting)

/-- `ControlPlaneRelay._bridge_channel`; an upstream that cannot be connected
closes the channel without an answer. -/
def Stage.bridgeChannel (stage : Stage) (stream : Octets) (waiting : List ℕ) : Verdict :=
  match fill crlf maxRequestLine [] stream waiting with
  | none => .closed
  | some (initial, incoming) =>
  match cutAt crlf initial with
  | none => .replied badRequest
  | some (requestLine, _) =>
  if maxRequestLine < initial.length then .replied badRequest
  else
  match stage.checkRequestLine requestLine with
  | .error reply => .replied reply
  | .ok () =>
  match fill headEnd maxRequestHeaders initial incoming.pending incoming.waiting with
  | none => .closed
  | some (initial, incoming) =>
  match cutAt headEnd initial with
  | none => .replied headersTooLarge
  | some (rawHead, initialBody) =>
  if maxRequestHeaders < initial.length then .replied headersTooLarge
  else
  match checkHead requestLine rawHead with
  | .error reply => .replied reply
  | .ok checked =>
  if checked.contentLength < initialBody.length then .replied pipelined
  else if !stage.reachable then .closed
  else
    .forwarded (sendBody (checked.contentLength - initialBody.length)
      (forwardedHead checked ++ initialBody) incoming.pending incoming.waiting)

theorem bridgeChannel_eq (stage : Stage) (stream : Octets) (waiting : List ℕ)
    (h : stage.reachable = true) : stage.bridgeChannel stream waiting = stage.handle stream waiting := by
  unfold Stage.bridgeChannel Stage.handle
  simp only [h, Bool.not_true, Bool.false_eq_true, if_false]

end SlurmScheduler.Relay
