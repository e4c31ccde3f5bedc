import SlurmScheduler.Http.Octets

namespace SlurmScheduler.Http

def isDigit (b : UInt8) : Bool := 48 ≤ b && b ≤ 57

def isAlpha (b : UInt8) : Bool := (65 ≤ b && b ≤ 90) || (97 ≤ b && b ≤ 122)

def isHex (b : UInt8) : Bool := isDigit b || (65 ≤ b && b ≤ 70) || (97 ≤ b && b ≤ 102)

def lower (text : Octets) : Octets := text.map fun b ↦ if 65 ≤ b && b ≤ 90 then b + 32 else b

def isTokenOctet (b : UInt8) : Bool :=
  isAlpha b || isDigit b || (ascii "!#$%&'*+-.^_`|~").contains b

def isToken (text : Octets) : Bool := !text.isEmpty && text.all isTokenOctet

def isTargetOctet (b : UInt8) : Bool :=
  isAlpha b || isDigit b || (ascii "-._~!$&'()*+,;=:@/?").contains b

def isTargetText : Octets → Bool
  | [] => true
  | b :: rest =>
      if b == 37 then
        match rest with
        | h :: l :: rest => isHex h && isHex l && isTargetText rest
        | _ => false
      else isTargetOctet b && isTargetText rest

def isOriginForm (target : Octets) : Bool := target.head? == some slash && isTargetText target

def isVersion : Octets → Bool
  | [h, t, t', p, s, major, dot, minor] =>
      [h, t, t', p, s] == ascii "HTTP/" && isDigit major && dot == 46 && isDigit minor
  | _ => false

def isBlank (b : UInt8) : Bool := b == sp || b == htab

def isFieldOctet (b : UInt8) : Bool := b == htab || (32 ≤ b && b != 127)

def trim (blank : UInt8 → Bool) (text : Octets) : Octets :=
  ((text.dropWhile blank).reverse.dropWhile blank).reverse

def words (blank : UInt8 → Bool) (text : Octets) : List Octets :=
  (text.splitOnP blank).filter fun word ↦ !word.isEmpty

def decimal (text : Octets) : Option ℕ :=
  if !text.isEmpty && text.all isDigit then
    some (text.foldl (fun n d ↦ 10 * n + (d.toNat - 48)) 0)
  else none

structure RequestLine where
  method : Octets
  target : Octets
  version : Octets

def RequestLine.path (line : RequestLine) : Octets := line.target.takeWhile (· != question)

structure Field where
  name : Octets
  value : Octets

def Field.isNamed (field : Field) (name : String) : Bool := lower field.name == ascii name

inductive Framing
  | length (octets : ℕ)
  | transferCoding

/-- What a reader makes of a stream.  A request in another form than
origin-form names no path of the server and counts as refused. -/
inductive Reading
  | incomplete
  | refused
  | request (line : RequestLine) (fields : List Field) (framing : Framing) (rest : Octets)

structure Reader where
  /-- a bare LF closes a line -/
  bareLf : Bool
  /-- how many empty lines are ignored before a request line -/
  emptyLines : ℕ
  /-- the request line is cut at runs of whitespace, not at single spaces -/
  cutsWords : Bool
  /-- a bare CR, and an LF or NUL of a value, is replaced by a space -/
  replaces : Bool
  /-- the other control octets of a value are kept -/
  keepsControls : Bool
  /-- lines that begin with whitespace are dropped before the first field -/
  dropsLeading : Bool
  /-- later lines that begin with whitespace continue the field before them -/
  unfolds : Bool
  /-- a repeated Content-Length, or a list of one value, is read as that value -/
  repeats : Bool

def Reader.strict : Reader := ⟨false, 0, false, false, false, false, false, false⟩

namespace Reader

variable (r : Reader)

def skipEmpty : ℕ → Octets → Octets
  | 0, stream => stream
  | n + 1, stream =>
      match stream with
      | b :: c :: rest =>
          if b = cr ∧ c = lf then skipEmpty n rest
          else if r.bareLf ∧ b = lf then skipEmpty n (c :: rest)
          else stream
      | _ => stream

def cleanLine (line : Octets) : Option Octets :=
  if cr ∈ line then
    if r.replaces then some (line.map fun b ↦ if b = cr then sp else b) else none
  else some line

def isLineBlank (b : UInt8) : Bool := isBlank b || b == 11 || b == 12 || b == cr

def requestLine (line : Octets) : Option RequestLine :=
  match if r.cutsWords then words isLineBlank line else line.splitOn sp with
  | [method, target, version] =>
      if isToken method && isOriginForm target && isVersion version then
        some ⟨method, target, version⟩
      else none
  | _ => none

def startsBlank (line : Octets) : Bool := line.head?.any isBlank

def unfoldFrom (current : Octets) : List Octets → Option (List Octets)
  | [] => some [current]
  | line :: lines =>
      if startsBlank line then
        if r.unfolds then unfoldFrom (current ++ [sp] ++ line) lines else none
      else (unfoldFrom line lines).map (current :: ·)

def fieldLines : List Octets → Option (List Octets)
  | [] => some []
  | line :: lines =>
      if startsBlank line then if r.dropsLeading then fieldLines lines else none
      else r.unfoldFrom line lines

def valueOctet (b : UInt8) : Option UInt8 :=
  if isFieldOctet b then some b
  else if b = lf ∨ b = 0 then if r.replaces then some sp else none
  else if r.keepsControls then some b else none

def field (line : Octets) : Option Field :=
  match cutAt [colon] line with
  | none => none
  | some (name, value) =>
      if isToken name then (value.mapM r.valueOctet).map fun text ↦ ⟨name, trim isBlank text⟩
      else none

def lengthValues (fields : List Field) : List Octets :=
  (fields.filter (·.isNamed "content-length")).map (·.value)

def listElements (value : Octets) : List Octets :=
  ((value.splitOn comma).map (trim isBlank)).filter fun element ↦ !element.isEmpty

def framing (fields : List Field) : Option Framing :=
  if fields.any (·.isNamed "transfer-encoding") then some .transferCoding
  else
    match lengthValues fields with
    | [] => some (.length 0)
    | values =>
        match ((if r.repeats then values.flatMap listElements else values).mapM decimal) with
        | some (n :: ns) =>
            if ns.all (· == n) && (r.repeats || ns.isEmpty) then some (.length n) else none
        | _ => none

def interpret (lines : List Octets) (rest : Octets) : Reading :=
  match lines.mapM r.cleanLine with
  | some (start :: others) =>
      match r.requestLine start, (r.fieldLines others).bind (·.mapM r.field) with
      | some line, some fields =>
          match r.framing fields with
          | some framing => .request line fields framing rest
          | none => .refused
      | _, _ => .refused
  | _ => .refused

def read (stream : Octets) : Reading :=
  match headOf r.bareLf [] (r.skipEmpty r.emptyLines stream) with
  | some (lines, rest) => r.interpret lines rest
  | none => .incomplete

end Reader

end SlurmScheduler.Http
