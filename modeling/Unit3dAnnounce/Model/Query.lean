import Unit3dAnnounce.Collections.Separated
import Unit3dAnnounce.Model.Announce

/-!
# Query strings

The query string of an announce is read by two scans that run side by side, one over its
`=` signs and one over its `&` signs.
-/

namespace Unit3dAnnounce

/-- Whether a byte continues a character that an earlier byte began. -/
def isContinuation (b : UInt8) : Bool := 0x80 ≤ b && b < 0xC0

namespace Text

/-- `str::is_char_boundary`. -/
def isCharBoundary (s : Text) (index : ℕ) : Bool :=
  index = 0 || index = s.length || s[index]?.any (fun b => !isContinuation b)

/-- `str::get` of the range from `start` to `stop`. -/
def slice? (s : Text) (start stop : ℕ) : Option Text :=
  if start ≤ stop && s.isCharBoundary start && s.isCharBoundary stop then
    some ((s.take stop).drop start)
  else none

end Text

/-- Why a text does not decode to twenty bytes. The source panics where it reads outside of
its input. -/
inductive DecodeFailure where
  | invalid
  | outOfBounds
deriving DecidableEq

def byteAt (input : Text) (inPos : ℕ) : Except DecodeFailure UInt8 :=
  match input[inPos]? with
  | some byte => .ok byte
  | none => .error .outOfBounds

/-- The byte written at a position, and the position of the next one. -/
def urlencodedByte (input : Text) (inPos : ℕ) : Except DecodeFailure (UInt8 × ℕ) := do
  let byte ← byteAt input inPos
  if byte = 0x25 then
    let hi ← byteAt input (inPos + 1)
    let lo ← byteAt input (inPos + 2)
    match hexDecode hi lo with
    | none => .error .invalid
    | some byte => .ok (byte, inPos + 3)
  else .ok (byte, inPos + 1)

def urlencodedBytes (input : Text) : (n : ℕ) → ℕ → Except DecodeFailure (List.Vector UInt8 n)
  | 0, _ => .ok .nil
  | n + 1, inPos => do
    let (byte, inPos) ← urlencodedByte input inPos
    let bytes ← urlencodedBytes input n inPos
    return byte ::ᵥ bytes

/-- Decodes a url-encoded string to 20 bytes. -/
def urlencodedToBytes (input : Text) : Except DecodeFailure (List.Vector UInt8 20) :=
  if input.length ≠ 20 + 2 * input.count 0x25 then .error .invalid
  else urlencodedBytes input 20 0

/-- One more decimal digit of a number below `bound`. -/
def parseDigit (bound n : ℕ) (c : UInt8) : Option ℕ :=
  if 0x30 ≤ c ∧ c ≤ 0x39 then
    let n := n * 10 + (c - 0x30).toNat
    if n < bound then some n else none
  else none

/-- `str::parse` of an unsigned integer below `bound`. A plus sign may stand before it. -/
def parseUnsigned (bound : ℕ) (s : Text) : Option ℕ :=
  let digits := if s.head? = some 0x2B then s.tail else s
  if digits.isEmpty then none else digits.foldlM (parseDigit bound) 0

def parseU16 (s : Text) : Option UInt16 := (parseUnsigned (2 ^ 16) s).map UInt16.ofNat

def parseU64 (s : Text) : Option UInt64 := (parseUnsigned (2 ^ 64) s).map UInt64.ofNat

def AnnounceEvent.fromStr (event : Text) : Except AnnounceError AnnounceEvent :=
  if event = [] || event = ascii "empty" || event = ascii "paused" then .ok .empty
  else if event = ascii "completed" then .ok .completed
  else if event = ascii "started" then .ok .started
  else if event = ascii "stopped" then .ok .stopped
  else .error .unsupportedEvent

/-- The query parameters read so far. -/
structure Parameters where
  infoHash : Option InfoHash
  peerId : Option PeerId
  port : Option UInt16
  uploaded : Option UInt64
  downloaded : Option UInt64
  left : Option UInt64
  event : Option AnnounceEvent
  numwant : Option UInt64
  corrupt : Option UInt64
  key : Option Text

def Parameters.empty : Parameters := ⟨none, none, none, none, none, none, none, none, none, none⟩

/-- `Option::ok_or`. -/
def okOr {α : Type} (error : AnnounceError) : Option α → Except AnnounceError α
  | some a => .ok a
  | none => .error error

def Parameters.process (parameters : Parameters) (parameter value : Text) :
    Except AnnounceError Parameters :=
  if parameter = ascii "info_hash" then do
    let bytes ← okOr .invalidInfoHash (urlencodedToBytes value).toOption
    return { parameters with infoHash := some ⟨bytes⟩ }
  else if parameter = ascii "peer_id" then do
    let bytes ← okOr .invalidPeerId (urlencodedToBytes value).toOption
    return { parameters with peerId := some ⟨bytes⟩ }
  else if parameter = ascii "port" then do
    return { parameters with port := some (← okOr .invalidPort (parseU16 value)) }
  else if parameter = ascii "uploaded" then do
    return { parameters with uploaded := some (← okOr .invalidUploaded (parseU64 value)) }
  else if parameter = ascii "downloaded" then do
    return { parameters with downloaded := some (← okOr .invalidDownloaded (parseU64 value)) }
  else if parameter = ascii "left" then do
    return { parameters with left := some (← okOr .invalidLeft (parseU64 value)) }
  else if parameter = ascii "compact" then
    if value ≠ ascii "1" then .error .invalidCompact else .ok parameters
  else if parameter = ascii "event" then do
    return { parameters with event := some (← AnnounceEvent.fromStr value) }
  else if parameter = ascii "numwant" then do
    return { parameters with numwant := some (← okOr .invalidNumwant (parseU64 value)) }
  else if parameter = ascii "corrupt" then .ok { parameters with corrupt := parseU64 value }
  else if parameter = ascii "key" then .ok { parameters with key := some value }
  else .ok parameters

def ampersand : UInt8 := 0x26

def equalSign : UInt8 := 0x3D

section Extraction

variable {P : Type} (process : P → Text → Text → Except AnnounceError P)

/-- The loop over the equal signs, with the ampersands that are still to come. -/
def extractLoop (query : Text) : List ℕ → List ℕ → ℕ → P → Except AnnounceError P
  | [], _, _, parameters => .ok parameters
  | equalSignPos :: equalSignPositions, ampersandPositions, pos, parameters => do
    let valueEndPos := ampersandPositions.head?.getD query.length
    let parameter ← okOr .invalidQueryStringKey (query.slice? pos equalSignPos)
    let value ← okOr .invalidQueryStringValue (query.slice? (equalSignPos + 1) valueEndPos)
    let parameters ← process parameters parameter value
    if valueEndPos = query.length then .ok parameters
    else
      extractLoop query equalSignPositions ampersandPositions.tail (valueEndPos + 1) parameters

/-- The loop over a whole query, whatever is done with its pairs. -/
def extractWith (query : Text) (parameters : P) : Except AnnounceError P :=
  extractLoop process query (Separated.positions equalSign 0 query)
    (Separated.positions ampersand 0 query) 0 parameters

end Extraction

def extract (query : Text) : Except AnnounceError Parameters :=
  extractWith Parameters.process query .empty

/-- Extracts the query parameters in the HTTP GET request. -/
def fromRequestParts {F : Type} (config : Config F) (query : Option String) :
    Except AnnounceError Announce := do
  let parameters ← extract (utf8 (query.getD ""))
  let infoHash ← okOr .missingInfoHash parameters.infoHash
  let peerId ← okOr .missingPeerId parameters.peerId
  let port ← okOr .missingPort parameters.port
  let uploaded ← okOr .missingUploaded parameters.uploaded
  let downloaded ← okOr .missingDownloaded parameters.downloaded
  let left ← okOr .missingLeft parameters.left
  let event := parameters.event.getD .empty
  return {
    infoHash := infoHash
    peerId := peerId
    port := port
    uploaded := uploaded
    downloaded := downloaded
    left := left
    event := event
    numwant := if event = .stopped then 0
      else min (parameters.numwant.getD config.numwantDefault) config.numwantMax
    corrupt := parameters.corrupt
    key := parameters.key }

end Unit3dAnnounce
