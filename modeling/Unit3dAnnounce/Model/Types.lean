import Mathlib.Data.Vector.Basic
import Mathlib.Data.List.Infix
import Mathlib.Tactic.DeriveFintype

/-!
# Values

The fixed-width arithmetic, the clock and the identifiers that the tracker works with.
Unsigned integers have the width of the source. The signed deltas are integers, with the
bounds of `i32` and `i64` written out where an operation saturates at them.
-/

namespace Unit3dAnnounce

/-- `u32::saturating_add_signed`. -/
def saturatingAddSigned (x : UInt32) (d : ℤ) : UInt32 :=
  UInt32.ofNat (min (x.toNat + d).toNat (2 ^ 32 - 1))

/-- `u32::saturating_sub`. -/
def saturatingSubU32 (x y : UInt32) : UInt32 := if y ≤ x then x - y else 0

/-- `u32::saturating_add`. -/
def saturatingAddU32 (x y : UInt32) : UInt32 := UInt32.ofNat (min (x.toNat + y.toNat) (2 ^ 32 - 1))

/-- `u64::saturating_add`. -/
def saturatingAddU64 (x y : UInt64) : UInt64 := UInt64.ofNat (min (x.toNat + y.toNat) (2 ^ 64 - 1))

/-- `u64::saturating_sub`. -/
def saturatingSubU64 (x y : UInt64) : UInt64 := if y ≤ x then x - y else 0

/-- `i32::saturating_add`. -/
def saturatingAddI32 (x y : ℤ) : ℤ := max (-2 ^ 31) (min (x + y) (2 ^ 31 - 1))

/-- `i64::saturating_add`. -/
def saturatingAddI64 (x y : ℤ) : ℤ := max (-2 ^ 63) (min (x + y) (2 ^ 63 - 1))

/-- `x.try_into().unwrap_or(i64::MAX)` of a `u64`. -/
def toI64 (x : UInt64) : ℤ := min x.toNat (2 ^ 63 - 1)

/-- `b as i32`. -/
def asI32 (b : Bool) : ℤ := if b then 1 else 0

lemma toNat_saturatingAddSigned (x : UInt32) (d : ℤ) :
    (saturatingAddSigned x d).toNat = min (x.toNat + d).toNat (2 ^ 32 - 1) := by
  rw [saturatingAddSigned, UInt32.toNat_ofNat_of_lt']
  have : UInt32.size = 2 ^ 32 := rfl
  omega

@[simp] lemma saturatingAddSigned_zero (x : UInt32) : saturatingAddSigned x 0 = x := by
  apply UInt32.toNat_inj.mp
  rw [toNat_saturatingAddSigned]
  have := x.toNat_lt
  omega

/-- Where the sum fits, saturating addition is addition. -/
lemma toNat_saturatingAddSigned_of_fits {x : UInt32} {d : ℤ} {n : ℕ} (h : (x.toNat : ℤ) + d = n)
    (hn : n < 2 ^ 32) : (saturatingAddSigned x d).toNat = n := by
  rw [toNat_saturatingAddSigned]
  omega

lemma toNat_saturatingSubU32 (x y : UInt32) :
    (saturatingSubU32 x y).toNat = x.toNat - y.toNat := by
  unfold saturatingSubU32
  by_cases h : y ≤ x
  · rw [if_pos h, UInt32.toNat_sub_of_le _ _ h]
  · have hlt : ¬ y.toNat ≤ x.toNat := h
    rw [if_neg h, UInt32.toNat_zero]
    omega

lemma toNat_saturatingAddU32 (x y : UInt32) :
    (saturatingAddU32 x y).toNat = min (x.toNat + y.toNat) (2 ^ 32 - 1) := by
  rw [saturatingAddU32, UInt32.toNat_ofNat_of_lt' (by have : UInt32.size = 2 ^ 32 := rfl; omega)]

lemma toNat_saturatingAddU64 (x y : UInt64) :
    (saturatingAddU64 x y).toNat = min (x.toNat + y.toNat) (2 ^ 64 - 1) := by
  rw [saturatingAddU64, UInt64.toNat_ofNat_of_lt' (by have : UInt64.size = 2 ^ 64 := rfl; omega)]

/-- `DateTime<Utc>`, in nanoseconds since the Unix epoch. -/
abbrev DateTime := ℤ

/-- `Duration::seconds`. -/
def seconds (n : ℤ) : ℤ := n * 10 ^ 9

def DateTime.minUtc : DateTime := seconds (-8334601228800)

def DateTime.maxUtc : DateTime := seconds 8210266876800 - 1

def checkedAddSigned (t : DateTime) (d : ℤ) : Option DateTime :=
  if DateTime.minUtc ≤ t + d ∧ t + d ≤ DateTime.maxUtc then some (t + d) else none

def checkedSubSigned (t : DateTime) (d : ℤ) : Option DateTime := checkedAddSigned t (-d)

/-- The bytes of a string. -/
abbrev Text := List UInt8

/-- The bytes of an ASCII literal. -/
def ascii (s : String) : Text := s.toList.map (fun c => UInt8.ofNat c.toNat)

/-- `String::as_bytes`. -/
def utf8 (s : String) : Text := s.toList.flatMap String.utf8EncodeChar

/-- `str::to_ascii_lowercase`. -/
def Text.toAsciiLowercase (s : Text) : Text :=
  s.map (fun b => if 0x41 ≤ b ∧ b ≤ 0x5A then b + 0x20 else b)

/-- `str::contains`. -/
def Text.contains (s pattern : Text) : Bool := decide (pattern <:+: s)

def hexDigit (c : UInt8) : Option UInt8 :=
  if 0x30 ≤ c ∧ c ≤ 0x39 then some (c - 0x30)
  else if 0x61 ≤ c ∧ c ≤ 0x66 then some (c - 0x61 + 0xA)
  else if 0x41 ≤ c ∧ c ≤ 0x46 then some (c - 0x41 + 0xA)
  else none

/-- Decodes two ascii-encoded hex digits into one byte. -/
def hexDecode (hi lo : UInt8) : Option UInt8 := do
  let hi ← hexDigit hi
  let lo ← hexDigit lo
  return (hi <<< 4) + lo

def hexDecodeAll : Text → Option (List UInt8)
  | [] => some []
  | [_] => none
  | hi :: lo :: rest => do
    let byte ← hexDecode hi lo
    let bytes ← hexDecodeAll rest
    return byte :: bytes

/-- A digit of a value above `0xF` is `unreachable!()`. -/
def hexEncodeDigit (digit : UInt8) : Option UInt8 :=
  if digit ≤ 0x9 then some (digit + 0x30)
  else if 0xA ≤ digit ∧ digit ≤ 0xF then some (digit - 0xA + 0x41)
  else none

/-- Encodes one byte into 2 ascii-encoded hex digits. -/
def hexEncode (byte : UInt8) : Option Text := do
  let hi ← hexEncodeDigit (byte >>> 4)
  let lo ← hexEncodeDigit (byte &&& 0x0F)
  return [hi, lo]

def hexEncodeAll : List UInt8 → Option Text
  | [] => some []
  | byte :: bytes => do
    let digits ← hexEncode byte
    let rest ← hexEncodeAll bytes
    return digits ++ rest

structure InfoHash where
  bytes : List.Vector UInt8 20
deriving DecidableEq

instance : Ord InfoHash := ⟨fun a b => compare a.bytes.toList b.bytes.toList⟩

def InfoHash.fromStr (s : Text) : Option InfoHash :=
  if s.length ≠ 40 then none
  else do
    let bytes ← hexDecodeAll s
    if h : bytes.length = 20 then some ⟨⟨bytes, h⟩⟩ else none

/-- The text of an info hash. It is ASCII, so its lossy conversion to a string changes nothing. -/
def InfoHash.display (infoHash : InfoHash) : Option Text := hexEncodeAll infoHash.bytes.toList

structure PeerId where
  bytes : List.Vector UInt8 20
deriving DecidableEq

instance : Ord PeerId := ⟨fun a b => compare a.bytes.toList b.bytes.toList⟩

structure Passkey where
  bytes : List.Vector UInt8 32
deriving DecidableEq

def Passkey.fromStr (s : Text) : Option Passkey :=
  if h : s.length = 32 then some ⟨⟨s, h⟩⟩ else none

inductive IpAddr where
  | v4 (octets : List.Vector UInt8 4)
  | v6 (octets : List.Vector UInt8 16)
deriving DecidableEq

structure SocketAddr where
  ip : IpAddr
  port : UInt16
deriving DecidableEq

/-- Torrent moderation status. -/
inductive TorrentStatus where
  | pending
  | approved
  | rejected
  | postponed
  | unknown
deriving DecidableEq

inductive AnnounceEvent where
  | completed
  | empty
  | started
  | stopped
deriving DecidableEq

end Unit3dAnnounce
