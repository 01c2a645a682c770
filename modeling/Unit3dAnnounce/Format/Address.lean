import Mathlib.Data.List.Basic

/-!
# Internet addresses

The parser of `core::net`. A reader takes what it reads from the start of a text and returns the
rest.
-/

namespace Address

/-- `char::to_digit`, up to radix 16. -/
def toDigit (radix : ℕ) (c : UInt8) : Option ℕ :=
  let digit :=
    if 0x30 ≤ c ∧ c ≤ 0x39 then some (c - 0x30).toNat
    else if 0x61 ≤ c ∧ c ≤ 0x66 then some ((c - 0x61).toNat + 10)
    else if 0x41 ≤ c ∧ c ≤ 0x46 then some ((c - 0x41).toNat + 10)
    else none
  digit.filter (· < radix)

/-- A number below `bound`. It has no more than `maxDigits` digits. -/
def readNumber (bound radix maxDigits : ℕ) (allowZeroPrefix : Bool) (s : List UInt8) :
    Option (ℕ × List UInt8) :=
  let digits := s.takeWhile fun c => (toDigit radix c).isSome
  let number := (digits.filterMap (toDigit radix)).foldl (fun n digit => n * radix + digit) 0
  if digits.isEmpty || digits.length > maxDigits then none
  else if !allowZeroPrefix && digits.head? = some 0x30 && digits.length > 1 then none
  else if number < bound then some (number, s.drop digits.length)
  else none

/-- What is read behind a separator, which the first item has none of. -/
def readSeparated {A : Type} (separator : UInt8) (isFirst : Bool)
    (read : List UInt8 → Option (A × List UInt8)) (s : List UInt8) : Option (A × List UInt8) :=
  if isFirst then read s
  else
    match s with
    | [] => none
    | c :: rest => if c = separator then read rest else none

/-- Numbers with points between them. -/
def readOctets : (count : ℕ) → (isFirst : Bool) → List UInt8 → Option (List ℕ × List UInt8)
  | 0, _, s => some ([], s)
  | count + 1, isFirst, s => do
    let (octet, rest) ← readSeparated 0x2E isFirst (readNumber 256 10 3 false) s
    let (octets, rest) ← readOctets count false rest
    return (octet :: octets, rest)

def readIpv4 (s : List UInt8) : Option (List ℕ × List UInt8) := readOctets 4 true s

/-- Up to `limit` groups with colons between them, the last two of which may be written as an IPv4
address, and whether they are. -/
def readGroups : (limit : ℕ) → (isFirst : Bool) → List UInt8 → List ℕ × Bool × List UInt8
  | 0, _, s => ([], false, s)
  | limit + 1, isFirst, s =>
    let ipv4 := if 0 < limit then readSeparated 0x3A isFirst readIpv4 s else none
    match ipv4 with
    | some ([a, b, c, d], rest) => ([a * 256 + b, c * 256 + d], true, rest)
    | _ =>
      match readSeparated 0x3A isFirst (readNumber 65536 16 4 true) s with
      | some (group, rest) =>
        let (groups, hasIpv4, rest) := readGroups limit false rest
        (group :: groups, hasIpv4, rest)
      | none => ([], false, s)

/-- Eight groups, where two colons stand for one or more groups of zeros. -/
def readIpv6 (s : List UInt8) : Option (List ℕ × List UInt8) :=
  let (head, hasIpv4, rest) := readGroups 8 true s
  if head.length = 8 then some (head, rest)
  else if hasIpv4 then none
  else
    match rest with
    | c :: c' :: rest =>
      if c = 0x3A ∧ c' = 0x3A then
        let (tail, _, rest) := readGroups (8 - (head.length + 1)) true rest
        some (head ++ List.replicate (8 - head.length - tail.length) 0 ++ tail, rest)
      else none
    | _ => none

/-- The octets of an address, which are four or sixteen. -/
def parse (s : List UInt8) : Option (List UInt8) :=
  match readIpv4 s with
  | some (octets, rest) => if rest.isEmpty then some (octets.map UInt8.ofNat) else none
  | none =>
    match readIpv6 s with
    | some (groups, rest) =>
      if rest.isEmpty then
        some (groups.flatMap fun group => [UInt8.ofNat (group / 256), UInt8.ofNat (group % 256)])
      else none
    | none => none

/-- `1::2:3.4.5.6` -/
example : parse [0x31, 0x3A, 0x3A, 0x32, 0x3A, 0x33, 0x2E, 0x34, 0x2E, 0x35, 0x2E, 0x36] =
    some [0, 1, 0, 0, 0, 0, 0, 0, 0, 0, 0, 2, 3, 4, 5, 6] := by decide +kernel

end Address
