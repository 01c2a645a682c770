import Mathlib.Algebra.Order.Round
import Mathlib.Data.Int.Log
import Mathlib.Data.Rat.Floor

/-!
# Binary64 numbers

A rational is rounded to the nearest binary64 number, and of two to the even one. A decimal text
denotes the rounded value that is written there. The two zeros are one value.
-/

inductive Binary64 where
  | nan
  | infinite (negative : Bool)
  | finite (value : ℚ)
deriving DecidableEq

namespace Binary64

/-- The nearest integer, and of two the even one. -/
def roundHalfEven (x : ℚ) : ℤ :=
  if x - ⌊x⌋ < 1 / 2 then ⌊x⌋
  else if 1 / 2 < x - ⌊x⌋ then ⌊x⌋ + 1
  else ⌊x⌋ + ⌊x⌋ % 2

/-- The exponent of the last place of a number. -/
def lastPlace (x : ℚ) : ℤ := max (Int.log 2 |x| - 52) (-1074)

/-- A number rounded to its last place. -/
def nearest (x : ℚ) : ℚ := roundHalfEven (x / 2 ^ lastPlace x) * 2 ^ lastPlace x

def ofRat (x : ℚ) : Binary64 :=
  if 2 ^ 1024 ≤ |nearest x| then .infinite (x < 0) else .finite (nearest x)

def isDigit (c : UInt8) : Bool := 0x30 ≤ c && c ≤ 0x39

def digitsValue (digits : List UInt8) : ℕ :=
  digits.foldl (fun n c => n * 10 + (c - 0x30).toNat) 0

/-- Whether there is a minus sign, and what is behind the sign. -/
def splitSign : List UInt8 → Bool × List UInt8
  | [] => (false, [])
  | c :: rest =>
    if c = 0x2D then (true, rest)
    else if c = 0x2B then (false, rest)
    else (false, c :: rest)

/-- An `e` with a sign and digits, or nothing. -/
def parseExponent : List UInt8 → Option ℤ
  | [] => some 0
  | c :: rest =>
    let (negative, digits) := splitSign rest
    if (c = 0x65 || c = 0x45) && !digits.isEmpty && digits.all isDigit then
      some (if negative then -digitsValue digits else digitsValue digits)
    else none

/-- Digits, of which some may stand behind a point, and an exponent. -/
def parseNumber (s : List UInt8) : Option ℚ :=
  let whole := s.takeWhile isDigit
  let rest := s.dropWhile isDigit
  let hasPoint := rest.head? = some 0x2E
  let fraction := if hasPoint then rest.tail.takeWhile isDigit else []
  let rest := if hasPoint then rest.tail.dropWhile isDigit else rest
  if whole.isEmpty && fraction.isEmpty then none
  else (parseExponent rest).map fun exponent : ℤ =>
    digitsValue (whole ++ fraction) * (10 : ℚ) ^ (exponent - fraction.length)

def toLowercase (s : List UInt8) : List UInt8 :=
  s.map fun c => if 0x41 ≤ c ∧ c ≤ 0x5A then c + 0x20 else c

/-- `f64::from_str`. -/
def parse (s : List UInt8) : Option Binary64 :=
  let (negative, rest) := splitSign s
  -- `inf`, `infinity` and `nan`, in any case
  if toLowercase rest = [0x69, 0x6E, 0x66] ∨
      toLowercase rest = [0x69, 0x6E, 0x66, 0x69, 0x6E, 0x69, 0x74, 0x79] then
    some (.infinite negative)
  else if toLowercase rest = [0x6E, 0x61, 0x6E] then some .nan
  else (parseNumber rest).map fun x => ofRat (if negative then -x else x)

/-- `Duration::from_secs_f64`, in nanoseconds, unless it panics. -/
def toNanoseconds : Binary64 → Option ℕ
  | .finite x => if 0 ≤ x ∧ x < 2 ^ 64 then some (roundHalfEven (x * 10 ^ 9)).toNat else none
  | _ => none

/-- `Duration::as_secs_f64`, which adds the seconds and the nanoseconds of a second. -/
def ofNanoseconds (n : ℕ) : Binary64 :=
  ofRat (nearest (n / 10 ^ 9 : ℕ) + nearest ((n % 10 ^ 9 : ℕ) / 10 ^ 9))

example : parse [0x2D, 0x31] = some (.finite (-1)) := by decide +kernel

end Binary64
