import Mathlib.Data.List.TakeWhile
import Mathlib.Tactic.IntervalCases

/-!
# Bencode

Bencoded values, their canonical encoding and a decoder that accepts only the canonical
spelling of each number. The decoder reads dictionaries in the order in which they are
written and leaves it to the reader to compare their keys.
-/

namespace Bencode

inductive Value where
  | int (n : ℤ)
  | bytes (s : List UInt8)
  | list (items : List Value)
  | dict (entries : List (List UInt8 × Value))

def decimal (n : ℕ) : List UInt8 := (Nat.toDigits 10 n).map fun c => UInt8.ofNat c.toNat

def encodeBytes (s : List UInt8) : List UInt8 := decimal s.length ++ 0x3A :: s

def encodeInt (n : ℤ) : List UInt8 :=
  0x69 :: ((if n < 0 then 0x2D :: decimal n.natAbs else decimal n.natAbs) ++ [0x65])

mutual

def Value.encode : Value → List UInt8
  | .int n => encodeInt n
  | .bytes s => encodeBytes s
  | .list items => 0x6C :: encodeItems items
  | .dict entries => 0x64 :: encodeEntries entries

/-- The items of a list and the byte that ends it. -/
def encodeItems : List Value → List UInt8
  | [] => [0x65]
  | item :: items => item.encode ++ encodeItems items

/-- The entries of a dictionary and the byte that ends it. -/
def encodeEntries : List (List UInt8 × Value) → List UInt8
  | [] => [0x65]
  | (key, value) :: entries => encodeBytes key ++ (value.encode ++ encodeEntries entries)

end

def isDigit (b : UInt8) : Bool := 0x30 ≤ b && b ≤ 0x39

/-- A number without leading zeros, and what follows it. -/
def readNumber (s : List UInt8) : Option (ℕ × List UInt8) :=
  let digits := s.takeWhile isDigit
  if digits = [] || (digits.head? = some 0x30 && digits.length ≠ 1) then none
  else some (digits.foldl (fun n b => 10 * n + (b.toNat - 48)) 0, s.dropWhile isDigit)

/-- What follows a byte that has to come next. -/
def expect (b : UInt8) : List UInt8 → Option (List UInt8)
  | [] => none
  | x :: s => if x = b then some s else none

def readBytes (s : List UInt8) : Option (List UInt8 × List UInt8) := do
  let (length, s) ← readNumber s
  let s ← expect 0x3A s
  if length ≤ s.length then some (s.take length, s.drop length) else none

/-- The rest of an integer. Zero has no sign. -/
def readInt (s : List UInt8) : Option (ℤ × List UInt8) :=
  if s.head? = some 0x2D then do
    let (n, s) ← readNumber s.tail
    let s ← expect 0x65 s
    if n = 0 then none else some (-n, s)
  else do
    let (n, s) ← readNumber s
    let s ← expect 0x65 s
    some ((n : ℤ), s)

mutual

/-- The value at the start of the input, and what follows it. -/
def read : ℕ → List UInt8 → Option (Value × List UInt8)
  | 0, _ => none
  | fuel + 1, s =>
    if s.head? = some 0x69 then (readInt s.tail).map fun (n, s) => (.int n, s)
    else if s.head? = some 0x6C then (readItems fuel s.tail).map fun (items, s) => (.list items, s)
    else if s.head? = some 0x64 then
      (readEntries fuel s.tail).map fun (entries, s) => (.dict entries, s)
    else (readBytes s).map fun (text, s) => (.bytes text, s)

def readItems : ℕ → List UInt8 → Option (List Value × List UInt8)
  | 0, _ => none
  | fuel + 1, s =>
    if s.head? = some 0x65 then some ([], s.tail)
    else do
      let (item, s) ← read fuel s
      let (items, s) ← readItems fuel s
      some (item :: items, s)

def readEntries : ℕ → List UInt8 → Option (List (List UInt8 × Value) × List UInt8)
  | 0, _ => none
  | fuel + 1, s =>
    if s.head? = some 0x65 then some ([], s.tail)
    else do
      let (key, s) ← readBytes s
      let (value, s) ← read fuel s
      let (entries, s) ← readEntries fuel s
      some ((key, value) :: entries, s)

end

/-- The value that a whole input encodes. Every nested value takes a byte of the input, so
its length is fuel enough. -/
def decode (s : List UInt8) : Option Value :=
  match read (s.length + 1) s with
  | some (value, []) => some value
  | _ => none

/-- A dictionary is written entry by entry. -/
lemma encodeEntries_eq (entries : List (List UInt8 × Value)) :
    encodeEntries entries =
      entries.flatMap (fun entry => encodeBytes entry.1 ++ entry.2.encode) ++ [0x65] := by
  induction entries with
  | nil => rfl
  | cons entry entries ih =>
    rw [encodeEntries, ih, List.flatMap_cons, List.append_assoc, List.append_assoc]

lemma isDigit_digitChar {d : ℕ} (h : d < 10) : isDigit (UInt8.ofNat d.digitChar.toNat) := by
  interval_cases d <;> decide

lemma toNat_digitChar {d : ℕ} (h : d < 10) : (UInt8.ofNat d.digitChar.toNat).toNat - 48 = d := by
  interval_cases d <;> decide

lemma decimal_of_lt {n : ℕ} (h : n < 10) : decimal n = [UInt8.ofNat n.digitChar.toNat] := by
  rw [decimal, Nat.toDigits_of_lt_base h]
  rfl

lemma decimal_append {m k : ℕ} (hm : 0 < m) (hk : k < 10) :
    decimal (10 * m + k) = decimal m ++ [UInt8.ofNat k.digitChar.toNat] := by
  rw [decimal, ← Nat.toDigits_append_toDigits (by decide) hm hk, List.map_append,
    Nat.toDigits_of_lt_base hk]
  rfl

lemma isDigit_of_mem_decimal {n : ℕ} : ∀ b ∈ decimal n, isDigit b := by
  induction n using Nat.base_induction 10 (by decide) with
  | single m hm =>
    rw [decimal_of_lt hm]
    simpa using isDigit_digitChar hm
  | digit m k hk hm ih =>
    rw [decimal_append hm hk]
    intro b hb
    rcases List.mem_append.mp hb with hb | hb
    · exact ih b hb
    · rw [List.mem_singleton.mp hb]
      exact isDigit_digitChar hk

lemma foldl_decimal (n : ℕ) : (decimal n).foldl (fun n b => 10 * n + (b.toNat - 48)) 0 = n := by
  induction n using Nat.base_induction 10 (by decide) with
  | single m hm =>
    rw [decimal_of_lt hm, List.foldl_cons, List.foldl_nil, toNat_digitChar hm, Nat.mul_zero,
      Nat.zero_add]
  | digit m k hk hm ih =>
    rw [decimal_append hm hk, List.foldl_append, ih, List.foldl_cons, List.foldl_nil,
      toNat_digitChar hk]

lemma decimal_ne_nil (n : ℕ) : decimal n ≠ [] := by
  simp [decimal, Nat.toDigits_ne_nil]

/-- Only zero begins with a zero. -/
lemma head?_decimal {n : ℕ} (h : 0 < n) : (decimal n).head? ≠ some 0x30 := by
  induction n using Nat.base_induction 10 (by decide) with
  | single m hm =>
    rw [decimal_of_lt hm]
    interval_cases m <;> decide
  | digit m k hk hm ih =>
    obtain ⟨d, digits, he⟩ := List.exists_cons_of_ne_nil (decimal_ne_nil m)
    rw [he] at ih
    rw [decimal_append hm hk, he]
    exact ih hm

/-- What may come after a number: nothing that would be read as one more digit. -/
lemma readNumber_decimal (n : ℕ) {b : UInt8} (hb : ¬ isDigit b) (rest : List UInt8) :
    readNumber (decimal n ++ b :: rest) = some (n, b :: rest) := by
  have htake : (decimal n ++ b :: rest).takeWhile isDigit = decimal n := by
    rw [List.takeWhile_append_of_pos isDigit_of_mem_decimal, List.takeWhile_cons_of_neg hb,
      List.append_nil]
  have hdrop : (decimal n ++ b :: rest).dropWhile isDigit = b :: rest := by
    rw [List.dropWhile_append_of_pos isDigit_of_mem_decimal, List.dropWhile_cons_of_neg hb]
  have hspelling : ¬ ((decimal n).head? = some 0x30 ∧ (decimal n).length ≠ 1) := by
    rintro ⟨hhead, hlength⟩
    rcases Nat.eq_zero_or_pos n with rfl | hn
    · exact hlength rfl
    · exact head?_decimal hn hhead
  rw [readNumber, htake, hdrop, foldl_decimal, if_neg]
  simpa [decimal_ne_nil] using hspelling

lemma readBytes_encodeBytes (s rest : List UInt8) :
    readBytes (encodeBytes s ++ rest) = some (s, rest) := by
  rw [readBytes, encodeBytes, List.append_assoc, List.cons_append,
    readNumber_decimal s.length (by decide)]
  simp [expect]

/-- A number begins with a digit. -/
lemma head?_decimal_append {n : ℕ} {b : UInt8} (hb : ¬ isDigit b) (rest : List UInt8) :
    (decimal n ++ rest).head? ≠ some b := by
  obtain ⟨d, digits, he⟩ := List.exists_cons_of_ne_nil (decimal_ne_nil n)
  have hd : isDigit d := isDigit_of_mem_decimal d (he ▸ List.mem_cons_self)
  rw [he]
  intro h
  exact hb (Option.some.inj h ▸ hd)

lemma readInt_encodeInt (n : ℤ) (rest : List UInt8) :
    readInt ((encodeInt n ++ rest).tail) = some (n, rest) := by
  have hread := readNumber_decimal n.natAbs (b := 0x65) (by decide) rest
  have hhead := head?_decimal_append (n := n.natAbs) (b := 0x2D) (by decide) ([0x65] ++ rest)
  unfold encodeInt
  by_cases hn : n < 0
  · have hne : n.natAbs ≠ 0 := by omega
    have habs : -|n| = n := by rw [abs_of_neg hn, neg_neg]
    rw [if_pos hn, List.cons_append, List.tail_cons, List.append_assoc]
    simp [readInt, hread, expect, hne, habs]
  · have habs : (n.natAbs : ℤ) = n := by omega
    rw [if_neg hn, List.cons_append, List.tail_cons, List.append_assoc, readInt, if_neg hhead]
    simp only [List.cons_append, List.nil_append, hread]
    simp [expect, habs]

lemma encodeBytes_head (s rest : List UInt8) {b : UInt8} (hb : ¬ isDigit b) :
    (encodeBytes s ++ rest).head? ≠ some b := by
  rw [encodeBytes, List.append_assoc]
  exact head?_decimal_append hb _

lemma encodeBytes_length_pos (s : List UInt8) : 0 < (encodeBytes s).length := by
  simp [encodeBytes]

lemma Value.encode_length_pos (v : Value) : 0 < v.encode.length := by
  cases v with
  | bytes s => exact encodeBytes_length_pos s
  | int n => simp [Value.encode, encodeInt]
  | list items => simp [Value.encode]
  | dict entries => simp [Value.encode]

lemma Value.encode_head (v : Value) (rest : List UInt8) : (v.encode ++ rest).head? ≠ some 0x65 := by
  cases v with
  | bytes s => exact encodeBytes_head s rest (by decide)
  | int n => simp [Value.encode, encodeInt]
  | list items => simp [Value.encode]
  | dict entries => simp [Value.encode]

lemma encodeItems_length_pos (items : List Value) : 0 < (encodeItems items).length := by
  cases items with
  | nil => exact Nat.one_pos
  | cons item items =>
    have := item.encode_length_pos
    rw [encodeItems, List.length_append]
    omega

lemma encodeEntries_length_pos (entries : List (List UInt8 × Value)) :
    0 < (encodeEntries entries).length := by
  cases entries with
  | nil => exact Nat.one_pos
  | cons entry entries =>
    have := encodeBytes_length_pos entry.1
    rw [encodeEntries, List.length_append]
    omega

mutual

/-- Reading what was encoded gives the value back and leaves what follows it. -/
theorem read_encode (v : Value) (rest : List UInt8) (fuel : ℕ) (h : v.encode.length ≤ fuel) :
    read fuel (v.encode ++ rest) = some (v, rest) := by
  obtain ⟨fuel, rfl⟩ : ∃ f, fuel = f + 1 :=
    Nat.exists_eq_succ_of_ne_zero (by have := v.encode_length_pos; omega)
  match v with
  | .int n =>
    have hhead : (encodeInt n ++ rest).head? = some 0x69 := rfl
    rw [Value.encode, read, if_pos hhead, readInt_encodeInt]
    rfl
  | .bytes s =>
    have hint := encodeBytes_head s rest (b := 0x69) (by decide)
    have hlist := encodeBytes_head s rest (b := 0x6C) (by decide)
    have hdict := encodeBytes_head s rest (b := 0x64) (by decide)
    rw [Value.encode, read, if_neg hint, if_neg hlist, if_neg hdict, readBytes_encodeBytes]
    rfl
  | .list items =>
    rw [Value.encode, List.length_cons] at h
    simp [Value.encode, read, readItems_encodeItems items rest fuel (by omega)]
  | .dict entries =>
    rw [Value.encode, List.length_cons] at h
    simp [Value.encode, read, readEntries_encodeEntries entries rest fuel (by omega)]

theorem readItems_encodeItems (items : List Value) (rest : List UInt8) (fuel : ℕ)
    (h : (encodeItems items).length ≤ fuel) :
    readItems fuel (encodeItems items ++ rest) = some (items, rest) := by
  obtain ⟨fuel, rfl⟩ : ∃ f, fuel = f + 1 :=
    Nat.exists_eq_succ_of_ne_zero (by have := encodeItems_length_pos items; omega)
  match items with
  | [] => rfl
  | item :: items =>
    have hitem := item.encode_length_pos
    have hitems := encodeItems_length_pos items
    rw [encodeItems, List.length_append] at h
    rw [readItems, encodeItems, List.append_assoc, if_neg (item.encode_head _),
      read_encode item _ fuel (by omega)]
    simp [readItems_encodeItems items rest fuel (by omega)]

theorem readEntries_encodeEntries (entries : List (List UInt8 × Value)) (rest : List UInt8)
    (fuel : ℕ) (h : (encodeEntries entries).length ≤ fuel) :
    readEntries fuel (encodeEntries entries ++ rest) = some (entries, rest) := by
  obtain ⟨fuel, rfl⟩ : ∃ f, fuel = f + 1 :=
    Nat.exists_eq_succ_of_ne_zero (by have := encodeEntries_length_pos entries; omega)
  match entries with
  | [] => rfl
  | (key, value) :: entries =>
    have hkey := encodeBytes_length_pos key
    rw [encodeEntries, List.length_append, List.length_append] at h
    rw [readEntries, encodeEntries, List.append_assoc, List.append_assoc,
      if_neg (encodeBytes_head key _ (by decide)), readBytes_encodeBytes]
    simp [read_encode value _ fuel (by omega),
      readEntries_encodeEntries entries rest fuel (by omega)]

end

/-- Decoding the encoding of a value gives the value back. -/
theorem decode_encode (v : Value) : decode v.encode = some v := by
  have hread := read_encode v [] (v.encode.length + 1) (by omega)
  rw [List.append_nil] at hread
  rw [decode, hread]

end Bencode
