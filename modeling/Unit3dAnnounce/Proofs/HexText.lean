import Unit3dAnnounce.Model.Types

/-!
# Hex text

The decoder and the encoder are two tables. They are compared digit by digit, then byte by byte: a
text decodes to some bytes exactly when these bytes are encoded as the text in upper case.
-/

namespace Unit3dAnnounce

/-- `u8::to_ascii_uppercase`. -/
def upperByte (b : UInt8) : UInt8 := if 0x61 ≤ b ∧ b ≤ 0x7A then b - 0x20 else b

/-- `str::to_ascii_uppercase`. -/
def Text.toAsciiUppercase (s : Text) : Text := s.map upperByte

lemma length_toAsciiUppercase (s : Text) : s.toAsciiUppercase.length = s.length := by
  simp [Text.toAsciiUppercase]

/-- A digit is read exactly when it is written, up to case. -/
lemma hexDigit_eq_some {c digit : UInt8} :
    hexDigit c = some digit ↔ hexEncodeDigit digit = some (upperByte c) := by
  unfold hexDigit hexEncodeDigit upperByte
  grind [UInt8.toNat_inj, UInt8.toNat_add, UInt8.toNat_sub, UInt8.le_iff_toNat_le]

/-- A digit reads as four bits. -/
lemma toNat_hexDigit_lt {c digit : UInt8} (h : hexDigit c = some digit) : digit.toNat < 16 := by
  unfold hexDigit at h
  grind [UInt8.toNat_add, UInt8.toNat_sub, UInt8.le_iff_toNat_le]

lemma isSome_hexDigit {c : UInt8} :
    (hexDigit c).isSome ↔
      48 ≤ c.toNat ∧ c.toNat ≤ 57 ∨ 97 ≤ c.toNat ∧ c.toNat ≤ 102 ∨ 65 ≤ c.toNat ∧ c.toNat ≤ 70 := by
  unfold hexDigit
  grind [UInt8.le_iff_toNat_le]

lemma toNat_lt_of_hexDigit {c : UInt8} (h : (hexDigit c).isSome) : c.toNat < 128 := by
  have hrange := isSome_hexDigit.mp h
  omega

/-- Four bits have a digit, which is upper case. -/
lemma hexEncodeDigit_eq_some {digit : UInt8} (h : digit.toNat < 16) :
    ∃ c, hexEncodeDigit digit = some c ∧ upperByte c = c := by
  unfold hexEncodeDigit upperByte
  split_ifs
  all_goals grind [UInt8.toNat_add, UInt8.toNat_sub, UInt8.le_iff_toNat_le]

lemma toNat_highHalf (byte : UInt8) : (byte >>> 4).toNat = byte.toNat / 16 := by
  rw [UInt8.toNat_shiftRight]
  exact Nat.shiftRight_eq_div_pow _ _

lemma toNat_lowHalf (byte : UInt8) : (byte &&& 0x0F).toNat = byte.toNat % 16 := by
  rw [UInt8.toNat_and]
  exact Nat.and_two_pow_sub_one_eq_mod _ 4

lemma toNat_halves {hi lo : UInt8} (hhi : hi.toNat < 16) (hlo : lo.toNat < 16) :
    ((hi <<< 4) + lo).toNat = 16 * hi.toNat + lo.toNat := by
  rw [UInt8.toNat_add, UInt8.toNat_shiftLeft]
  simp only [UInt8.reduceToNat, Nat.reduceMod, Nat.shiftLeft_eq]
  omega

lemma halves_eq_iff {hi lo byte : UInt8} (hhi : hi.toNat < 16) (hlo : lo.toNat < 16) :
    (hi <<< 4) + lo = byte ↔ byte >>> 4 = hi ∧ byte &&& 0x0F = lo := by
  rw [← UInt8.toNat_inj, ← UInt8.toNat_inj, ← UInt8.toNat_inj, toNat_halves hhi hlo,
    toNat_highHalf, toNat_lowHalf]
  omega

/-- Every byte has two digits, which are upper case. -/
lemma hexEncode_eq_some (byte : UInt8) :
    ∃ hi lo, hexEncode byte = some [hi, lo] ∧ upperByte hi = hi ∧ upperByte lo = lo := by
  have hhigh : (byte >>> 4).toNat < 16 := by
    have hbyte := byte.toNat_lt
    rw [toNat_highHalf]
    omega
  have hlow : (byte &&& 0x0F).toNat < 16 := by
    rw [toNat_lowHalf]
    omega
  obtain ⟨hi, hhi, hihi⟩ := hexEncodeDigit_eq_some hhigh
  obtain ⟨lo, hlo, hilo⟩ := hexEncodeDigit_eq_some hlow
  refine ⟨hi, lo, ?_, hihi, hilo⟩
  rw [hexEncode, hhi, hlo]
  rfl

/-- Two digits decode to the byte that is encoded as them, up to case. -/
lemma hexDecode_eq_some_iff {hi lo byte : UInt8} :
    hexDecode hi lo = some byte ↔ hexEncode byte = some [upperByte hi, upperByte lo] := by
  simp only [hexDecode, hexEncode, Option.bind_eq_bind, Option.bind_eq_some_iff, Option.pure_def,
    Option.some_inj, List.cons.injEq, and_true]
  constructor
  · rintro ⟨high, hhigh, low, hlow, hbyte⟩
    obtain ⟨rfl, rfl⟩ :=
      (halves_eq_iff (toNat_hexDigit_lt hhigh) (toNat_hexDigit_lt hlow)).mp hbyte
    exact ⟨_, hexDigit_eq_some.mp hhigh, _, hexDigit_eq_some.mp hlow, rfl, rfl⟩
  · rintro ⟨_, hhigh, _, hlow, rfl, rfl⟩
    have hhi := hexDigit_eq_some.mpr hhigh
    have hlo := hexDigit_eq_some.mpr hlow
    exact ⟨_, hhi, _, hlo,
      (halves_eq_iff (toNat_hexDigit_lt hhi) (toNat_hexDigit_lt hlo)).mpr ⟨rfl, rfl⟩⟩

/-- What the encoder writes, the decoder reads. -/
lemma hexDecode_of_hexEncode {hi lo byte : UInt8} (h : hexEncode byte = some [hi, lo]) :
    hexDecode hi lo = some byte := by
  obtain ⟨hi', lo', heq, hhi, hlo⟩ := hexEncode_eq_some byte
  rw [h, Option.some_inj, List.cons.injEq, List.cons.injEq] at heq
  obtain ⟨rfl, rfl, -⟩ := heq
  rw [hexDecode_eq_some_iff, hhi, hlo, h]

lemma hexEncodeAll_cons_eq_some {byte : UInt8} {bytes : List UInt8} {text : Text} :
    hexEncodeAll (byte :: bytes) = some text ↔
      ∃ hi lo rest, hexEncode byte = some [hi, lo] ∧ hexEncodeAll bytes = some rest ∧
        text = hi :: lo :: rest := by
  obtain ⟨hi, lo, heq, -, -⟩ := hexEncode_eq_some byte
  simp only [hexEncodeAll, heq, Option.bind_eq_bind, Option.bind_some, Option.bind_eq_some_iff,
    Option.pure_def, Option.some_inj, List.cons_append, List.nil_append, List.cons.injEq, and_true]
  constructor
  · rintro ⟨rest, hrest, rfl⟩
    exact ⟨hi, lo, rest, ⟨rfl, rfl⟩, hrest, rfl⟩
  · rintro ⟨_, _, rest, ⟨rfl, rfl⟩, hrest, rfl⟩
    exact ⟨rest, hrest, rfl⟩

/-- Some bytes always have a text, which is in upper case and two digits a byte. -/
lemma hexEncodeAll_eq_some (bytes : List UInt8) :
    ∃ text, hexEncodeAll bytes = some text ∧ text.toAsciiUppercase = text ∧
      text.length = 2 * bytes.length := by
  induction bytes with
  | nil => exact ⟨[], rfl, rfl, rfl⟩
  | cons byte bytes ih =>
    obtain ⟨rest, hrest, hupper, hlength⟩ := ih
    obtain ⟨hi, lo, hbyte, hhi, hlo⟩ := hexEncode_eq_some byte
    refine ⟨hi :: lo :: rest, hexEncodeAll_cons_eq_some.mpr ⟨hi, lo, rest, hbyte, hrest, rfl⟩, ?_, ?_⟩
    · unfold Text.toAsciiUppercase at hupper ⊢
      rw [List.map_cons, List.map_cons, hhi, hlo, hupper]
    · simp only [List.length_cons, hlength]
      omega

lemma hexDecodeAll_eq_some {text : Text} {bytes : List UInt8} :
    hexDecodeAll text = some bytes ↔ hexEncodeAll bytes = some text.toAsciiUppercase := by
  induction text using hexDecodeAll.induct generalizing bytes with
  | case1 =>
    cases bytes with
    | nil => simp [hexDecodeAll, hexEncodeAll, Text.toAsciiUppercase]
    | cons byte bytes =>
      simp [hexDecodeAll, hexEncodeAll_cons_eq_some, Text.toAsciiUppercase]
  | case2 c =>
    cases bytes with
    | nil => simp [hexDecodeAll, hexEncodeAll, Text.toAsciiUppercase]
    | cons byte bytes =>
      simp [hexDecodeAll, hexEncodeAll_cons_eq_some, Text.toAsciiUppercase]
  | case3 hi lo rest ih =>
    have hupper : Text.toAsciiUppercase (hi :: lo :: rest) =
        upperByte hi :: upperByte lo :: Text.toAsciiUppercase rest := rfl
    cases bytes with
    | nil =>
      simp only [hexDecodeAll, hexEncodeAll, Option.bind_eq_bind, Option.bind_eq_some_iff,
        Option.pure_def, Option.some_inj, reduceCtorEq, hupper, and_false, exists_false]
    | cons byte bytes =>
      simp only [hexDecodeAll, Option.bind_eq_bind, Option.bind_eq_some_iff, Option.pure_def,
        Option.some_inj, List.cons.injEq, hexEncodeAll_cons_eq_some, hexDecode_eq_some_iff, ih, hupper]
      constructor
      · rintro ⟨_, hbyte, _, hbytes, rfl, rfl⟩
        exact ⟨_, _, _, hbyte, hbytes, rfl, rfl, rfl⟩
      · rintro ⟨_, _, _, hbyte, hbytes, rfl, rfl, rfl⟩
        exact ⟨_, hbyte, _, hbytes, rfl, rfl⟩

/-- A text decodes if it is made of pairs of digits. -/
lemma isSome_hexDecodeAll (text : Text) :
    (hexDecodeAll text).isSome ↔ text.length % 2 = 0 ∧ ∀ c ∈ text, (hexDigit c).isSome := by
  induction text using hexDecodeAll.induct with
  | case1 => simp [hexDecodeAll]
  | case2 c => simp [hexDecodeAll]
  | case3 hi lo rest ih =>
    have heven : (hi :: lo :: rest).length % 2 = rest.length % 2 := by
      simp only [List.length_cons]
      omega
    rw [heven, List.forall_mem_cons, List.forall_mem_cons]
    unfold hexDecodeAll hexDecode
    cases hhi : hexDigit hi with
    | none => simp
    | some high =>
      cases hlo : hexDigit lo with
      | none => simp
      | some low =>
        simp only [Option.isSome_some, true_and, ← ih]
        cases hexDecodeAll rest with
        | none => rfl
        | some bytes => rfl

/-- Two digits make a byte. -/
lemma length_of_hexDecodeAll {text : Text} {bytes : List UInt8} (h : hexDecodeAll text = some bytes) :
    text.length = 2 * bytes.length := by
  obtain ⟨written, hwritten, -, hlength⟩ := hexEncodeAll_eq_some bytes
  have hupper := hexDecodeAll_eq_some.mp h
  rw [hwritten, Option.some_inj] at hupper
  rw [← length_toAsciiUppercase, ← hupper, hlength]

lemma utf8EncodeChar_of_lt {c : Char} (h : c.toNat < 128) :
    String.utf8EncodeChar c = [UInt8.ofNat c.toNat] := by
  have hle : c.val.toNat ≤ 0x7f := Nat.le_of_lt_succ h
  rw [String.utf8EncodeChar, if_pos hle]
  rfl

/-- A character that is not ASCII has a byte that is not ASCII. -/
lemma exists_mem_utf8EncodeChar {c : Char} (h : 128 ≤ c.toNat) :
    ∃ b ∈ String.utf8EncodeChar c, 128 ≤ b.toNat := by
  have hgt : ¬ c.val.toNat ≤ 0x7f := Nat.not_le.mpr h
  unfold String.utf8EncodeChar
  simp only [if_neg hgt]
  split_ifs
  all_goals
    refine ⟨_, List.mem_cons_self, ?_⟩
    rw [UInt8.toNat_ofNat']
    omega

lemma utf8_eq_ascii {s : String} (h : ∀ c ∈ s.toList, c.toNat < 128) : utf8 s = ascii s := by
  unfold utf8 ascii
  rw [List.map_eq_flatMap]
  apply List.flatMap_congr
  intro c hc
  exact utf8EncodeChar_of_lt (h c hc)

lemma forall_mem_utf8 {s : String} :
    (∀ b ∈ utf8 s, b.toNat < 128) ↔ ∀ c ∈ s.toList, c.toNat < 128 := by
  constructor
  · intro h c hc
    by_contra hle
    obtain ⟨b, hb, hbyte⟩ := exists_mem_utf8EncodeChar (not_lt.mp hle)
    have hlt := h b (List.mem_flatMap.mpr ⟨c, hc, hb⟩)
    omega
  · intro h b hb
    rw [utf8_eq_ascii h] at hb
    obtain ⟨c, hc, rfl⟩ := List.mem_map.mp hb
    have hlt := h c hc
    rw [UInt8.toNat_ofNat']
    omega

lemma exists_utf8_eq {text : Text} (h : ∀ b ∈ text, b.toNat < 128) : ∃ s, utf8 s = text := by
  have hchar : ∀ b ∈ text, (Char.ofNat b.toNat).toNat = b.toNat := by
    intro b hb
    have hvalid : b.toNat.isValidChar := .inl ((h b hb).trans (by decide))
    rw [Char.ofNat, dif_pos hvalid]
    rfl
  refine ⟨String.ofList (text.map (fun b => Char.ofNat b.toNat)), ?_⟩
  rw [utf8_eq_ascii]
  · unfold ascii
    rw [String.toList_ofList, List.map_map]
    conv_rhs => rw [← List.map_id text]
    apply List.map_congr_left
    intro b hb
    simp [hchar b hb]
  · rw [String.toList_ofList]
    intro c hc
    obtain ⟨b, hb, rfl⟩ := List.mem_map.mp hc
    rw [hchar b hb]
    exact h b hb

lemma utf8_injective {s s' : String} (h : utf8 s = utf8 s') : s = s' := by
  apply String.toByteArray_inj.mp
  rw [← String.utf8Encode_toList, ← String.utf8Encode_toList]
  exact congrArg List.toByteArray h

namespace InfoHash

/-- An info hash is read from the texts that are its own text in upper case. -/
lemma fromStr_eq_some {s : Text} {infoHash : InfoHash} :
    fromStr s = some infoHash ↔ infoHash.display = some s.toAsciiUppercase := by
  unfold fromStr display
  rw [← hexDecodeAll_eq_some]
  constructor
  · intro h
    split_ifs at h with hs
    simp only [Option.bind_eq_bind, Option.bind_eq_some_iff] at h
    obtain ⟨bytes, hbytes, h⟩ := h
    split_ifs at h with hb
    rw [← Option.some_inj.mp h]
    exact hbytes
  · intro h
    have hs := length_of_hexDecodeAll h
    rw [List.Vector.toList_length] at hs
    rw [if_neg (not_not.mpr hs), h]
    simp only [Option.bind_eq_bind, Option.bind_some, List.Vector.toList_length, dite_true]
    rfl

lemma isSome_fromStr (s : Text) :
    (fromStr s).isSome ↔ s.length = 40 ∧ ∀ c ∈ s, (hexDigit c).isSome := by
  by_cases hs : s.length = 40
  · have hsome : (fromStr s).isSome ↔ (hexDecodeAll s).isSome := by
      constructor
      · intro h
        obtain ⟨infoHash, hread⟩ := Option.isSome_iff_exists.mp h
        rw [fromStr_eq_some, display, ← hexDecodeAll_eq_some] at hread
        rw [hread, Option.isSome_some]
      · intro h
        obtain ⟨bytes, hbytes⟩ := Option.isSome_iff_exists.mp h
        have hlength := length_of_hexDecodeAll hbytes
        have hread : fromStr s = some ⟨⟨bytes, by omega⟩⟩ := by
          rw [fromStr_eq_some, display, ← hexDecodeAll_eq_some, hbytes, List.Vector.toList_mk]
        rw [hread, Option.isSome_some]
    rw [hsome, isSome_hexDecodeAll, hs]
    simp
  · simp [fromStr, hs]

/-- The text of an info hash is a string, and the info hash is read from it. -/
lemma display_eq_some (infoHash : InfoHash) :
    ∃ s : String, infoHash.display = some (utf8 s) ∧ fromStr (utf8 s) = some infoHash := by
  obtain ⟨text, htext, hupper, -⟩ := hexEncodeAll_eq_some infoHash.bytes.toList
  have hread : fromStr text = some infoHash := by
    rw [fromStr_eq_some, hupper]
    exact htext
  have hsome : (fromStr text).isSome := by rw [hread, Option.isSome_some]
  obtain ⟨s, rfl⟩ : ∃ s, utf8 s = text := by
    apply exists_utf8_eq
    intro b hb
    exact toNat_lt_of_hexDigit ((isSome_fromStr text).mp hsome |>.2 b hb)
  exact ⟨s, htext, hread⟩

end InfoHash

/-- The hex digits of either case. -/
def hexDigits : List Char := "0123456789abcdefABCDEF".toList

lemma mem_hexDigits {c : Char} :
    c ∈ hexDigits ↔ c.toNat < 128 ∧ (hexDigit (UInt8.ofNat c.toNat)).isSome := by
  have hdigits : hexDigits = ['0', '1', '2', '3', '4', '5', '6', '7', '8', '9', 'a', 'b', 'c', 'd',
      'e', 'f', 'A', 'B', 'C', 'D', 'E', 'F'] := rfl
  rw [hdigits, isSome_hexDigit, UInt8.toNat_ofNat']
  simp only [List.mem_cons, List.not_mem_nil, or_false, ← Char.toNat_inj, Char.reduceToNat]
  omega

/-- In bytes as in characters, a text is made of hex digits or it is not. -/
lemma forall_hexDigit_utf8 {s : String} :
    ((utf8 s).length = 40 ∧ ∀ b ∈ utf8 s, (hexDigit b).isSome) ↔
      s.length = 40 ∧ ∀ c ∈ s.toList, c ∈ hexDigits := by
  have hascii : (∀ c ∈ s.toList, c.toNat < 128) →
      ((utf8 s).length = 40 ∧ (∀ b ∈ utf8 s, (hexDigit b).isSome) ↔
        s.length = 40 ∧ ∀ c ∈ s.toList, c ∈ hexDigits) := by
    intro h
    rw [utf8_eq_ascii h, ascii, List.length_map, String.length_toList, List.forall_mem_map]
    apply and_congr_right
    intro _
    apply forall₂_congr
    intro c hc
    rw [mem_hexDigits]
    exact (and_iff_right (h c hc)).symm
  constructor
  · intro h
    apply (hascii _).mp h
    apply forall_mem_utf8.mp
    intro b hb
    exact toNat_lt_of_hexDigit (h.2 b hb)
  · intro h
    apply (hascii _).mpr h
    intro c hc
    exact (mem_hexDigits.mp (h.2 c hc)).1

/-- `char::to_ascii_uppercase`, in numbers. -/
lemma toNat_toUpper (c : Char) :
    c.toUpper.toNat = if 97 ≤ c.toNat ∧ c.toNat ≤ 122 then c.toNat - 32 else c.toNat := by
  have hlower : ('a'.val ≤ c.val ∧ c.val ≤ 'z'.val) ↔ 97 ≤ c.toNat ∧ c.toNat ≤ 122 := Iff.rfl
  unfold Char.toUpper
  split_ifs with h h' h'
  · change (c.val + ('A'.val - 'a'.val)).toNat = c.toNat - 32
    rw [UInt32.toNat_add, Char.toNat_val, UInt32.toNat_sub]
    simp only [UInt32.reduceToNat, Char.reduceVal]
    omega
  · exact absurd (hlower.mp h) h'
  · exact absurd (hlower.mpr h') h
  · rfl

/-- Only ASCII characters become ASCII characters. -/
lemma toNat_toUpper_lt {c : Char} : c.toUpper.toNat < 128 ↔ c.toNat < 128 := by
  rw [toNat_toUpper]
  split_ifs <;> omega

lemma ofNat_toUpper {c : Char} (h : c.toNat < 128) :
    UInt8.ofNat c.toUpper.toNat = upperByte (UInt8.ofNat c.toNat) := by
  have hbyte : (UInt8.ofNat c.toNat).toNat = c.toNat := by
    rw [UInt8.toNat_ofNat']
    omega
  rw [toNat_toUpper, upperByte, ← UInt8.toNat_inj, UInt8.toNat_ofNat']
  simp only [UInt8.le_iff_toNat_le, hbyte, UInt8.reduceToNat]
  split_ifs with hlower
  · rw [UInt8.toNat_sub, hbyte]
    simp only [UInt8.reduceToNat]
    omega
  · omega

/-- Upper case is the same in bytes and in characters. -/
lemma utf8_toUpper {s : String} (h : ∀ c ∈ s.toList, c.toNat < 128) :
    utf8 s.toUpper = (utf8 s).toAsciiUppercase := by
  have hlist : s.toUpper.toList = s.toList.map Char.toUpper := String.toList_map
  rw [utf8_eq_ascii h, utf8_eq_ascii]
  · unfold ascii Text.toAsciiUppercase
    rw [hlist, List.map_map, List.map_map]
    apply List.map_congr_left
    intro c hc
    exact ofNat_toUpper (h c hc)
  · rw [hlist, List.forall_mem_map]
    intro c hc
    exact toNat_toUpper_lt.mpr (h c hc)

namespace InfoHash

/-- The same, for strings. -/
lemma fromStr_utf8_eq_some {s : String} {infoHash : InfoHash} :
    fromStr (utf8 s) = some infoHash ↔ infoHash.display = some (utf8 s.toUpper) := by
  have hascii : (∀ c ∈ s.toList, c.toNat < 128) →
      (fromStr (utf8 s) = some infoHash ↔ infoHash.display = some (utf8 s.toUpper)) := by
    intro h
    rw [fromStr_eq_some, utf8_toUpper h]
  constructor
  · intro h
    have hsome : (fromStr (utf8 s)).isSome := by rw [h, Option.isSome_some]
    obtain ⟨-, hdigits⟩ := forall_hexDigit_utf8.mp ((isSome_fromStr _).mp hsome)
    exact (hascii (fun c hc => (mem_hexDigits.mp (hdigits c hc)).1)).mp h
  · intro h
    obtain ⟨text, htext, hread⟩ := infoHash.display_eq_some
    rw [h, Option.some_inj] at htext
    have hsome : (fromStr (utf8 text)).isSome := by rw [hread, Option.isSome_some]
    obtain ⟨-, hdigits⟩ := forall_hexDigit_utf8.mp ((isSome_fromStr _).mp hsome)
    have hlist : s.toUpper.toList = s.toList.map Char.toUpper := String.toList_map
    apply (hascii _).mpr h
    intro c hc
    apply toNat_toUpper_lt.mp
    apply (mem_hexDigits.mp (hdigits _ _)).1
    rw [← utf8_injective htext, hlist]
    exact List.mem_map_of_mem hc

/-- The text of an info hash reads as that info hash. The texts that can be read are the forty hex
digits, and an info hash is named by its own text, in whatever case. -/
theorem text_round_trip :
    (∀ infoHash : InfoHash, ∃ s : String,
      infoHash.display = some (utf8 s) ∧ fromStr (utf8 s) = some infoHash) ∧
    ∀ s : String,
      ((∃ infoHash, fromStr (utf8 s) = some infoHash) ↔
        s.length = 40 ∧ ∀ c ∈ s.toList, c ∈ hexDigits) ∧
      ∀ infoHash, fromStr (utf8 s) = some infoHash →
        infoHash.display = some (utf8 s.toUpper) ∧
        ∀ s' : String, fromStr (utf8 s') = some infoHash ↔ s'.toUpper = s.toUpper := by
  refine ⟨display_eq_some, fun s => ⟨?_, ?_⟩⟩
  · rw [← Option.isSome_iff_exists, isSome_fromStr]
    exact forall_hexDigit_utf8
  · intro infoHash h
    have hdisplay := fromStr_utf8_eq_some.mp h
    refine ⟨hdisplay, fun s' => ?_⟩
    rw [fromStr_utf8_eq_some, hdisplay, Option.some_inj]
    constructor
    · intro heq
      exact (utf8_injective heq).symm
    · intro heq
      rw [heq]

/-- A text in both cases. -/
theorem text_round_trip_mixed_case :
    InfoHash.display ⟨List.Vector.replicate 20 0xAB⟩ =
      some (utf8 "ABABABABABABABABABABABABABABABABABABABAB") := by
  have hread : fromStr (utf8 "aBaBaBaBaBaBaBaBaBaBaBaBaBaBaBaBaBaBaBaB") =
      some ⟨List.Vector.replicate 20 0xAB⟩ := by
    decide
  have hupper : String.toUpper "aBaBaBaBaBaBaBaBaBaBaBaBaBaBaBaBaBaBaBaB" =
      "ABABABABABABABABABABABABABABABABABABABAB" := by
    apply String.toList_inj.mp
    rw [String.toUpper, String.toList_map]
    decide
  have h := ((text_round_trip.2 _).2 _ hread).1
  rwa [hupper] at h

end InfoHash

end Unit3dAnnounce
