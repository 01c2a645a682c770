import Unit3dAnnounce.Model.Query
import Unit3dAnnounce.Proofs.HexText

/-!
# Reading twenty bytes

A byte is written as itself or as a percent sign with two hex digits. The decoder reads twenty of
these tokens; its check of the length counts the percent signs of the whole input, those behind the
twentieth token as well.
-/

namespace Unit3dAnnounce

/-- The value of a hex digit. -/
def hexValue (c : UInt8) : Option ℕ :=
  (ascii "0123456789abcdef").idxOf? (if 0x41 ≤ c ∧ c ≤ 0x46 then c + 0x20 else c)

/-- The tokens that stand for a byte. -/
inductive Denotes : Text → UInt8 → Prop
  | escaped {hi lo byte : UInt8} {h l : ℕ} (hhi : hexValue hi = some h) (hlo : hexValue lo = some l)
      (hbyte : byte.toNat = 16 * h + l) : Denotes [0x25, hi, lo] byte
  | plain {byte : UInt8} (hbyte : byte ≠ 0x25) : Denotes [byte] byte

lemma hexDigit_map_toNat (c : UInt8) : (hexDigit c).map UInt8.toNat = hexValue c := by
  have hall : ∀ n < 256, (hexDigit (UInt8.ofNat n)).map UInt8.toNat = hexValue (UInt8.ofNat n) := by
    decide +kernel
  have hc := hall c.toNat c.toNat_lt
  rwa [UInt8.ofNat_toNat] at hc

/-- A percent sign is no hex digit. -/
lemma ne_percent_of_hexValue {c : UInt8} {n : ℕ} (h : hexValue c = some n) : c ≠ 0x25 := by
  rintro rfl
  revert h
  decide +revert

lemma hexDecode_eq_some {hi lo byte : UInt8} :
    hexDecode hi lo = some byte ↔
      ∃ h l, hexValue hi = some h ∧ hexValue lo = some l ∧ byte.toNat = 16 * h + l := by
  unfold hexDecode
  rw [← hexDigit_map_toNat, ← hexDigit_map_toNat]
  cases hhi : hexDigit hi with
  | none => simp
  | some high =>
    cases hlo : hexDigit lo with
    | none => simp
    | some low =>
      have hsum : ((high <<< 4) + low).toNat = 16 * high.toNat + low.toNat :=
        toNat_halves (toNat_hexDigit_lt hhi) (toNat_hexDigit_lt hlo)
      simp only [Option.bind_eq_bind, Option.bind_some, Option.pure_def, Option.some_inj,
        Option.map_some]
      constructor
      · rintro rfl
        exact ⟨_, _, rfl, rfl, hsum⟩
      · rintro ⟨_, _, rfl, rfl, hbyte⟩
        exact UInt8.toNat_inj.mp (hsum.trans hbyte.symm)

/-- A token is as long as its percent signs say. -/
lemma Denotes.length {token : Text} {byte : UInt8} (h : Denotes token byte) :
    token.length = 1 + 2 * token.count 0x25 := by
  cases h with
  | escaped hhi hlo => simp [ne_percent_of_hexValue hhi, ne_percent_of_hexValue hlo]
  | plain hbyte => simp [hbyte]

lemma length_flatten_tokens {tokens : List Text} {bytes : List UInt8}
    (h : List.Forall₂ Denotes tokens bytes) :
    tokens.flatten.length = bytes.length + 2 * tokens.flatten.count 0x25 := by
  induction h with
  | nil => rfl
  | cons htoken _ ih =>
    rw [List.flatten_cons, List.length_append, List.count_append, List.length_cons, ih, htoken.length]
    omega

/-- No token is the start of another one. -/
lemma Denotes.unique {token token' rest rest' : Text} {byte byte' : UInt8} (h : Denotes token byte)
    (h' : Denotes token' byte') (heq : token ++ rest = token' ++ rest') :
    token = token' ∧ rest = rest' := by
  cases h with
  | escaped =>
    cases h' with
    | escaped => simpa [and_assoc] using heq
    | plain hbyte =>
      simp only [List.cons_append, List.cons.injEq] at heq
      exact absurd heq.1.symm hbyte
  | plain hbyte =>
    cases h' with
    | escaped =>
      simp only [List.cons_append, List.cons.injEq] at heq
      exact absurd heq.1 hbyte
    | plain => simpa using heq

lemma unique_tokens {tokens tokens' : List Text} {bytes bytes' : List UInt8} {rest rest' : Text}
    (h : List.Forall₂ Denotes tokens bytes) (h' : List.Forall₂ Denotes tokens' bytes')
    (hlength : bytes.length = bytes'.length)
    (heq : tokens.flatten ++ rest = tokens'.flatten ++ rest') : rest = rest' := by
  induction h generalizing tokens' bytes' with
  | nil =>
    cases h' with
    | nil => exact heq
    | cons _ _ => simp at hlength
  | cons htoken _ ih =>
    cases h' with
    | nil => simp at hlength
    | cons htoken' htokens' =>
      simp only [List.flatten_cons, List.append_assoc] at heq
      obtain ⟨-, hrest⟩ := htoken.unique htoken' heq
      exact ih htokens' (by simpa using hlength) hrest

lemma byteAt_append (before after : Text) (n : ℕ) :
    byteAt (before ++ after) (before.length + n) = byteAt after n := by
  simp [byteAt, List.getElem?_append_right]

/-- What is read at a position is a token, and the next position is behind it. -/
lemma urlencodedByte_eq_ok {before input : Text} {byte : UInt8} {pos : ℕ} :
    urlencodedByte (before ++ input) before.length = .ok (byte, pos) ↔
      ∃ token rest, input = token ++ rest ∧ Denotes token byte ∧ pos = (before ++ token).length := by
  have hzero := byteAt_append before input 0
  rw [Nat.add_zero] at hzero
  unfold urlencodedByte
  rw [hzero, byteAt_append, byteAt_append]
  constructor
  · intro h
    rcases input with _ | ⟨c, input⟩
    · simp [byteAt, bind, Except.bind] at h
    by_cases hc : c = 0x25
    · subst hc
      rcases input with _ | ⟨hi, _ | ⟨lo, input⟩⟩
      · simp [byteAt, bind, Except.bind] at h
      · simp [byteAt, bind, Except.bind] at h
      · cases hd : hexDecode hi lo with
        | none => simp [byteAt, bind, Except.bind, hd] at h
        | some decoded =>
          simp only [byteAt, bind, Except.bind, hd, List.getElem?_cons_zero,
            List.getElem?_cons_succ, if_true, Except.ok.injEq, Prod.mk.injEq] at h
          obtain ⟨rfl, rfl⟩ := h
          obtain ⟨high, low, hhi, hlo, hbyte⟩ := hexDecode_eq_some.mp hd
          exact ⟨[0x25, hi, lo], input, rfl, .escaped hhi hlo hbyte, by simp⟩
    · simp only [byteAt, bind, Except.bind, List.getElem?_cons_zero, hc, if_false, Except.ok.injEq,
        Prod.mk.injEq] at h
      obtain ⟨rfl, rfl⟩ := h
      exact ⟨[c], input, rfl, .plain hc, by simp⟩
  · rintro ⟨token, rest, rfl, htoken, rfl⟩
    cases htoken with
    | escaped hhi hlo hbyte =>
      simp [byteAt, bind, Except.bind, hexDecode_eq_some.mpr ⟨_, _, hhi, hlo, hbyte⟩]
    | plain hbyte => simp [byteAt, bind, Except.bind, hbyte]

/-- The loop reads tokens, one for each byte, and leaves what is behind them. -/
lemma urlencodedBytes_eq_ok {n : ℕ} {before input : Text} {out : List.Vector UInt8 n} :
    urlencodedBytes (before ++ input) n before.length = .ok out ↔
      ∃ tokens rest, input = tokens.flatten ++ rest ∧ List.Forall₂ Denotes tokens out.toList := by
  induction n generalizing before input with
  | zero =>
    rw [List.Vector.eq_nil out]
    simp [urlencodedBytes]
  | succ n ih =>
    simp only [urlencodedBytes, bind, Except.bind]
    constructor
    · intro h
      cases hbyte : urlencodedByte (before ++ input) before.length with
      | error e => simp [hbyte] at h
      | ok read =>
        obtain ⟨byte, pos⟩ := read
        obtain ⟨token, rest, rfl, htoken, rfl⟩ := urlencodedByte_eq_ok.mp hbyte
        simp only [hbyte] at h
        rw [← List.append_assoc] at h
        cases hbytes : urlencodedBytes (before ++ token ++ rest) n (before ++ token).length with
        | error e => simp only [hbytes, reduceCtorEq] at h
        | ok bytes =>
          simp only [hbytes, pure, Except.pure, Except.ok.injEq] at h
          obtain ⟨tokens, rest', rfl, htokens⟩ := ih.mp hbytes
          refine ⟨token :: tokens, rest', by simp, ?_⟩
          rw [← h, List.Vector.toList_cons]
          exact .cons htoken htokens
    · rintro ⟨tokens, rest, rfl, htokens⟩
      obtain ⟨byte, bytes, rfl⟩ := List.Vector.exists_eq_cons out
      rw [List.Vector.toList_cons] at htokens
      cases htokens with
      | cons htoken htokens =>
        rw [List.flatten_cons, List.append_assoc,
          urlencodedByte_eq_ok.mpr ⟨_, _, rfl, htoken, rfl⟩]
        simp only [← List.append_assoc before]
        rw [ih.mpr ⟨_, rest, rfl, htokens⟩]
        rfl

/-- The decoder accepts twenty tokens with a remainder in which every percent sign is matched by
another byte. -/
lemma urlencodedToBytes_eq_ok {input : Text} {out : List.Vector UInt8 20} :
    urlencodedToBytes input = .ok out ↔
      ∃ tokens rest, input = tokens.flatten ++ rest ∧ List.Forall₂ Denotes tokens out.toList ∧
        rest.length = 2 * rest.count 0x25 := by
  have hloop := @urlencodedBytes_eq_ok 20 [] input out
  rw [List.nil_append, List.length_nil] at hloop
  have hlength : ∀ {tokens : List Text} {rest : Text}, List.Forall₂ Denotes tokens out.toList →
      ((tokens.flatten ++ rest).length = 20 + 2 * (tokens.flatten ++ rest).count 0x25 ↔
        rest.length = 2 * rest.count 0x25) := by
    intro tokens rest htokens
    have htotal := length_flatten_tokens htokens
    rw [List.Vector.toList_length] at htotal
    rw [List.length_append, List.count_append]
    omega
  unfold urlencodedToBytes
  constructor
  · intro h
    split_ifs at h with hlen
    rw [not_not] at hlen
    obtain ⟨tokens, rest, rfl, htokens⟩ := hloop.mp h
    exact ⟨tokens, rest, rfl, htokens, (hlength htokens).mp hlen⟩
  · rintro ⟨tokens, rest, rfl, htokens, hrest⟩
    rw [if_neg (not_not.mpr ((hlength htokens).mpr hrest))]
    exact hloop.mpr ⟨tokens, rest, rfl, htokens⟩

/-- Twenty tokens with something behind them that the check of the length does not see. -/
def HasHiddenRemainder (input : Text) : Prop :=
  ∃ tokens bytes rest, input = tokens.flatten ++ rest ∧ List.Forall₂ Denotes tokens bytes ∧
    bytes.length = 20 ∧ rest ≠ [] ∧ rest.length = 2 * rest.count 0x25

/-- What the decoder accepts is written in twenty tokens to its last byte, unless percent signs hide
a remainder. -/
theorem urlencodedToBytes_reads_all_iff (input : Text) :
    (∀ out, urlencodedToBytes input = .ok out →
      ∃ tokens, tokens.flatten = input ∧ List.Forall₂ Denotes tokens out.toList) ↔
    ¬ HasHiddenRemainder input := by
  constructor
  · rintro h ⟨tokens, bytes, rest, rfl, htokens, hbytes, hne, hrest⟩
    obtain ⟨tokens', heq, htokens'⟩ := h ⟨bytes, hbytes⟩
      (urlencodedToBytes_eq_ok.mpr ⟨tokens, rest, rfl, htokens, hrest⟩)
    have hnil : tokens'.flatten ++ [] = tokens.flatten ++ rest := by rw [List.append_nil, heq]
    exact hne (unique_tokens htokens' htokens rfl hnil).symm
  · intro h out hok
    obtain ⟨tokens, rest, rfl, htokens, hrest⟩ := urlencodedToBytes_eq_ok.mp hok
    have hnil : rest = [] := by
      by_contra hne
      exact h ⟨tokens, out.toList, rest, rfl, htokens, out.toList_length, hne, hrest⟩
    exact ⟨tokens, by rw [hnil, List.append_nil], htokens⟩

/-- Twenty threes, then `a%`: nothing looks at the last two bytes. -/
theorem urlencodedToBytes_skips_remainder :
    ¬ ∀ input out, urlencodedToBytes input = .ok out →
      ∃ tokens, tokens.flatten = input ∧ List.Forall₂ Denotes tokens out.toList := by
  intro h
  obtain ⟨tokens, heq, htokens⟩ := h (ascii "33333333333333333333a%")
    (List.Vector.replicate 20 0x33) (by decide +kernel)
  have hthrees : List.Forall₂ Denotes (List.replicate 20 [0x33]) (List.replicate 20 0x33) := by
    rw [List.forall₂_iff_get]
    simp only [List.length_replicate, List.get_eq_getElem, List.getElem_replicate, true_and]
    intro i _ _
    exact .plain (by decide)
  have hnil : tokens.flatten ++ [] = (List.replicate 20 [0x33]).flatten ++ ascii "a%" := by
    rw [List.append_nil, heq]
    decide +kernel
  have hrest := unique_tokens htokens hthrees rfl hnil
  revert hrest
  decide +kernel

/-- Where the length is what the percent signs say, the next token lies inside of the input. -/
lemma urlencodedByte_inBounds {n : ℕ} {before input : Text}
    (h : input.length = n + 1 + 2 * input.count 0x25) :
    urlencodedByte (before ++ input) before.length ≠ .error .outOfBounds := by
  have hzero := byteAt_append before input 0
  rw [Nat.add_zero] at hzero
  unfold urlencodedByte
  rw [hzero, byteAt_append, byteAt_append]
  rcases input with _ | ⟨c, input⟩
  · simp at h
  by_cases hc : c = 0x25
  · subst hc
    rw [List.count_cons_self, List.length_cons] at h
    rcases input with _ | ⟨hi, _ | ⟨lo, input⟩⟩
    · simp at h
    · rw [List.length_singleton] at h
      omega
    · cases hd : hexDecode hi lo with
      | none => simp [byteAt, bind, Except.bind, hd]
      | some byte => simp [byteAt, bind, Except.bind, hd]
  · simp [byteAt, bind, Except.bind, hc]

/-- The loop keeps the position tied to the percent signs that are still to come. -/
lemma urlencodedBytes_inBounds {n : ℕ} {before input : Text}
    (h : input.length = n + 2 * input.count 0x25) :
    urlencodedBytes (before ++ input) n before.length ≠ .error .outOfBounds := by
  induction n generalizing before input with
  | zero => simp [urlencodedBytes]
  | succ n ih =>
    simp only [urlencodedBytes, bind, Except.bind]
    cases hbyte : urlencodedByte (before ++ input) before.length with
    | error e =>
      rintro ⟨⟩
      exact urlencodedByte_inBounds h hbyte
    | ok read =>
      obtain ⟨byte, pos⟩ := read
      obtain ⟨token, rest, rfl, htoken, rfl⟩ := urlencodedByte_eq_ok.mp hbyte
      have hrest : rest.length = n + 2 * rest.count 0x25 := by
        have hlength := htoken.length
        rw [List.length_append, List.count_append] at h
        omega
      have hnext := @ih (before ++ token) rest hrest
      rw [List.append_assoc] at hnext
      cases hbytes : urlencodedBytes (before ++ (token ++ rest)) n (before ++ token).length with
      | error e =>
        simp only [hbytes, ne_eq, Except.error.injEq] at hnext ⊢
        exact hnext
      | ok bytes => simp only [hbytes, pure, Except.pure, ne_eq, reduceCtorEq, not_false_eq_true]

/-- Bytes with each of them escaped. -/
def percentEncode : List UInt8 → Option Text
  | [] => some []
  | byte :: bytes => do
    let digits ← hexEncode byte
    let rest ← percentEncode bytes
    return 0x25 :: digits ++ rest

lemma percentEncode_eq_some (bytes : List UInt8) :
    ∃ tokens, percentEncode bytes = some tokens.flatten ∧ List.Forall₂ Denotes tokens bytes := by
  induction bytes with
  | nil => exact ⟨[], rfl, .nil⟩
  | cons byte bytes ih =>
    obtain ⟨tokens, htext, htokens⟩ := ih
    obtain ⟨hi, lo, hbyte, -, -⟩ := hexEncode_eq_some byte
    obtain ⟨h, l, hhi, hlo, hsum⟩ := hexDecode_eq_some.mp (hexDecode_of_hexEncode hbyte)
    refine ⟨[0x25, hi, lo] :: tokens, ?_, .cons (.escaped hhi hlo hsum) htokens⟩
    rw [percentEncode, hbyte, htext]
    rfl

/-- However twenty bytes are written in tokens, they are read back. -/
lemma urlencodedToBytes_tokens {bytes : List.Vector UInt8 20} {tokens : List Text}
    (h : List.Forall₂ Denotes tokens bytes.toList) :
    urlencodedToBytes tokens.flatten = .ok bytes :=
  urlencodedToBytes_eq_ok.mpr ⟨tokens, [], (List.append_nil _).symm, h, rfl⟩

/-- The decoder never reads outside of its input. It reads back every way to write twenty bytes, and
in particular the one that escapes them all. -/
theorem urlencodedToBytes_safe_complete :
    (∀ input, urlencodedToBytes input ≠ .error .outOfBounds) ∧
    (∀ (bytes : List.Vector UInt8 20) (tokens : List Text),
      List.Forall₂ Denotes tokens bytes.toList → urlencodedToBytes tokens.flatten = .ok bytes) ∧
    ∀ bytes : List.Vector UInt8 20, ∃ text,
      percentEncode bytes.toList = some text ∧ urlencodedToBytes text = .ok bytes := by
  refine ⟨fun input => ?_, fun bytes tokens h => urlencodedToBytes_tokens h, fun bytes => ?_⟩
  · unfold urlencodedToBytes
    split_ifs with hlength
    · simp
    · rw [not_not] at hlength
      exact @urlencodedBytes_inBounds 20 [] input hlength
  · obtain ⟨tokens, htext, htokens⟩ := percentEncode_eq_some bytes.toList
    exact ⟨tokens.flatten, htext, urlencodedToBytes_tokens htokens⟩

/-- Twenty times the letter J, the last one as `%4a`. -/
theorem urlencodedToBytes_safe_complete_mixed :
    urlencodedToBytes (ascii "JJJJJJJJJJJJJJJJJJJ%4a") = .ok (List.Vector.replicate 20 0x4A) := by
  have htokens : List.Forall₂ Denotes (List.replicate 19 [0x4A] ++ [[0x25, 0x34, 0x61]])
      (List.replicate 19 0x4A ++ [0x4A]) := by
    apply List.rel_append
    · rw [List.forall₂_iff_get]
      simp only [List.length_replicate, List.get_eq_getElem, List.getElem_replicate, true_and]
      intro i _ _
      exact .plain (by decide)
    · exact .cons (.escaped (h := 4) (l := 10) (by decide +kernel) (by decide +kernel) rfl) .nil
  exact urlencodedToBytes_safe_complete.2.1 (List.Vector.replicate 20 0x4A) _ htokens

end Unit3dAnnounce
