import Unit3dAnnounce.Format.Numeral
import Unit3dAnnounce.Machine.Fallible
import Unit3dAnnounce.Model.Sample
import Unit3dAnnounce.Proofs.Query
import Unit3dAnnounce.Proofs.UrlDecoding

/-!
# Query strings that say what is meant

A client may write the parameters of its announce in any order, more than once, among parameters
that the tracker does not know, with any bytes of the hashes escaped and with any numerals. The
tracker reads what was meant, as long as every parameter has a value and `&`, `=` and `%` are escaped.
-/

namespace Unit3dAnnounce

open Separated

lemma parseDigit_digit (bound n : ℕ) (d : Fin 10) :
    parseDigit bound n (Numeral.digit d) =
      if Numeral.addDigit n d < bound then some (Numeral.addDigit n d) else none := by
  rw [parseDigit, if_pos (Numeral.digit_bounds d), Numeral.digit_sub]
  rfl

/-- The digits are read exactly if the whole number fits: what is read on the way is smaller. -/
lemma foldlM_parseDigit_eq_some {bound m n : ℕ} (hm : m < bound) {s : Text} :
    s.foldlM (parseDigit bound) m = some n ↔
      n < bound ∧ ∃ digits : List (Fin 10), s = digits.map Numeral.digit ∧
        digits.foldl Numeral.addDigit m = n := by
  induction s generalizing m with
  | nil =>
    rw [List.foldlM_nil, Option.pure_def, Option.some_inj]
    constructor
    · rintro rfl
      exact ⟨hm, [], rfl, rfl⟩
    · rintro ⟨-, digits, he, h⟩
      rw [List.map_eq_nil_iff.mp he.symm] at h
      exact h
  | cons c s ih =>
    rw [List.foldlM_cons]
    by_cases hc : 0x30 ≤ c ∧ c ≤ 0x39
    · obtain ⟨d, rfl⟩ := Numeral.exists_digit hc
      rw [parseDigit_digit]
      by_cases hfits : Numeral.addDigit m d < bound
      · rw [if_pos hfits]
        refine (ih hfits).trans (and_congr_right fun _ => ?_)
        constructor
        · rintro ⟨digits, rfl, h⟩
          exact ⟨d :: digits, rfl, h⟩
        · rintro ⟨digits, he, h⟩
          obtain ⟨d', digits, rfl, hd, hs⟩ := List.map_eq_cons_iff.mp he.symm
          exact ⟨digits, hs.symm, Numeral.digit_injective hd ▸ h⟩
      · rw [if_neg hfits]
        refine ⟨nofun, ?_⟩
        rintro ⟨hn, digits, he, rfl⟩
        obtain ⟨d', digits, rfl, hd, -⟩ := List.map_eq_cons_iff.mp he.symm
        have hle := Numeral.le_foldl_addDigit (Numeral.addDigit m d') digits
        rw [Numeral.digit_injective hd] at hle
        rw [List.foldl_cons, Numeral.digit_injective hd] at hn
        exact absurd (hle.trans_lt hn) hfits
    · rw [parseDigit, if_neg hc]
      refine ⟨nofun, ?_⟩
      rintro ⟨-, digits, he, -⟩
      obtain ⟨d, digits, rfl, rfl, -⟩ := List.map_eq_cons_iff.mp he.symm
      exact absurd (Numeral.digit_bounds d) hc

/-- The texts that are read as a number are its numerals. -/
lemma parseUnsigned_eq_some {bound n : ℕ} {s : Text} :
    parseUnsigned bound s = some n ↔ Numeral.Denotes s n ∧ n < bound := by
  have hdigits : ∀ t : Text, (if t.isEmpty then none else t.foldlM (parseDigit bound) 0) = some n ↔
      n < bound ∧ ∃ digits, digits ≠ [] ∧ t = digits.map Numeral.digit ∧
        Numeral.value digits = n := by
    intro t
    by_cases ht : t.isEmpty
    · rw [if_pos ht, List.isEmpty_iff.mp ht]
      refine ⟨nofun, ?_⟩
      rintro ⟨-, digits, hne, he, -⟩
      exact absurd (List.map_eq_nil_iff.mp he.symm) hne
    · rw [if_neg ht]
      rcases Nat.eq_zero_or_pos bound with rfl | hbound
      · obtain ⟨c, t, rfl⟩ := List.exists_cons_of_ne_nil (fun h => ht (List.isEmpty_iff.mpr h))
        simp [parseDigit]
      · rw [foldlM_parseDigit_eq_some hbound]
        refine and_congr_right fun _ => exists_congr fun digits => ?_
        constructor
        · rintro ⟨rfl, h⟩
          exact ⟨fun hnil => ht (by simp [hnil]), rfl, h⟩
        · rintro ⟨-, rfl, h⟩
          exact ⟨rfl, h⟩
  unfold parseUnsigned
  dsimp only
  rw [hdigits]
  constructor
  · rintro ⟨hn, digits, hne, he, rfl⟩
    refine ⟨?_, hn⟩
    by_cases hplus : s.head? = some 0x2B
    · rw [if_pos hplus] at he
      rw [List.eq_cons_of_mem_head? hplus, he]
      exact .signed hne
    · rw [if_neg hplus] at he
      rw [he]
      exact .plain hne
  · rintro ⟨hdenotes, hn⟩
    cases hdenotes with
    | plain hne => exact ⟨hn, _, hne, by rw [if_neg (Numeral.head?_digits_ne _)], rfl⟩
    | signed hne => exact ⟨hn, _, hne, by simp, rfl⟩

lemma parseU16_denotes {n : UInt16} {s : Text} (h : Numeral.Denotes s n.toNat) :
    parseU16 s = some n := by
  rw [parseU16, parseUnsigned_eq_some.mpr ⟨h, n.toNat_lt⟩, Option.map_some, UInt16.ofNat_toNat]

lemma parseU64_denotes {n : UInt64} {s : Text} (h : Numeral.Denotes s n.toNat) :
    parseU64 s = some n := by
  rw [parseU64, parseUnsigned_eq_some.mpr ⟨h, n.toNat_lt⟩, Option.map_some, UInt64.ofNat_toNat]

lemma parseU64_eq_none {s : Text} (h : ∀ n < 2 ^ 64, ¬ Numeral.Denotes s n) : parseU64 s = none := by
  rw [parseU64, Option.map_eq_none_iff, Option.eq_none_iff_forall_ne_some]
  intro n hn
  obtain ⟨hdenotes, hlt⟩ := parseUnsigned_eq_some.mp hn
  exact h n hlt hdenotes

def parameterNames : List Text :=
  ["info_hash", "peer_id", "port", "uploaded", "downloaded", "left", "compact", "event", "numwant",
    "corrupt", "key"].map ascii

def AnnounceEvent.spellings : AnnounceEvent → List Text
  | .completed => [ascii "completed"]
  | .empty => [[], ascii "empty", ascii "paused"]
  | .started => [ascii "started"]
  | .stopped => [ascii "stopped"]

/-- The ways to write one of the parameters, as a name and a value. What is no number does not count as
a number of corrupt bytes. -/
inductive Parameters.Writes (p : Parameters) : Text → Text → Prop
  | infoHash {infoHash : InfoHash} {tokens : List Text} (hp : p.infoHash = some infoHash)
      (h : List.Forall₂ Denotes tokens infoHash.bytes.toList) :
      p.Writes (ascii "info_hash") tokens.flatten
  | peerId {peerId : PeerId} {tokens : List Text} (hp : p.peerId = some peerId)
      (h : List.Forall₂ Denotes tokens peerId.bytes.toList) :
      p.Writes (ascii "peer_id") tokens.flatten
  | port {n : UInt16} {s : Text} (hp : p.port = some n) (h : Numeral.Denotes s n.toNat) :
      p.Writes (ascii "port") s
  | uploaded {n : UInt64} {s : Text} (hp : p.uploaded = some n) (h : Numeral.Denotes s n.toNat) :
      p.Writes (ascii "uploaded") s
  | downloaded {n : UInt64} {s : Text} (hp : p.downloaded = some n) (h : Numeral.Denotes s n.toNat) :
      p.Writes (ascii "downloaded") s
  | left {n : UInt64} {s : Text} (hp : p.left = some n) (h : Numeral.Denotes s n.toNat) :
      p.Writes (ascii "left") s
  | compact : p.Writes (ascii "compact") (ascii "1")
  | event {event : AnnounceEvent} {s : Text} (hp : p.event = some event) (h : s ∈ event.spellings) :
      p.Writes (ascii "event") s
  | numwant {n : UInt64} {s : Text} (hp : p.numwant = some n) (h : Numeral.Denotes s n.toNat) :
      p.Writes (ascii "numwant") s
  | corrupt {n : UInt64} {s : Text} (hp : p.corrupt = some n) (h : Numeral.Denotes s n.toNat) :
      p.Writes (ascii "corrupt") s
  | corruptUnreadable {s : Text} (hp : p.corrupt = none) (h : ∀ n < 2 ^ 64, ¬ Numeral.Denotes s n) :
      p.Writes (ascii "corrupt") s
  | key {s : Text} (hp : p.key = some s) : p.Writes (ascii "key") s
  | unknown {name s : Text} (h : name ∉ parameterNames) : p.Writes name s

/-- The parameters with these names. -/
def Parameters.restrict (p : Parameters) (names : List Text) : Parameters where
  infoHash := if ascii "info_hash" ∈ names then p.infoHash else none
  peerId := if ascii "peer_id" ∈ names then p.peerId else none
  port := if ascii "port" ∈ names then p.port else none
  uploaded := if ascii "uploaded" ∈ names then p.uploaded else none
  downloaded := if ascii "downloaded" ∈ names then p.downloaded else none
  left := if ascii "left" ∈ names then p.left else none
  event := if ascii "event" ∈ names then p.event else none
  numwant := if ascii "numwant" ∈ names then p.numwant else none
  corrupt := if ascii "corrupt" ∈ names then p.corrupt else none
  key := if ascii "key" ∈ names then p.key else none

lemma AnnounceEvent.fromStr_of_mem_spellings {event : AnnounceEvent} {s : Text}
    (h : s ∈ event.spellings) : AnnounceEvent.fromStr s = .ok event := by
  revert s
  cases event <;> simp [AnnounceEvent.spellings, AnnounceEvent.fromStr, ascii]

open Parameters in
/-- One more pair is read. -/
lemma Parameters.process_writes {p : Parameters} {name value : Text} (h : p.Writes name value)
    (names : List Text) :
    (p.restrict names).process name value = .ok (p.restrict (name :: names)) := by
  cases h with
  | infoHash hp h =>
    simp [process, restrict, ascii, okOr, Except.toOption, urlencodedToBytes_tokens h, hp]
  | peerId hp h =>
    simp [process, restrict, ascii, okOr, Except.toOption, urlencodedToBytes_tokens h, hp]
  | port hp h => simp [process, restrict, ascii, okOr, parseU16_denotes h, hp]
  | uploaded hp h => simp [process, restrict, ascii, okOr, parseU64_denotes h, hp]
  | downloaded hp h => simp [process, restrict, ascii, okOr, parseU64_denotes h, hp]
  | left hp h => simp [process, restrict, ascii, okOr, parseU64_denotes h, hp]
  | compact => simp [process, restrict, ascii]
  | event hp h => simp [process, restrict, ascii, AnnounceEvent.fromStr_of_mem_spellings h, hp]
  | numwant hp h => simp [process, restrict, ascii, okOr, parseU64_denotes h, hp]
  | corrupt hp h => simp [process, restrict, ascii, parseU64_denotes h, hp]
  | corruptUnreadable hp h => simp [process, restrict, ascii, parseU64_eq_none h, hp]
  | key hp => simp [process, restrict, ascii, hp]
  | unknown h =>
    simp only [parameterNames, List.map_cons, List.map_nil, List.mem_cons, List.not_mem_nil, or_false,
      not_or] at h
    simp [process, restrict, h, eq_comm]

/-- Pairs are read one after the other. -/
lemma processAll_writes {p : Parameters} {pairs : List (Text × Text)}
    (h : ∀ pair ∈ pairs, p.Writes pair.1 pair.2) (names : List Text) :
    ∃ read, processAll Parameters.process pairs (p.restrict names) = .ok (p.restrict read) ∧
      ∀ name, name ∈ read ↔ name ∈ names ∨ name ∈ pairs.map Prod.fst := by
  induction pairs generalizing names with
  | nil => exact ⟨names, rfl, by simp⟩
  | cons pair pairs ih =>
    obtain ⟨hpair, hpairs⟩ := List.forall_mem_cons.mp h
    obtain ⟨read, hread, hmem⟩ := ih hpairs (pair.1 :: names)
    refine ⟨read, ?_, fun name => ?_⟩
    · rw [processAll, List.foldlM_cons, Parameters.process_writes hpair]
      exact hread
    · rw [hmem, List.map_cons, List.mem_cons, List.mem_cons]
      tauto

lemma Parameters.restrict_congr (p : Parameters) {names names' : List Text}
    (h : ∀ name, name ∈ names ↔ name ∈ names') : p.restrict names = p.restrict names' := by
  simp only [restrict, h]

lemma Parameters.restrict_nil (p : Parameters) : p.restrict [] = .empty := by
  simp [restrict, empty]

/-- Pairs joined by ampersands, with an equal sign in each of them. -/
def queryOf (pairs : List (Text × Text)) : Text :=
  [ampersand].intercalate (pairs.map fun pair => pair.1 ++ equalSign :: pair.2)

/-- A query that writes parameters and nothing else that the tracker knows, as pairs in which `&` and `=`
do not stand for themselves. -/
structure IsQueryFor (p : Parameters) (pairs : List (Text × Text)) (query : String) : Prop where
  eq : utf8 query = queryOf pairs
  separate : ∀ pair ∈ pairs, (ampersand ∉ pair.1 ∧ equalSign ∉ pair.1) ∧
    ampersand ∉ pair.2 ∧ equalSign ∉ pair.2
  writes : ∀ pair ∈ pairs, p.Writes pair.1 pair.2
  /-- Every parameter is written. -/
  complete : p.restrict (pairs.map Prod.fst) = p

lemma count_pair {name value : Text} (hname : equalSign ∉ name) (hvalue : equalSign ∉ value) :
    (name ++ equalSign :: value).count equalSign = 1 := by
  rw [List.count_append, List.count_cons_self, List.count_eq_zero_of_not_mem hname,
    List.count_eq_zero_of_not_mem hvalue]

/-- Where every segment has an equal sign, no segment is left out. -/
lemma upToLast_of_forall_mem {segments : List Text} (h : ∀ s ∈ segments, equalSign ∈ s) :
    upToLast equalSign segments = segments := by
  induction segments with
  | nil => rfl
  | cons s segments ih =>
    obtain ⟨hs, hsegments⟩ := List.forall_mem_cons.mp h
    rw [upToLast_cons, if_neg fun hnone => hnone s List.mem_cons_self hs, ih hsegments]

/-- Splitting a query undoes the joining. -/
lemma extract_queryOf {query : String} {pairs : List (Text × Text)} (hne : pairs ≠ [])
    (heq : utf8 query = queryOf pairs)
    (hseparate : ∀ pair ∈ pairs, (ampersand ∉ pair.1 ∧ equalSign ∉ pair.1) ∧
      ampersand ∉ pair.2 ∧ equalSign ∉ pair.2) :
    extract (utf8 query) = processAll Parameters.process pairs .empty := by
  have hloop : extract (utf8 query) =
      processSegments Parameters.process ((utf8 query).splitOn ampersand) .empty :=
    @extractWith_segments Parameters Parameters.process query Parameters.empty
  have hsegments : (utf8 query).splitOn ampersand =
      pairs.map fun pair => pair.1 ++ equalSign :: pair.2 := by
    rw [heq, queryOf, List.splitOn_intercalate ampersand ?_ (by simpa using hne)]
    intro s hs
    obtain ⟨pair, hpair, rfl⟩ := List.mem_map.mp hs
    obtain ⟨hname, hvalue⟩ := hseparate pair hpair
    simp only [List.mem_append, List.mem_cons, not_or]
    exact ⟨hname.1, by decide, hvalue.1⟩
  have hcount : ∀ s ∈ pairs.map fun pair => pair.1 ++ equalSign :: pair.2,
      s.count equalSign = 1 := by
    intro s hs
    obtain ⟨pair, hpair, rfl⟩ := List.mem_map.mp hs
    obtain ⟨hname, hvalue⟩ := hseparate pair hpair
    exact count_pair hname.2 hvalue.2
  have hall : upToLast equalSign (pairs.map fun pair => pair.1 ++ equalSign :: pair.2) =
      pairs.map fun pair => pair.1 ++ equalSign :: pair.2 :=
    upToLast_of_forall_mem fun s hs => List.count_pos_iff.mp (by rw [hcount s hs]; decide)
  have hwell : IsWellSeparated (pairs.map fun pair => pair.1 ++ equalSign :: pair.2) := by
    constructor
    · rw [hall]
      exact fun s hs => hcount s (List.mem_of_mem_dropLast hs)
    · rw [hall]
      exact fun s hs => Or.inl (hcount s (List.mem_of_mem_getLast? hs))
  have hpairs : (pairs.map fun pair => pair.1 ++ equalSign :: pair.2).map (splitFirst equalSign) =
      pairs := by
    rw [List.map_map]
    refine (List.map_congr_left fun pair hpair => ?_).trans (List.map_id pairs)
    exact splitFirst_append (hseparate pair hpair).1.2 pair.2
  rw [hloop, hsegments, processSegments_of_wellSeparated hwell, hall, hpairs]

/-- The loop reads the parameters that a query writes. -/
lemma extract_isQueryFor {p : Parameters} {pairs : List (Text × Text)} {query : String}
    (h : IsQueryFor p pairs query) : extract (utf8 query) = .ok p := by
  obtain ⟨read, hread, hmem⟩ := processAll_writes h.writes []
  have hp : p.restrict read = p :=
    (p.restrict_congr fun name => by simp [hmem]).trans h.complete
  rw [p.restrict_nil, hp] at hread
  by_cases hne : pairs = []
  · rw [h.eq, ← hread, hne]
    rfl
  · rw [extract_queryOf hne h.eq h.separate, hread]

/-- What an announce says when it is made of these parameters. -/
structure Announce.IsMadeOf {F : Type} (config : Config F) (announce : Announce) (p : Parameters) :
    Prop where
  infoHash : p.infoHash = some announce.infoHash
  peerId : p.peerId = some announce.peerId
  port : p.port = some announce.port
  uploaded : p.uploaded = some announce.uploaded
  downloaded : p.downloaded = some announce.downloaded
  left : p.left = some announce.left
  event : announce.event = p.event.getD .empty
  numwant : announce.numwant = if announce.event = .stopped then 0
    else min (p.numwant.getD config.numwantDefault) config.numwantMax
  corrupt : announce.corrupt = p.corrupt
  key : announce.key = p.key

lemma okOr_eq_ok {A : Type} {e : AnnounceError} {o : Option A} {a : A} :
    okOr e o = .ok a ↔ o = some a := by
  cases o <;> simp [okOr]

/-- Whatever the order of the parameters and the way they are written, the announce that is read is
the one that was meant. Each parameter is a pair of a name and a value with an equal sign between them.
The signs of the structure, and percent signs in a hash, are escaped wherever they are meant as such. -/
theorem fromRequestParts_eq_ok_iff_isMadeOf {F : Type} (config : Config F) {p : Parameters}
    {pairs : List (Text × Text)} {query : String} (h : IsQueryFor p pairs query)
    (announce : Announce) :
    fromRequestParts config (some query) = .ok announce ↔ announce.IsMadeOf config p := by
  have hextract := extract_isQueryFor h
  unfold fromRequestParts
  simp only [Option.getD_some, hextract, Fallible.bind_eq_ok, okOr_eq_ok]
  constructor
  · rintro ⟨p', hp', infoHash, hi, peerId, hid, port, hport, uploaded, hup, downloaded, hdown, left,
      hleft, hann⟩
    obtain rfl := Except.ok.inj hp'
    obtain rfl := Except.ok.inj hann
    exact ⟨hi, hid, hport, hup, hdown, hleft, rfl, rfl, rfl, rfl⟩
  · intro hm
    refine ⟨p, rfl, _, hm.infoHash, _, hm.peerId, _, hm.port, _, hm.uploaded, _, hm.downloaded, _,
      hm.left, ?_⟩
    rw [← hm.event, ← hm.numwant, ← hm.corrupt, ← hm.key]
    rfl

/-- Bytes other than the percent sign may stand for themselves. -/
lemma forall₂_denotes_plain {bytes : List UInt8} (h : 0x25 ∉ bytes) :
    List.Forall₂ Denotes (bytes.map fun byte => [byte]) bytes := by
  rw [List.forall₂_map_left_iff, List.forall₂_same]
  exact fun byte hmem => .plain fun he => h (he ▸ hmem)

/-- Two hashes of which one is escaped at its end, numbers with a sign and a leading zero, and a
parameter of another tracker. -/
theorem fromRequestParts_eq_ok_iff_isMadeOf_mixed :
    fromRequestParts Sample.config
        (some ("left=00&supportcrypto=1&info_hash=JJJJJJJJJJJJJJJJJJJ%4a&port=+6881&uploaded=7&" ++
          "peer_id=KKKKKKKKKKKKKKKKKKKK&downloaded=0&event=paused")) =
      .ok ⟨Sample.infoHash 0x4A, Sample.peerId 0x4B, 6881, 7, 0, 0, .empty, 15, none, none⟩ := by
  have hplain : ∀ (d : Fin 10) (digits : List (Fin 10)),
      Numeral.Denotes ((d :: digits).map Numeral.digit) (Numeral.value (d :: digits)) :=
    fun d digits => .plain (List.cons_ne_nil d digits)
  have hport : Numeral.Denotes (ascii "+6881") 6881 :=
    @Numeral.Denotes.signed [6, 8, 8, 1] (List.cons_ne_nil _ _)
  have hinfoHash : List.Forall₂ Denotes ((List.replicate 19 0x4A).map (fun byte => [byte]) ++
      [[0x25, 0x34, 0x61]]) (List.replicate 19 0x4A ++ [0x4A]) :=
    List.rel_append (forall₂_denotes_plain (by decide))
      (.cons (.escaped (h := 4) (l := 10) rfl rfl rfl) .nil)
  have hpeerId : List.Forall₂ Denotes ((List.replicate 20 0x4B).map fun byte => [byte])
      (List.replicate 20 0x4B) := forall₂_denotes_plain (by decide)
  have hquery : IsQueryFor ⟨some (Sample.infoHash 0x4A), some (Sample.peerId 0x4B), some 6881,
      some 7, some 0, some 0, some .empty, none, none, none⟩
      [(ascii "left", ascii "00"), (ascii "supportcrypto", ascii "1"),
        (ascii "info_hash", ascii "JJJJJJJJJJJJJJJJJJJ%4a"), (ascii "port", ascii "+6881"),
        (ascii "uploaded", ascii "7"), (ascii "peer_id", ascii "KKKKKKKKKKKKKKKKKKKK"),
        (ascii "downloaded", ascii "0"), (ascii "event", ascii "paused")]
      ("left=00&supportcrypto=1&info_hash=JJJJJJJJJJJJJJJJJJJ%4a&port=+6881&uploaded=7&" ++
        "peer_id=KKKKKKKKKKKKKKKKKKKK&downloaded=0&event=paused") := by
    refine ⟨by decide +kernel, by decide, ?_, by simp [Parameters.restrict, ascii]⟩
    simp only [List.forall_mem_cons]
    exact ⟨.left rfl (hplain 0 [0]), .unknown (by decide),
      @Parameters.Writes.infoHash _ (Sample.infoHash 0x4A) _ rfl hinfoHash, .port rfl hport,
      .uploaded rfl (hplain 7 []), @Parameters.Writes.peerId _ (Sample.peerId 0x4B) _ rfl hpeerId,
      .downloaded rfl (hplain 0 []), .event rfl (by decide),
      fun _ h => absurd h List.not_mem_nil⟩
  exact (fromRequestParts_eq_ok_iff_isMadeOf Sample.config hquery _).mpr
    ⟨rfl, rfl, rfl, rfl, rfl, rfl, rfl, rfl, rfl, rfl⟩

end Unit3dAnnounce
