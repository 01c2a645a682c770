import Unit3dAnnounce.Model.Query

/-!
# The query string against its grammar

The extraction loop takes the k-th equal sign with the k-th ampersand. The loop is followed
along the segments between the ampersands: as long as every segment read had one equal sign
both scans stand in the same segment, and the first segment with none or with several makes
one of the two ranges run backwards.
-/

namespace Unit3dAnnounce

open Separated

/-- After an ASCII byte, and at the start, no character is continued. -/
structure IsUtf8 (s : Text) : Prop where
  starts : s.head?.all (fun b => !isContinuation b)
  follows : s.IsChain (fun b c => b < 0x80 → isContinuation c = false)

lemma isContinuation_eq (b : UInt8) :
    isContinuation b = decide (128 ≤ b.toNat ∧ b.toNat < 192) := by
  have hle : (0x80 ≤ b) ↔ 128 ≤ b.toNat := UInt8.le_iff_toNat_le
  have hlt : (b < 0xC0) ↔ b.toNat < 192 := UInt8.lt_iff_toNat_lt
  simp only [isContinuation, hle, hlt, Bool.decide_and]

lemma not_isContinuation_of_lt {b : UInt8} (h : b < 0x80) : isContinuation b = false := by
  have hlt : b.toNat < 128 := h
  rw [isContinuation_eq, decide_eq_false_iff_not]
  omega

/-- A character is one ASCII byte, or a leading byte followed by bytes that are not ASCII. -/
lemma utf8EncodeChar_shape (c : Char) :
    ∃ b rest, String.utf8EncodeChar c = b :: rest ∧ isContinuation b = false ∧
      (rest = [] ∨ ∀ x ∈ b :: rest, 128 ≤ x.toNat) := by
  unfold String.utf8EncodeChar
  simp only [isContinuation_eq, decide_eq_false_iff_not]
  by_cases h1 : c.val.toNat ≤ 0x7f
  · rw [if_pos h1]
    refine ⟨_, _, rfl, ?_, Or.inl rfl⟩
    simp only [UInt8.toNat_ofNat']
    omega
  · rw [if_neg h1]
    split_ifs
    all_goals
      refine ⟨_, _, rfl, ?_, Or.inr ?_⟩
      · simp only [UInt8.toNat_ofNat']
        omega
      · simp only [List.forall_mem_cons, UInt8.toNat_ofNat', List.not_mem_nil, false_implies,
          implies_true, and_true]
        omega

lemma IsUtf8.append {s t : Text} (hs : IsUtf8 s) (ht : IsUtf8 t) : IsUtf8 (s ++ t) := by
  constructor
  · cases s with
    | nil => exact ht.starts
    | cons b s => exact hs.starts
  · rw [List.isChain_append]
    refine ⟨hs.follows, ht.follows, ?_⟩
    intro b _ c hc _
    have hstarts := ht.starts
    rw [Option.mem_def.mp hc] at hstarts
    simpa using hstarts

lemma isUtf8_utf8EncodeChar (c : Char) : IsUtf8 (String.utf8EncodeChar c) := by
  obtain ⟨b, rest, he, hb, hrest⟩ := utf8EncodeChar_shape c
  rw [he]
  refine ⟨by simp [hb], ?_⟩
  rcases hrest with rfl | hrest
  · exact List.IsChain.singleton b
  · -- no byte is ASCII, so none has to be followed by a new character
    apply List.Pairwise.isChain
    apply List.pairwise_of_forall_mem_list
    intro x hx y _ hlt
    have hle := hrest x hx
    have hlt : x.toNat < 128 := hlt
    omega

lemma isUtf8_utf8 (s : String) : IsUtf8 (utf8 s) := by
  unfold utf8
  induction s.toList with
  | nil => exact ⟨rfl, List.IsChain.nil⟩
  | cons c cs ih =>
    rw [List.flatMap_cons]
    exact (isUtf8_utf8EncodeChar c).append ih

namespace Text

lemma isCharBoundary_zero (s : Text) : s.isCharBoundary 0 := by
  simp [isCharBoundary]

lemma isCharBoundary_length (s : Text) : s.isCharBoundary s.length := by
  simp [isCharBoundary]

/-- A separator begins a character. -/
lemma isCharBoundary_before (before after : Text) (b : UInt8) (h : b < 0x80) :
    Text.isCharBoundary (before ++ b :: after) before.length := by
  simp [isCharBoundary, not_isContinuation_of_lt h]

/-- After a separator, a character begins. -/
lemma isCharBoundary_after (before after : Text) (b : UInt8) (h : b < 0x80)
    (hs : IsUtf8 (before ++ b :: after)) :
    Text.isCharBoundary (before ++ b :: after) (before.length + 1) := by
  cases after with
  | nil =>
    have := isCharBoundary_length (before ++ [b])
    rwa [List.length_append, List.length_singleton] at this
  | cons c after =>
    have hchain := (List.isChain_append.mp hs.follows).2.1
    have hc := (List.isChain_cons.mp hchain).1 c rfl h
    simp [isCharBoundary, hc]

lemma slice?_of_boundaries {before s after : Text}
    (hstart : Text.isCharBoundary (before ++ (s ++ after)) before.length)
    (hstop : Text.isCharBoundary (before ++ (s ++ after)) (before.length + s.length)) :
    Text.slice? (before ++ (s ++ after)) before.length (before.length + s.length) = some s := by
  unfold slice?
  rw [if_pos (by simp [hstart, hstop]), ← List.append_assoc, List.take_left' (by simp),
    List.drop_left' rfl]

lemma slice?_of_lt {s : Text} {start stop : ℕ} (h : stop < start) : s.slice? start stop = none := by
  unfold slice?
  rw [if_neg]
  simp only [Bool.and_eq_true, decide_eq_true_eq]
  omega

end Text

section Loop

variable {P : Type} {process : P → Text → Text → Except AnnounceError P}

/-- What the loop makes of the segments that are left. -/
def processSegments (process : P → Text → Text → Except AnnounceError P) :
    List Text → P → Except AnnounceError P
  | [], parameters => .ok parameters
  | s :: segments, parameters =>
    if ∀ t ∈ s :: segments, equalSign ∉ t then .ok parameters
    else if equalSign ∉ s then .error .invalidQueryStringValue
    else do
      let parameters ← process parameters (splitFirst equalSign s).1 (splitFirst equalSign s).2
      if 1 < s.count equalSign ∧ segments ≠ [] then .error .invalidQueryStringKey
      else processSegments process segments parameters

/-- One round of the loop, in a segment with an equal sign. -/
lemma extractLoop_pair {before name value after : Text} {equalSigns ampersands : List ℕ}
    (hq : IsUtf8 (before ++ (name ++ equalSign :: value ++ after)))
    (hb : Text.isCharBoundary (before ++ (name ++ equalSign :: value ++ after)) before.length)
    (hstop : Text.isCharBoundary (before ++ (name ++ equalSign :: value ++ after))
      (before.length + name.length + 1 + value.length))
    (hampersands : ampersands.head?.getD (before ++ (name ++ equalSign :: value ++ after)).length =
      before.length + name.length + 1 + value.length) (parameters : P) :
    extractLoop process (before ++ (name ++ equalSign :: value ++ after))
        ((before.length + name.length) :: equalSigns) ampersands before.length parameters =
      (process parameters name value).bind fun parameters =>
        if after = [] then .ok parameters
        else
          extractLoop process (before ++ (name ++ equalSign :: value ++ after)) equalSigns ampersands.tail
            (before.length + name.length + 1 + value.length + 1) parameters := by
  have hname : Text.slice? (before ++ (name ++ equalSign :: value ++ after)) before.length
      (before.length + name.length) = some name := by
    rw [List.append_assoc name] at hb ⊢
    apply Text.slice?_of_boundaries hb
    have hend := Text.isCharBoundary_before (before ++ name) (value ++ after) equalSign (by decide)
    rwa [List.length_append, List.append_assoc] at hend
  have hvalue : Text.slice? (before ++ (name ++ equalSign :: value ++ after))
      (before.length + name.length + 1) (before.length + name.length + 1 + value.length) =
        some value := by
    have hassoc : before ++ (name ++ equalSign :: value ++ after) =
        (before ++ name ++ [equalSign]) ++ (value ++ after) := by simp
    have hlength : before.length + name.length + 1 = (before ++ name ++ [equalSign]).length := by
      simp only [List.length_append, List.length_singleton]
    have hstart := Text.isCharBoundary_after (before ++ name) (value ++ after) equalSign (by decide)
      (by rw [hassoc] at hq; simpa using hq)
    rw [hassoc] at hstop ⊢
    rw [hlength] at hstop ⊢
    apply Text.slice?_of_boundaries _ hstop
    rw [← hlength, ← hassoc]
    simpa [Nat.add_assoc] using hstart
  have hdone : before.length + name.length + 1 + value.length =
      (before ++ (name ++ equalSign :: value ++ after)).length ↔ after = [] := by
    rw [← List.length_eq_zero_iff]
    simp only [List.length_append, List.length_cons]
    omega
  simp only [extractLoop, hampersands, hname, hvalue, okOr, hdone]
  rfl

lemma extractLoop_last {rest before : Text} (hq : IsUtf8 (before ++ rest))
    (hb : Text.isCharBoundary (before ++ rest) before.length) (hlast : ampersand ∉ rest)
    (parameters : P) :
    extractLoop process (before ++ rest) (positions equalSign before.length rest) [] before.length
        parameters =
      processSegments process [rest] parameters := by
  by_cases hmark : equalSign ∈ rest
  · obtain ⟨name, value, rfl, hname⟩ := List.eq_append_cons_of_mem hmark
    have hlength : before.length + name.length + 1 + value.length =
        (before ++ (name ++ equalSign :: value)).length := by
      simp only [List.length_append, List.length_cons]
      omega
    rw [positions_first hname]
    have hround : extractLoop process (before ++ (name ++ equalSign :: value ++ []))
        ((before.length + name.length) ::
          positions equalSign (before.length + name.length + 1) value) [] before.length parameters = _ :=
      extractLoop_pair (by simpa using hq) (by simpa using hb)
        (by rw [List.append_nil, hlength]; exact Text.isCharBoundary_length _)
        (by rw [List.append_nil, hlength]; rfl) parameters
    rw [List.append_nil] at hround
    rw [hround]
    simp [processSegments, splitFirst_append hname]
    rfl
  · simp [positions_of_not_mem hmark, extractLoop, processSegments, hmark]

/-- A segment without an equal sign pairs its end with an equal sign further on. -/
lemma extractLoop_missing {before s after : Text}
    (hq : IsUtf8 (before ++ (s ++ ampersand :: after)))
    (hb : Text.isCharBoundary (before ++ (s ++ ampersand :: after)) before.length)
    (hs : equalSign ∉ s) (hmark : equalSign ∈ after) (parameters : P) :
    extractLoop process (before ++ (s ++ ampersand :: after))
        (positions equalSign before.length (s ++ ampersand :: after))
        ((before.length + s.length) :: positions ampersand (before.length + s.length + 1) after)
        before.length parameters =
      .error .invalidQueryStringValue := by
  obtain ⟨name, value, rfl, hname⟩ := List.eq_append_cons_of_mem hmark
  have hnot : equalSign ∉ s ++ ampersand :: name := by
    simp only [List.mem_append, List.mem_cons, not_or]
    exact ⟨hs, by decide, hname⟩
  have hassoc : s ++ ampersand :: (name ++ equalSign :: value) =
      (s ++ ampersand :: name) ++ equalSign :: value := by simp
  rw [hassoc] at hq hb ⊢
  rw [positions_first hnot]
  have hkey : Text.slice? (before ++ (s ++ ampersand :: name ++ equalSign :: value)) before.length
      (before.length + (s ++ ampersand :: name).length) = some (s ++ ampersand :: name) := by
    apply Text.slice?_of_boundaries hb
    have hend := Text.isCharBoundary_before (before ++ (s ++ ampersand :: name)) value equalSign
      (by decide)
    rwa [List.length_append, List.append_assoc] at hend
  have hvalue : Text.slice? (before ++ (s ++ ampersand :: name ++ equalSign :: value))
      (before.length + (s ++ ampersand :: name).length + 1) (before.length + s.length) = none := by
    apply Text.slice?_of_lt
    simp only [List.length_append, List.length_cons]
    omega
  simp only [extractLoop, List.head?_cons, Option.getD_some, hkey, hvalue, okOr]
  rfl

/-- A segment with an equal sign is split there, and the loop goes on behind the segment
unless it has another equal sign. -/
lemma extractLoop_present {before s after : Text}
    (hq : IsUtf8 (before ++ (s ++ ampersand :: after)))
    (hb : Text.isCharBoundary (before ++ (s ++ ampersand :: after)) before.length)
    (hmark : equalSign ∈ s)
    (hrest : ∀ parameters,
      extractLoop process ((before ++ s ++ [ampersand]) ++ after)
          (positions equalSign (before ++ s ++ [ampersand]).length after)
          (positions ampersand (before ++ s ++ [ampersand]).length after)
          (before ++ s ++ [ampersand]).length parameters =
        processSegments process (after.splitOn ampersand) parameters)
    (parameters : P) :
    extractLoop process (before ++ (s ++ ampersand :: after))
        (positions equalSign before.length (s ++ ampersand :: after))
        ((before.length + s.length) :: positions ampersand (before.length + s.length + 1) after)
        before.length parameters =
      (process parameters (splitFirst equalSign s).1 (splitFirst equalSign s).2).bind
        fun parameters =>
          if 1 < s.count equalSign ∧ after.splitOn ampersand ≠ [] then
            .error .invalidQueryStringKey
          else processSegments process (after.splitOn ampersand) parameters := by
  obtain ⟨name, value, rfl, hname⟩ := List.eq_append_cons_of_mem hmark
  have hend : before.length + (name ++ equalSign :: value).length =
      before.length + name.length + 1 + value.length := by
    simp only [List.length_append, List.length_cons]
    omega
  have hcount : 1 < (name ++ equalSign :: value).count equalSign ↔ equalSign ∈ value := by
    rw [List.count_append, List.count_cons_self, List.count_eq_zero.mpr hname,
      ← List.count_pos_iff]
    omega
  have hstop := Text.isCharBoundary_before (before ++ (name ++ equalSign :: value)) after ampersand
    (by decide)
  rw [List.length_append, hend, List.append_assoc] at hstop
  have hassoc : name ++ equalSign :: value ++ ampersand :: after =
      name ++ equalSign :: (value ++ ampersand :: after) := by simp
  rw [splitFirst_append hname, hend]
  conv_lhs => rw [hassoc, positions_first hname, ← hassoc]
  rw [extractLoop_pair hq hb hstop rfl]
  congr 1
  funext parameters
  rw [if_neg (List.cons_ne_nil _ _), List.tail_cons]
  by_cases hvalue : equalSign ∈ value
  · -- the next equal sign is still in this segment, before the position the loop has reached
    rw [if_pos ⟨hcount.mpr hvalue, List.splitOn_ne_nil _ _⟩]
    obtain ⟨first, second, rfl, hfirst⟩ := List.eq_append_cons_of_mem hvalue
    have hassoc' : first ++ equalSign :: second ++ ampersand :: after =
        first ++ equalSign :: (second ++ ampersand :: after) := by simp
    rw [hassoc', positions_first hfirst, extractLoop, Text.slice?_of_lt]
    · rfl
    · simp only [List.length_append, List.length_cons]
      omega
  · rw [if_neg (fun h => hvalue (hcount.mp h.1)), ← hrest parameters]
    have hsep : equalSign ∉ value ++ [ampersand] := by
      simp only [List.mem_append, List.mem_singleton, not_or]
      exact ⟨hvalue, by decide⟩
    have hlength : (before ++ (name ++ equalSign :: value) ++ [ampersand]).length =
        before.length + name.length + 1 + value.length + 1 := by
      simp only [List.length_append, List.length_cons, List.length_nil]
      omega
    have hpositions : positions equalSign (before.length + name.length + 1)
        (value ++ ampersand :: after) =
        positions equalSign (before.length + name.length + 1 + value.length + 1) after := by
      rw [List.append_cons value, positions_append, positions_of_not_mem hsep, List.nil_append,
        List.length_append, List.length_singleton, Nat.add_assoc _ value.length]
    rw [hlength, hpositions]
    simp only [List.append_assoc, List.singleton_append]

lemma extractLoop_segments {rest before : Text} (hq : IsUtf8 (before ++ rest))
    (hb : Text.isCharBoundary (before ++ rest) before.length) (parameters : P) :
    extractLoop process (before ++ rest) (positions equalSign before.length rest)
        (positions ampersand before.length rest) before.length parameters =
      processSegments process (rest.splitOn ampersand) parameters := by
  induction hn : rest.length using Nat.strong_induction_on generalizing rest before parameters with
  | _ n ih =>
    by_cases hmore : ampersand ∈ rest
    · obtain ⟨s, after, rfl, hs⟩ := List.eq_append_cons_of_mem hmore
      have hnone : (∀ t ∈ s :: after.splitOn ampersand, equalSign ∉ t) ↔
          equalSign ∉ s ∧ equalSign ∉ after := by
        rw [List.forall_mem_cons, not_mem_splitOn (by decide)]
      rw [List.splitOn_append_cons_self_of_not_mem hs, positions_first hs, processSegments]
      by_cases hmark : equalSign ∈ s
      · rw [if_neg (fun h => (hnone.mp h).1 hmark), if_neg (not_not_intro hmark)]
        refine extractLoop_present hq hb hmark (fun parameters => ?_) parameters
        have hassoc : before ++ (s ++ ampersand :: after) =
            (before ++ s ++ [ampersand]) ++ after := by simp
        have hstart := Text.isCharBoundary_after (before ++ s) after ampersand (by decide)
          (by simpa using hq)
        rw [hassoc] at hq
        refine ih after.length ?_ hq ?_ parameters rfl
        · rw [← hn]
          simp only [List.length_append, List.length_cons]
          omega
        · simpa [Nat.add_assoc] using hstart
      · by_cases hlater : equalSign ∈ after
        · rw [extractLoop_missing hq hb hmark hlater, if_neg (fun h => (hnone.mp h).2 hlater),
            if_pos hmark]
        · -- no equal sign is left, so the loop is over
          have hrest : equalSign ∉ s ++ ampersand :: after := by
            simp only [List.mem_append, List.mem_cons, not_or]
            exact ⟨hmark, by decide, hlater⟩
          rw [positions_of_not_mem hrest, if_pos (hnone.mpr ⟨hmark, hlater⟩), extractLoop]
    · rw [positions_of_not_mem hmore, List.splitOn_eq_singleton hmore]
      exact extractLoop_last hq hb hmore parameters

/-- What becomes of the parameters when these pairs are processed in order. -/
def processAll (process : P → Text → Text → Except AnnounceError P) (pairs : List (Text × Text))
    (parameters : P) : Except AnnounceError P :=
  pairs.foldlM (fun parameters pair => process parameters pair.1 pair.2) parameters

structure IsWellSeparated (segments : List Text) : Prop where
  /-- Each segment before the last one with an equal sign has exactly one. -/
  inner : ∀ s ∈ (upToLast equalSign segments).dropLast, s.count equalSign = 1
  /-- So has that one, unless no segment comes after it. -/
  last : ∀ s ∈ (upToLast equalSign segments).getLast?,
    s.count equalSign = 1 ∨ upToLast equalSign segments = segments

/-- The first segment, among those up to the last one with an equal sign, that has none or
has several although another segment comes after it. -/
structure IsFirstOffending (segments before : List Text) (s : Text) (after : List Text) : Prop where
  eq : segments = before ++ s :: after
  first : ∀ t ∈ before, t.count equalSign = 1
  read : ∃ t ∈ s :: after, equalSign ∈ t
  offends : s.count equalSign ≠ 1
  inner : after ≠ []

lemma isWellSeparated_cons {s : Text} {segments : List Text}
    (h : ¬ ∀ t ∈ s :: segments, equalSign ∉ t) :
    IsWellSeparated (s :: segments) ↔
      (s.count equalSign = 1 ∨ segments = []) ∧ IsWellSeparated segments := by
  have hcons := upToLast_cons equalSign s segments
  rw [if_neg h] at hcons
  cases hread : upToLast equalSign segments with
  | nil =>
    rw [hread] at hcons
    constructor
    · intro hw
      have hlast := hw.last s (by rw [hcons]; rfl)
      rw [hcons] at hlast
      exact ⟨by simpa [eq_comm] using hlast, ⟨by simp [hread], by simp [hread]⟩⟩
    · rintro ⟨hs, -⟩
      refine ⟨by simp [hcons], ?_⟩
      rw [hcons]
      simpa [eq_comm] using hs
  | cons t read =>
    rw [hread] at hcons
    have hne : segments ≠ [] := by
      rintro rfl
      simp [upToLast] at hread
    constructor
    · intro hw
      have hinner := hw.inner
      have hlast := hw.last
      rw [hcons, List.dropLast_cons_cons, List.forall_mem_cons] at hinner
      rw [hcons, List.getLast?_cons_cons, List.cons_inj_right] at hlast
      rw [← hread] at hinner hlast
      exact ⟨Or.inl hinner.1, hinner.2, hlast⟩
    · rintro ⟨hs, hw⟩
      have hinner := hw.inner
      have hlast := hw.last
      rw [hread] at hinner hlast
      constructor
      · rw [hcons, List.dropLast_cons_cons, List.forall_mem_cons]
        exact ⟨hs.resolve_right hne, hinner⟩
      · rw [hcons, List.getLast?_cons_cons, List.cons_inj_right]
        exact hlast

lemma exists_mark {segments : List Text} (h : ¬ ∀ t ∈ segments, equalSign ∉ t) :
    ∃ t ∈ segments, equalSign ∈ t := by
  simpa only [not_forall, not_not, exists_prop] using h

lemma processSegments_of_none {segments : List Text} (h : ∀ t ∈ segments, equalSign ∉ t)
    (parameters : P) : processSegments process segments parameters = .ok parameters := by
  cases segments with
  | nil => rfl
  | cons s segments => rw [processSegments, if_pos h]

lemma processSegments_of_wellSeparated {segments : List Text} (h : IsWellSeparated segments)
    (parameters : P) :
    processSegments process segments parameters =
      processAll process ((upToLast equalSign segments).map (splitFirst equalSign)) parameters := by
  induction segments generalizing parameters with
  | nil => rfl
  | cons s segments ih =>
    by_cases hnone : ∀ t ∈ s :: segments, equalSign ∉ t
    · rw [processSegments_of_none hnone, upToLast_eq_nil.mpr hnone]
      rfl
    · obtain ⟨hs, hw⟩ := (isWellSeparated_cons hnone).mp h
      have hmark : equalSign ∈ s := by
        rcases hs with hs | rfl
        · exact List.count_pos_iff.mp (by omega)
        · simpa using hnone
      have hone : ¬ (1 < s.count equalSign ∧ segments ≠ []) := by
        rintro ⟨hmany, hne⟩
        rcases hs with hs | rfl
        · omega
        · exact hne rfl
      rw [upToLast_cons, if_neg hnone, processSegments, if_neg hnone,
        if_neg (not_not_intro hmark), List.map_cons, processAll, List.foldlM_cons]
      congr 1
      funext parameters
      rw [if_neg hone]
      exact ih hw parameters

lemma exists_firstOffending {segments : List Text} (h : ¬ IsWellSeparated segments) :
    ∃ before s after, IsFirstOffending segments before s after := by
  induction segments with
  | nil => exact absurd ⟨by simp [upToLast], by simp [upToLast]⟩ h
  | cons s segments ih =>
    by_cases hnone : ∀ t ∈ s :: segments, equalSign ∉ t
    · have hnil := upToLast_eq_nil.mpr hnone
      exact absurd ⟨by simp [hnil], by simp [hnil]⟩ h
    · have hsome := exists_mark hnone
      rw [isWellSeparated_cons hnone, not_and_or, not_or] at h
      by_cases hs : s.count equalSign = 1 ∨ segments = []
      · have hw : ¬ IsWellSeparated segments := h.resolve_left (fun hn => hs.elim hn.1 hn.2)
        obtain ⟨before, t, after, hf⟩ := ih hw
        have hone : s.count equalSign = 1 := by
          apply hs.resolve_right
          rintro rfl
          simpa using hf.eq
        exact ⟨s :: before, t, after, by rw [hf.eq]; rfl, List.forall_mem_cons.mpr ⟨hone, hf.first⟩,
          hf.read, hf.offends, hf.inner⟩
      · rw [not_or] at hs
        exact ⟨[], s, segments, rfl, by simp, hsome, hs.1, hs.2⟩

lemma processSegments_of_firstOffending {segments before after : List Text} {s : Text}
    (h : IsFirstOffending segments before s after) (parameters : P) :
    processSegments process segments parameters =
      if equalSign ∈ s then
        (processAll process ((before ++ [s]).map (splitFirst equalSign)) parameters).bind
          fun _ => .error .invalidQueryStringKey
      else
        (processAll process (before.map (splitFirst equalSign)) parameters).bind
          fun _ => .error .invalidQueryStringValue := by
  obtain ⟨rfl, hfirst, hread, hoffends, hinner⟩ := h
  induction before generalizing parameters with
  | nil =>
    obtain ⟨t, ht, hmark⟩ := hread
    rw [List.nil_append, processSegments, if_neg (fun hnone => hnone t ht hmark)]
    by_cases hs : equalSign ∈ s
    · have hmany : 1 < s.count equalSign := by
        have := List.count_pos_iff.mpr hs
        omega
      rw [if_neg (not_not_intro hs), if_pos hs, List.nil_append, List.map_singleton, processAll,
        List.foldlM_cons]
      cases process parameters (splitFirst equalSign s).1 (splitFirst equalSign s).2 with
      | error e => rfl
      | ok parameters => exact if_pos ⟨hmany, hinner⟩
    · rw [if_pos hs, if_neg hs]
      rfl
  | cons t before ih =>
    rw [List.forall_mem_cons] at hfirst
    have hmark : equalSign ∈ t := List.count_pos_iff.mp (by omega)
    have hone : ¬ (1 < t.count equalSign ∧ before ++ s :: after ≠ []) := by omega
    rw [List.cons_append, processSegments, if_neg (fun hnone => hnone t List.mem_cons_self hmark),
      if_neg (not_not_intro hmark)]
    simp only [List.cons_append, List.map_cons, processAll, List.foldlM_cons]
    cases process parameters (splitFirst equalSign t).1 (splitFirst equalSign t).2 with
    | error e => simp [bind, Except.bind]
    | ok parameters =>
      refine (if_neg hone).trans ?_
      exact ih parameters hfirst.2

/-- The segments of a query string. -/
def querySegments (query : String) : List Text := (utf8 query).splitOn ampersand

/-- The pairs of a query string: the segments up to the last one with an equal sign, each split at its
first one. -/
def queryPairs (query : String) : List (Text × Text) :=
  (upToLast equalSign (querySegments query)).map (splitFirst equalSign)

/-- The loop hands on the pairs of the query string one after the other. It fails by itself exactly on
the first segment with no equal sign, or with several although another segment follows. -/
structure FollowsGrammar (process : P → Text → Text → Except AnnounceError P) (query : String)
    (start : P) (result : Except AnnounceError P) : Prop where
  wellSeparated : IsWellSeparated (querySegments query) →
    result = processAll process (queryPairs query) start
  offending : ¬ IsWellSeparated (querySegments query) → ∃ before s after,
    IsFirstOffending (querySegments query) before s after ∧
      result =
        if equalSign ∈ s then
          (processAll process ((before ++ [s]).map (splitFirst equalSign)) start).bind
            fun _ => .error .invalidQueryStringKey
        else
          (processAll process (before.map (splitFirst equalSign)) start).bind
            fun _ => .error .invalidQueryStringValue

lemma extractWith_segments (query : String) (start : P) :
    extractWith process (utf8 query) start = processSegments process (querySegments query) start :=
  @extractLoop_segments P process (utf8 query) [] (isUtf8_utf8 query) (Text.isCharBoundary_zero _) start

lemma extractWith_followsGrammar (query : String) (start : P) :
    FollowsGrammar process query start (extractWith process (utf8 query) start) := by
  rw [extractWith_segments]
  constructor
  · exact fun h => processSegments_of_wellSeparated h start
  · intro h
    obtain ⟨before, s, after, hf⟩ := exists_firstOffending h
    exact ⟨before, s, after, hf, processSegments_of_firstOffending hf start⟩

/-- What is done with the pairs is done with all of them, where the loop does not fail. -/
lemma FollowsGrammar.processAll_eq_ok {query : String} {start parameters : P}
    {result : Except AnnounceError P} (h : FollowsGrammar process query start result)
    (hresult : result = .ok parameters) :
    processAll process (queryPairs query) start = .ok parameters := by
  by_cases hw : IsWellSeparated (querySegments query)
  · rw [← h.wellSeparated hw, hresult]
  · obtain ⟨before, s, after, -, herror⟩ := h.offending hw
    rw [hresult] at herror
    split_ifs at herror
    · cases hp : processAll process ((before ++ [s]).map (splitFirst equalSign)) start with
      | error e => rw [hp] at herror; cases herror
      | ok p => rw [hp] at herror; cases herror
    · cases hp : processAll process (before.map (splitFirst equalSign)) start with
      | error e => rw [hp] at herror; cases herror
      | ok p => rw [hp] at herror; cases herror

end Loop

/-- The loop's own errors, which no value is rejected with. -/
def AnnounceError.isStructural (e : AnnounceError) : Prop :=
  e = .invalidQueryStringKey ∨ e = .invalidQueryStringValue

instance : DecidablePred AnnounceError.isStructural := fun _ => instDecidableOr

lemma okOr_bind_ne {α : Type} {e e' : AnnounceError} (hne : e ≠ e') (value : Option α)
    (f : α → Parameters) : (okOr e value >>= fun a => pure (f a)) ≠ .error e' := by
  cases value with
  | none => exact fun h => hne (Except.error.inj h)
  | some a => nofun

lemma ite_ne_of_ne {α : Type} {c : Prop} [Decidable c] {a b x : α} (ha : a ≠ x) (hb : b ≠ x) :
    (if c then a else b) ≠ x := by
  by_cases h : c
  · rwa [if_pos h]
  · rwa [if_neg h]

lemma AnnounceEvent.fromStr_ne {e : AnnounceError} (hne : .unsupportedEvent ≠ e) (event : Text) :
    AnnounceEvent.fromStr event ≠ .error e := by
  have hok : ∀ event, (Except.ok event : Except AnnounceError AnnounceEvent) ≠ .error e := nofun
  unfold AnnounceEvent.fromStr
  apply ite_ne_of_ne (hok _)
  apply ite_ne_of_ne (hok _)
  apply ite_ne_of_ne (hok _)
  apply ite_ne_of_ne (hok _)
  exact fun h => hne (Except.error.inj h)

lemma Parameters.process_ne_structural (parameters : Parameters) (parameter value : Text)
    {e : AnnounceError} (he : e.isStructural) : parameters.process parameter value ≠ .error e := by
  have hne : ∀ e', ¬ e'.isStructural → e' ≠ e := fun e' hn h => hn (h ▸ he)
  have hvalue : ∀ {α : Type} {e'} (_ : ¬ e'.isStructural) (o : Option α) (f : α → Parameters),
      (okOr e' o >>= fun a => pure (f a)) ≠ .error e :=
    fun hn o f => okOr_bind_ne (hne _ hn) o f
  have hok (p : Parameters) : (Except.ok p : Except AnnounceError Parameters) ≠ .error e := by simp
  unfold Parameters.process
  apply ite_ne_of_ne (hvalue (by decide) _ _)
  apply ite_ne_of_ne (hvalue (by decide) _ _)
  apply ite_ne_of_ne (hvalue (by decide) _ _)
  apply ite_ne_of_ne (hvalue (by decide) _ _)
  apply ite_ne_of_ne (hvalue (by decide) _ _)
  apply ite_ne_of_ne (hvalue (by decide) _ _)
  apply ite_ne_of_ne (ite_ne_of_ne (fun h => hne _ (by decide) (Except.error.inj h)) (hok _))
  apply ite_ne_of_ne
  · have hevent := AnnounceEvent.fromStr_ne (hne .unsupportedEvent (by decide)) value
    cases h : AnnounceEvent.fromStr value with
    | error e' => exact fun he' => hevent (h.trans (congrArg _ (Except.error.inj he')))
    | ok event => exact hok _
  apply ite_ne_of_ne (hvalue (by decide) _ _)
  apply ite_ne_of_ne (hok _)
  apply ite_ne_of_ne (hok _)
  exact hok _

lemma processAll_ne_structural (pairs : List (Text × Text)) (parameters : Parameters)
    {e : AnnounceError} (he : e.isStructural) :
    processAll Parameters.process pairs parameters ≠ .error e := by
  induction pairs generalizing parameters with
  | nil => nofun
  | cons pair pairs ih =>
    have hne := parameters.process_ne_structural pair.1 pair.2 he
    rw [processAll, List.foldlM_cons]
    cases hp : parameters.process pair.1 pair.2 with
    | error e' =>
      rw [hp] at hne
      exact hne
    | ok parameters => exact ih parameters

/-- The extraction loop reads the query string by its grammar, whatever it does with the pairs. None of
the parameters is rejected with an error of the structure. -/
theorem extract_follows_grammar (query : String) :
    (∀ {P : Type} (process : P → Text → Text → Except AnnounceError P) (start : P),
      FollowsGrammar process query start (extractWith process (utf8 query) start)) ∧
    (∀ parameters, extract (utf8 query) = .ok parameters →
      processAll Parameters.process (queryPairs query) .empty = .ok parameters) ∧
    (IsWellSeparated (querySegments query) →
      extract (utf8 query) = processAll Parameters.process (queryPairs query) .empty ∧
        ∀ e, e.isStructural → extract (utf8 query) ≠ .error e) ∧
    (¬ IsWellSeparated (querySegments query) → ∃ before s after,
      IsFirstOffending (querySegments query) before s after ∧
      extract (utf8 query) =
        if equalSign ∈ s then
          (processAll Parameters.process ((before ++ [s]).map (splitFirst equalSign)) .empty).bind
            fun _ => .error .invalidQueryStringKey
        else
          (processAll Parameters.process (before.map (splitFirst equalSign)) .empty).bind
            fun _ => .error .invalidQueryStringValue) := by
  have hfollows : FollowsGrammar Parameters.process query Parameters.empty (extract (utf8 query)) :=
    extractWith_followsGrammar query Parameters.empty
  refine ⟨fun process start => extractWith_followsGrammar query start,
    fun parameters => hfollows.processAll_eq_ok, fun hw => ⟨hfollows.wellSeparated hw, ?_⟩,
    hfollows.offending⟩
  intro e he
  rw [hfollows.wellSeparated hw]
  exact processAll_ne_structural (queryPairs query) .empty he

end Unit3dAnnounce
