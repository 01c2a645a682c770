import Mathlib.Algebra.BigOperators.Group.List.Lemmas
import Mathlib.Algebra.Order.BigOperators.Group.List
import Mathlib.Algebra.Order.Ring.Nat
import Mathlib.Data.List.Lookmap
import Mathlib.Data.List.Nodup
import Mathlib.Data.List.Sort

/-!
# Insertion-ordered maps

A map whose entries keep the order of their insertion, as the hash maps of the
`indexmap` family do: an update stays in place, a new key goes to the back, and
`swapRemove` fills the hole with the last entry. Distinct keys are part of the type.
Besides the lookup of every operation, the file gives what a sum over the entries
becomes, which is what counting invariants are made of.
-/

structure IndexMap (K V : Type) where
  entries : List (K × V)
  nodup : (entries.map Prod.fst).Nodup

namespace IndexMap

variable {K V W M : Type} [DecidableEq K]

def empty : IndexMap K V := ⟨[], List.nodup_nil⟩

instance : Inhabited (IndexMap K V) := ⟨empty⟩

def get? (m : IndexMap K V) (k : K) : Option V := m.entries.lookup k

def contains (m : IndexMap K V) (k : K) : Bool := (m.get? k).isSome

def size (m : IndexMap K V) : ℕ := m.entries.length

omit [DecidableEq K] in
@[ext] lemma ext {m n : IndexMap K V} (h : m.entries = n.entries) : m = n := by
  cases m
  cases n
  simpa using h

lemma lookup_eq_none_iff_notMem (l : List (K × V)) (k : K) :
    l.lookup k = none ↔ k ∉ l.map Prod.fst := by
  rw [List.lookup_eq_none_iff, List.mem_map]
  constructor
  · rintro h ⟨e, he, rfl⟩
    simpa using h e he
  · intro h e he
    have hne : k ≠ e.1 := fun hk => h ⟨e, he, hk.symm⟩
    simpa using hne

lemma get?_eq_none {m : IndexMap K V} {k : K} : m.get? k = none ↔ k ∉ m.entries.map Prod.fst :=
  lookup_eq_none_iff_notMem _ _

lemma lookup_append (l₁ l₂ : List (K × V)) (k : K) :
    (l₁ ++ l₂).lookup k = (l₁.lookup k).or (l₂.lookup k) := List.lookup_append

lemma lookup_eq_some_of_mem {l : List (K × V)} (hl : (l.map Prod.fst).Nodup) {k : K} {v : V}
    (h : (k, v) ∈ l) : l.lookup k = some v := by
  obtain ⟨a, b, rfl⟩ := List.append_of_mem h
  have hk : k ∉ a.map Prod.fst := by
    rw [List.map_append, List.map_cons] at hl
    exact fun hka => (List.disjoint_of_nodup_append hl) hka (by simp)
  rw [lookup_append, (lookup_eq_none_iff_notMem a k).mpr hk, Option.none_or, List.lookup_cons_self]

lemma mem_of_lookup_eq_some {l : List (K × V)} {k : K} {v : V} (h : l.lookup k = some v) :
    (k, v) ∈ l := by
  obtain ⟨a, b, rfl, -⟩ := List.lookup_eq_some_iff.mp h
  simp

lemma get?_eq_some {m : IndexMap K V} {k : K} {v : V} :
    m.get? k = some v ↔ (k, v) ∈ m.entries :=
  ⟨mem_of_lookup_eq_some, lookup_eq_some_of_mem m.nodup⟩

/-- The entry of a stored key, with everything before and after it. -/
lemma split_of_get? {m : IndexMap K V} {k : K} {v : V} (h : m.get? k = some v) :
    ∃ a b, m.entries = a ++ (k, v) :: b ∧ k ∉ a.map Prod.fst ∧ k ∉ b.map Prod.fst := by
  obtain ⟨a, b, hab⟩ := List.append_of_mem (get?_eq_some.mp h)
  have hnd := m.nodup
  rw [hab, List.map_append, List.map_cons, List.nodup_append] at hnd
  refine ⟨a, b, hab, fun hka => hnd.2.2 k hka k (by simp) rfl, ?_⟩
  exact (List.nodup_cons.mp hnd.2.1).1

@[simp] lemma get?_empty (k : K) : (empty : IndexMap K V).get? k = none := rfl

lemma contains_eq_true {m : IndexMap K V} {k : K} : m.contains k = true ↔ ∃ v, m.get? k = some v := by
  rw [contains, Option.isSome_iff_exists]

lemma contains_eq_false {m : IndexMap K V} {k : K} : m.contains k = false ↔ m.get? k = none := by
  rw [contains, Option.isSome_eq_false_iff, Option.isNone_iff_eq_none]

/-- Replaces the value of `k`, where it is stored, by its image under `f`. -/
def modify (m : IndexMap K V) (k : K) (f : V → V) : IndexMap K V where
  entries := m.entries.map (fun e => if e.1 = k then (e.1, f e.2) else e)
  nodup := by
    have h : Prod.fst ∘ (fun e : K × V => if e.1 = k then (e.1, f e.2) else e) = Prod.fst := by
      funext e
      by_cases he : e.1 = k <;> simp [he]
    rw [List.map_map, h]
    exact m.nodup

/-- `entry(k).and_modify(f).or_insert(v)`. -/
def upsert (m : IndexMap K V) (k : K) (f : V → V) (v : V) : IndexMap K V :=
  if h : m.get? k = none then
    ⟨m.entries ++ [(k, v)], by
      rw [List.map_append, List.nodup_append]
      refine ⟨m.nodup, by simp, ?_⟩
      rintro a ha b hb rfl
      have hk : a = k := by simpa using hb
      exact get?_eq_none.mp h (hk ▸ ha)⟩
  else m.modify k f

def insert (m : IndexMap K V) (k : K) (v : V) : IndexMap K V := m.upsert k (fun _ => v) v

/-- The entries with that of `k` removed and the last entry moved into its place. -/
def swapRemoveEntries (l : List (K × V)) (k : K) : List (K × V) :=
  match l.getLast? with
  | none => []
  | some last =>
    if last.1 = k then l.dropLast
    else if (l.lookup k).isSome then l.dropLast.map (fun e => if e.1 = k then last else e)
    else l

lemma map_eq_self_of_notMem {l : List (K × V)} {k : K} (h : k ∉ l.map Prod.fst)
    (g : K × V → K × V) :
    l.map (fun e => if e.1 = k then g e else e) = l := by
  rw [List.map_congr_left (g := id) (fun e he => ?_), List.map_id]
  have hne : e.1 ≠ k := fun hk => h (hk ▸ List.mem_map_of_mem he)
  simp [hne]

lemma swapRemoveEntries_of_lookup_none {l : List (K × V)} {k : K} (h : l.lookup k = none) :
    swapRemoveEntries l k = l := by
  rcases List.eq_nil_or_concat l with rfl | ⟨a, last, rfl⟩
  · rfl
  · have hne : last.1 ≠ k := by
      have hk := (lookup_eq_none_iff_notMem _ _).mp h
      simp only [List.concat_eq_append, List.map_append, List.mem_append] at hk
      exact fun he => hk (Or.inr (by simp [he]))
    simp only [List.concat_eq_append] at h ⊢
    simp only [swapRemoveEntries, List.getLast?_append, List.getLast?_singleton, Option.some_or,
      hne, if_false, h, Option.isSome_none, Bool.false_eq_true]

/-- Removing a stored entry leaves a permutation of the others. -/
lemma swapRemoveEntries_perm {l : List (K × V)} (hl : (l.map Prod.fst).Nodup) {k : K} {v : V}
    (h : l.lookup k = some v) : l.Perm ((k, v) :: swapRemoveEntries l k) := by
  rcases List.eq_nil_or_concat l with rfl | ⟨init, last, rfl⟩
  · simp at h
  rw [List.concat_eq_append] at h hl ⊢
  by_cases hlast : last.1 = k
  · have hv : last = (k, v) := by
      have hmem : (k, last.2) ∈ init ++ [last] := by simp [← hlast]
      have h2 := lookup_eq_some_of_mem hl hmem
      rw [h, Option.some_inj] at h2
      exact Prod.ext hlast h2.symm
    simp only [swapRemoveEntries, List.getLast?_append, List.getLast?_singleton,
      Option.some_or, hlast, if_true, List.dropLast_concat]
    rw [hv]
    exact List.perm_append_comm
  · have hinit : (k, v) ∈ init := by
      rcases List.mem_append.mp (mem_of_lookup_eq_some h) with hi | hi
      · exact hi
      · exact absurd (congrArg Prod.fst (List.mem_singleton.mp hi)).symm hlast
    have hnd : (init.map Prod.fst).Nodup := by
      rw [List.map_append] at hl
      exact hl.of_append_left
    obtain ⟨a, b, rfl, hka, hkb⟩ := split_of_get? (m := ⟨init, hnd⟩)
      (get?_eq_some.mpr hinit)
    simp only [swapRemoveEntries, List.getLast?_append, List.getLast?_singleton,
      Option.some_or, hlast, if_false, List.dropLast_concat, h, Option.isSome_some, if_true,
      List.map_append, List.map_cons]
    rw [map_eq_self_of_notMem hka, map_eq_self_of_notMem hkb]
    have h1 : (a ++ (k, v) :: b ++ [last]).Perm ((k, v) :: (a ++ b ++ [last])) := by
      simp only [List.append_assoc, List.cons_append]
      exact List.perm_middle
    refine h1.trans (List.Perm.cons _ ?_)
    rw [List.append_assoc]
    exact List.Perm.append_left a List.perm_append_comm

def swapRemove (m : IndexMap K V) (k : K) : IndexMap K V where
  entries := swapRemoveEntries m.entries k
  nodup := by
    cases h : m.get? k with
    | none => rw [swapRemoveEntries_of_lookup_none h]; exact m.nodup
    | some v =>
      have hp := ((swapRemoveEntries_perm m.nodup h).map Prod.fst).nodup_iff.mp m.nodup
      exact (List.nodup_cons.mp hp).2

omit [DecidableEq K] in
lemma nodup_of_sublist {l l' : List (K × V)} (h : l'.Sublist l) (hl : (l.map Prod.fst).Nodup) :
    (l'.map Prod.fst).Nodup := (h.map Prod.fst).nodup hl

/-- Keeps the entries that satisfy `p`. -/
def retain (m : IndexMap K V) (p : K → V → Bool) : IndexMap K V :=
  ⟨m.entries.filter (fun e => p e.1 e.2), nodup_of_sublist List.filter_sublist m.nodup⟩

/-- Replaces every value, as a loop over `iter_mut` does. -/
def mapValues (m : IndexMap K V) (f : K → V → W) : IndexMap K W where
  entries := m.entries.map (fun e => (e.1, f e.1 e.2))
  nodup := by
    rw [List.map_map]
    exact m.nodup

/-- The first `n` entries. -/
def take (m : IndexMap K V) (n : ℕ) : IndexMap K V :=
  ⟨m.entries.take n, nodup_of_sublist (List.take_sublist n _) m.nodup⟩

/-- All but the first `n` entries. -/
def drop (m : IndexMap K V) (n : ℕ) : IndexMap K V :=
  ⟨m.entries.drop n, nodup_of_sublist (List.drop_sublist n _) m.nodup⟩

/-- The entries in the order of their keys. -/
def sortByKey [Ord K] (m : IndexMap K V) : IndexMap K V where
  entries := m.entries.insertionSort (fun a b => (compare a.1 b.1).isLE = true)
  nodup := (((List.perm_insertionSort _ m.entries).map Prod.fst).nodup_iff).mpr m.nodup

lemma get?_modify (m : IndexMap K V) (k k' : K) (f : V → V) :
    (m.modify k f).get? k' = if k' = k then (m.get? k').map f else m.get? k' := by
  obtain ⟨l, hl⟩ := m
  simp only [modify, get?]
  clear hl
  induction l with
  | nil => simp
  | cons e l ih =>
    obtain ⟨a, v⟩ := e
    by_cases ha : a = k
    · subst ha
      simp only [List.map_cons, if_true, List.lookup_cons]
      by_cases hk : k' = a
      · simp [hk]
      · have hb : (k' == a) = false := by simpa using hk
        simpa [hb, hk] using ih
    · simp only [List.map_cons, ha, if_false, List.lookup_cons]
      by_cases hk : k' = a
      · simp [hk, ha]
      · have hb : (k' == a) = false := by simpa using hk
        simpa [hb] using ih

lemma get?_upsert (m : IndexMap K V) (k k' : K) (f : V → V) (v : V) :
    (m.upsert k f v).get? k' =
      if k' = k then some ((m.get? k).elim v f) else m.get? k' := by
  unfold upsert
  split
  · rename_i h
    simp only [get?, lookup_append] at h ⊢
    by_cases hk : k' = k
    · subst hk
      simp [h]
    · have h2 : (k' == k) = false := by simpa using hk
      simp [hk, List.lookup_cons, h2]
  · rename_i h
    obtain ⟨w, hw⟩ := Option.ne_none_iff_exists'.mp h
    rw [get?_modify]
    by_cases hk : k' = k
    · subst hk
      simp [hw]
    · simp [hk]

lemma get?_insert (m : IndexMap K V) (k k' : K) (v : V) :
    (m.insert k v).get? k' = if k' = k then some v else m.get? k' := by
  rw [insert, get?_upsert]
  cases m.get? k <;> rfl

lemma eq_of_get?_insert_empty {k k' : K} {v w : V} (h : (insert empty k v).get? k' = some w) :
    k' = k ∧ w = v := by
  rw [get?_insert] at h
  split_ifs at h with hk
  · exact ⟨hk, (Option.some_inj.mp h).symm⟩
  · simp at h

lemma get?_swapRemove (m : IndexMap K V) (k k' : K) :
    (m.swapRemove k).get? k' = if k' = k then none else m.get? k' := by
  cases h : m.get? k with
  | none =>
    have he : m.swapRemove k = m := ext (swapRemoveEntries_of_lookup_none h)
    rw [he]
    by_cases hk : k' = k
    · simp [hk, h]
    · simp [hk]
  | some v =>
    have hp : m.entries.Perm ((k, v) :: (m.swapRemove k).entries) := swapRemoveEntries_perm m.nodup h
    have hnd := (hp.map Prod.fst).nodup_iff.mp m.nodup
    by_cases hk : k' = k
    · subst hk
      rw [if_pos rfl]
      exact get?_eq_none.mpr (List.nodup_cons.mp hnd).1
    · rw [if_neg hk]
      apply Option.ext
      intro w
      rw [get?_eq_some, get?_eq_some, hp.mem_iff, List.mem_cons]
      exact ⟨Or.inr, fun ho => ho.resolve_left (fun he => hk (congrArg Prod.fst he))⟩

lemma get?_retain (m : IndexMap K V) (p : K → V → Bool) (k : K) :
    (m.retain p).get? k = (m.get? k).filter (p k) := by
  apply Option.ext
  intro v
  rw [get?_eq_some, Option.filter_eq_some_iff, get?_eq_some]
  exact List.mem_filter

lemma get?_mapValues (m : IndexMap K V) (f : K → V → W) (k : K) :
    (m.mapValues f).get? k = (m.get? k).map (f k) := by
  apply Option.ext
  intro w
  rw [get?_eq_some, Option.map_eq_some_iff]
  simp only [mapValues, List.mem_map, get?_eq_some, Prod.mk.injEq, Prod.exists]
  constructor
  · rintro ⟨a, b, hab, rfl, rfl⟩
    exact ⟨b, hab, rfl⟩
  · rintro ⟨b, hb, rfl⟩
    exact ⟨k, b, hb, rfl, rfl⟩

/-- Changing one value is a loop over all of them. -/
lemma modify_eq_mapValues (m : IndexMap K V) (k : K) (f : V → V) :
    m.modify k f = m.mapValues (fun k' v => if k' = k then f v else v) := by
  apply ext
  simp only [modify, mapValues]
  apply List.map_congr_left
  intro e _
  by_cases he : e.1 = k <;> simp [he]

omit [DecidableEq K] in
lemma mapValues_mapValues {X : Type} (m : IndexMap K V) (f : K → V → W) (g : K → W → X) :
    (m.mapValues f).mapValues g = m.mapValues (fun k v => g k (f k v)) := by
  apply ext
  simp [mapValues]

omit [DecidableEq K] in
lemma mapValues_eq_self (m : IndexMap K V) {f : K → V → V} (h : ∀ k v, f k v = v) :
    m.mapValues f = m := by
  apply ext
  simp [mapValues, h]

/-- Upserts every entry of `b`, in order: a stored value is updated by `f`, a new key starts
with `g`. -/
def upsertAll (m : IndexMap K W) (b : IndexMap K V) (f : K → V → W → W) (g : K → V → W) :
    IndexMap K W :=
  b.entries.foldl (fun m e => m.upsert e.1 (f e.1 e.2) (g e.1 e.2)) m

lemma get?_foldl_upsert (l : List (K × V)) (hl : (l.map Prod.fst).Nodup) (m : IndexMap K W)
    (f : K → V → W → W) (g : K → V → W) (k : K) :
    (l.foldl (fun m e => m.upsert e.1 (f e.1 e.2) (g e.1 e.2)) m).get? k =
      match l.lookup k with
      | none => m.get? k
      | some v => some ((m.get? k).elim (g k v) (f k v)) := by
  induction l generalizing m with
  | nil => rfl
  | cons e l ih =>
    obtain ⟨a, v⟩ := e
    rw [List.map_cons, List.nodup_cons] at hl
    rw [List.foldl_cons, ih hl.2, get?_upsert, List.lookup_cons]
    by_cases hk : k = a
    · subst hk
      simp [(lookup_eq_none_iff_notMem l k).mpr hl.1]
    · have hb : (k == a) = false := by simpa using hk
      simp only [hb, hk, if_false]

lemma get?_upsertAll (m : IndexMap K W) (b : IndexMap K V) (f : K → V → W → W) (g : K → V → W)
    (k : K) : (m.upsertAll b f g).get? k =
      match b.get? k with
      | none => m.get? k
      | some v => some ((m.get? k).elim (g k v) (f k v)) :=
  get?_foldl_upsert b.entries b.nodup m f g k

/-- Inserts the image of every entry, in order, and fails when one has none. -/
def collect (m : IndexMap K V) (f : K → V → Option W) : Option (IndexMap K W) :=
  m.entries.foldlM (fun n e => (f e.1 e.2).map (n.insert e.1)) empty

lemma get?_foldlM_insert (l : List (K × V)) (hl : (l.map Prod.fst).Nodup) (f : K → V → Option W)
    {m n : IndexMap K W} (h : l.foldlM (fun n e => (f e.1 e.2).map (n.insert e.1)) m = some n) (k : K) :
    match l.lookup k with
    | none => n.get? k = m.get? k
    | some v => ∃ w, f k v = some w ∧ n.get? k = some w := by
  induction l generalizing m with
  | nil =>
    simp only [List.foldlM_nil, Option.pure_def, Option.some_inj] at h
    rw [h]
    rfl
  | cons e l ih =>
    obtain ⟨a, v⟩ := e
    rw [List.map_cons, List.nodup_cons] at hl
    rw [List.foldlM_cons, Option.bind_eq_bind, Option.bind_eq_some_iff] at h
    obtain ⟨m', hm, hn⟩ := h
    obtain ⟨w, hw, rfl⟩ := Option.map_eq_some_iff.mp hm
    have hrest := ih hl.2 hn
    rw [List.lookup_cons]
    by_cases hk : k = a
    · subst hk
      have hnone : l.lookup k = none := (lookup_eq_none_iff_notMem l k).mpr hl.1
      rw [hnone] at hrest
      simp only [beq_self_eq_true]
      refine ⟨w, hw, ?_⟩
      rw [hrest, get?_insert, if_pos rfl]
    · have hb : (k == a) = false := by simpa using hk
      simp only [hb]
      cases hlk : l.lookup k with
      | none =>
        rw [hlk] at hrest
        simp only at hrest ⊢
        rw [hrest, get?_insert, if_neg hk]
      | some v' =>
        rw [hlk] at hrest
        exact hrest

/-- What is collected under a key is the image of what was stored there. -/
lemma get?_collect {m : IndexMap K V} {f : K → V → Option W} {n : IndexMap K W}
    (h : m.collect f = some n) (k : K) : n.get? k = (m.get? k).bind (f k) := by
  have hk := get?_foldlM_insert m.entries m.nodup f h k
  have hget : m.get? k = m.entries.lookup k := rfl
  rw [hget]
  cases hl : m.entries.lookup k with
  | none =>
    rw [hl] at hk
    exact hk
  | some v =>
    rw [hl] at hk
    obtain ⟨w, hw, hn⟩ := hk
    rw [hn, Option.bind_some, hw]

lemma contains_collect {m : IndexMap K V} {f : K → V → Option W} {n : IndexMap K W}
    (h : m.collect f = some n) (k : K) : n.contains k = m.contains k := by
  have hk := get?_foldlM_insert m.entries m.nodup f h k
  have hget : m.get? k = m.entries.lookup k := rfl
  unfold contains
  rw [hget]
  cases hl : m.entries.lookup k with
  | none =>
    rw [hl] at hk
    rw [hk]
    rfl
  | some v =>
    rw [hl] at hk
    obtain ⟨w, -, hn⟩ := hk
    rw [hn]
    rfl

/-- The values stored under `k`, read off the entries. -/
lemma filterMap_entries (m : IndexMap K V) (k : K) :
    m.entries.filterMap (fun e => if e.1 = k then some e.2 else none) = (m.get? k).toList := by
  obtain ⟨l, hl⟩ := m
  simp only [get?]
  induction l with
  | nil => rfl
  | cons e l ih =>
    obtain ⟨a, v⟩ := e
    rw [List.map_cons, List.nodup_cons] at hl
    rw [List.filterMap_cons, List.lookup_cons, ih hl.2]
    by_cases ha : a = k
    · subst ha
      simp [(lookup_eq_none_iff_notMem l a).mpr hl.1]
    · have hb : (k == a) = false := by simpa using fun h => ha h.symm
      simp [ha, hb]

/-- `n` is `m` with the entry of `k` changed from `old` to `new`, where `none` stands for a key
that is not stored. -/
structure Alters (m n : IndexMap K V) (k : K) (old new : Option V) : Prop where
  before : m.get? k = old
  after : ∀ k', n.get? k' = if k' = k then new else m.get? k'
  perm : (m.entries ++ (new.map (Prod.mk k)).toList).Perm
    (n.entries ++ (old.map (Prod.mk k)).toList)

lemma map_modify_eq (a b : List (K × V)) {k : K} {v : V} (ha : k ∉ a.map Prod.fst)
    (hb : k ∉ b.map Prod.fst) (f : V → V) :
    (a ++ (k, v) :: b).map (fun e => if e.1 = k then (e.1, f e.2) else e) = a ++ (k, f v) :: b := by
  rw [List.map_append, List.map_cons, map_eq_self_of_notMem ha, map_eq_self_of_notMem hb]
  simp

lemma alters_modify {m : IndexMap K V} {k : K} {v : V} (h : m.get? k = some v) (f : V → V) :
    Alters m (m.modify k f) k (some v) (some (f v)) := by
  obtain ⟨a, b, hab, ha, hb⟩ := split_of_get? h
  refine ⟨h, fun k' => ?_, ?_⟩
  · rw [get?_modify]
    split_ifs with hk
    · rw [hk, h, Option.map_some]
    · rfl
  simp only [modify, hab, map_modify_eq a b ha hb, Option.map_some, Option.toList_some]
  simp only [List.append_assoc, List.cons_append]
  refine List.Perm.append_left a ?_
  have h1 : ((k, v) :: (b ++ [(k, f v)])).Perm ((k, v) :: (k, f v) :: b) :=
    List.Perm.cons _ (List.perm_append_singleton _ _)
  have h2 : ((k, f v) :: (b ++ [(k, v)])).Perm ((k, f v) :: (k, v) :: b) :=
    List.Perm.cons _ (List.perm_append_singleton _ _)
  exact h1.trans ((List.Perm.swap _ _ _).trans h2.symm)

lemma alters_insert {m : IndexMap K V} {k : K} (h : m.get? k = none) (v : V) :
    Alters m (m.insert k v) k none (some v) := by
  refine ⟨h, fun k' => get?_insert m k k' v, ?_⟩
  simp [insert, upsert, h]

lemma alters_swapRemove {m : IndexMap K V} {k : K} {v : V} (h : m.get? k = some v) :
    Alters m (m.swapRemove k) k (some v) none := by
  refine ⟨h, fun k' => get?_swapRemove m k k', ?_⟩
  have hp : m.entries.Perm ((k, v) :: (m.swapRemove k).entries) := swapRemoveEntries_perm m.nodup h
  simp only [Option.map_none, Option.toList_none, List.append_nil, Option.map_some,
    Option.toList_some]
  exact hp.trans (List.perm_append_singleton _ _).symm

lemma Alters.contains {m n : IndexMap K V} {k : K} {old new : Option V} (h : Alters m n k old new) :
    n.contains = Function.update m.contains k new.isSome := by
  funext k'
  unfold IndexMap.contains
  rw [h.after k']
  by_cases hk : k' = k
  · subst hk
    rw [if_pos rfl, Function.update_self]
  · rw [if_neg hk, Function.update_of_ne hk]

/-- A freshly inserted entry is the last one, and removing it restores the map, order included. -/
lemma swapRemove_insert_of_get?_none {m : IndexMap K V} {k : K} (h : m.get? k = none) (v : V) :
    (m.insert k v).swapRemove k = m := by
  apply ext
  simp [swapRemove, swapRemoveEntries, insert, upsert, h]

lemma modify_const_of_get? {m : IndexMap K V} {k : K} {v : V} (h : m.get? k = some v) :
    m.modify k (fun _ => v) = m := by
  obtain ⟨a, b, hab, ha, hb⟩ := split_of_get? h
  apply ext
  simp only [modify, hab]
  exact map_modify_eq a b ha hb (fun _ => v)

lemma modify_of_get?_none {m : IndexMap K V} {k : K} (h : m.get? k = none) (f : V → V) :
    m.modify k f = m :=
  ext (map_eq_self_of_notMem (get?_eq_none.mp h) (fun e => (e.1, f e.2)))

section Sums

variable [AddCommMonoid M]

def sumOver (m : IndexMap K V) (f : K → V → M) : M := (m.entries.map (fun e => f e.1 e.2)).sum

omit [DecidableEq K] in
lemma sumOver_congr {m : IndexMap K V} {f g : K → V → M} (h : ∀ e ∈ m.entries, f e.1 e.2 = g e.1 e.2) :
    m.sumOver f = m.sumOver g := by
  unfold sumOver
  rw [List.map_congr_left h]

/-- Changing one entry changes a sum by what that entry contributes. -/
lemma Alters.sumOver {m n : IndexMap K V} {k : K} {old new : Option V} (h : Alters m n k old new)
    (f : K → V → M) : m.sumOver f + new.elim 0 (f k) = n.sumOver f + old.elim 0 (f k) := by
  have hp := (h.perm.map (fun e => f e.1 e.2)).sum_eq
  rw [List.map_append, List.sum_append, List.map_append, List.sum_append] at hp
  have hopt (o : Option V) :
      ((o.map (Prod.mk k)).toList.map (fun e => f e.1 e.2)).sum = o.elim 0 (f k) := by
    cases o <;> simp
  simpa only [hopt, IndexMap.sumOver] using hp

omit [DecidableEq K] in
lemma sumOver_mapValues (m : IndexMap K V) (g : K → V → W) (f : K → W → M) :
    (m.mapValues g).sumOver f = m.sumOver (fun k v => f k (g k v)) := by
  simp only [IndexMap.sumOver, mapValues, List.map_map]
  rfl

omit [DecidableEq K] in
lemma sumOver_retain (m : IndexMap K V) (p : K → V → Bool) (f : K → V → M)
    (h : ∀ k v, p k v = false → f k v = 0) : (m.retain p).sumOver f = m.sumOver f := by
  obtain ⟨l, hl⟩ := m
  simp only [IndexMap.sumOver, retain]
  clear hl
  induction l with
  | nil => rfl
  | cons e l ih =>
    cases hp : p e.1 e.2 with
    | true => simp [hp, ih]
    | false => simp [hp, ih, h _ _ hp]

omit [DecidableEq K] in
lemma sumOver_add (m : IndexMap K V) (f g : K → V → M) :
    m.sumOver (fun k v => f k v + g k v) = m.sumOver f + m.sumOver g := List.sum_map_add

end Sums

omit [DecidableEq K] in
lemma sumOver_le_sumOver (m : IndexMap K V) {f g : K → V → ℕ} (h : ∀ k v, f k v ≤ g k v) :
    m.sumOver f ≤ m.sumOver g := List.sum_le_sum fun e _ => h e.1 e.2

lemma le_sumOver {m : IndexMap K V} {k : K} {v : V} (h : m.get? k = some v) (f : K → V → ℕ) :
    f k v ≤ m.sumOver f :=
  List.single_le_sum (by simp) _ (List.mem_map_of_mem (f := fun e : K × V => f e.1 e.2)
    (get?_eq_some.mp h))

/-- The number of entries that satisfy `p`. -/
def count (m : IndexMap K V) (p : K → V → Bool) : ℕ := m.entries.countP (fun e => p e.1 e.2)

omit [DecidableEq K] in
lemma count_eq_sumOver (m : IndexMap K V) (p : K → V → Bool) :
    m.count p = m.sumOver (fun k v => (p k v).toNat) := by
  obtain ⟨l, hl⟩ := m
  simp only [count, sumOver]
  clear hl
  induction l with
  | nil => rfl
  | cons e l ih =>
    rw [List.countP_cons, ih, List.map_cons, List.sum_cons, Nat.add_comm]
    cases p e.1 e.2 <;> rfl

lemma Alters.count {m n : IndexMap K V} {k : K} {old new : Option V} (h : Alters m n k old new)
    (p : K → V → Bool) : m.count p + new.elim 0 (fun v => (p k v).toNat) =
      n.count p + old.elim 0 (fun v => (p k v).toNat) := by
  rw [count_eq_sumOver, count_eq_sumOver]
  exact h.sumOver _

lemma count_congr {m : IndexMap K V} {p q : K → V → Bool}
    (h : ∀ k v, m.get? k = some v → p k v = q k v) : m.count p = m.count q := by
  apply List.countP_congr
  intro e he
  rw [h e.1 e.2 (get?_eq_some.mpr he)]

omit [DecidableEq K] in
lemma count_mapValues (m : IndexMap K V) (f : K → V → W) (p : K → W → Bool) :
    (m.mapValues f).count p = m.count (fun k v => p k (f k v)) := by
  rw [count_eq_sumOver, count_eq_sumOver, sumOver_mapValues]

omit [DecidableEq K] in
lemma count_retain (m : IndexMap K V) {p q : K → V → Bool} (h : ∀ k v, q k v = true → p k v = true) :
    (m.retain p).count q = m.count q := by
  rw [count_eq_sumOver, count_eq_sumOver]
  apply sumOver_retain
  intro k v hp
  cases hq : q k v with
  | false => rfl
  | true => simp [h k v hq] at hp

omit [DecidableEq K] in
lemma count_retain_le (m : IndexMap K V) (p q : K → V → Bool) : (m.retain p).count q ≤ m.count q :=
  List.filter_sublist.countP_le

omit [DecidableEq K] in
lemma count_mono (m : IndexMap K V) {p q : K → V → Bool} (h : ∀ k v, p k v = true → q k v = true) :
    m.count p ≤ m.count q := List.countP_mono_left fun e _ => h e.1 e.2

omit [DecidableEq K] in
lemma count_and_add_count_and_not (m : IndexMap K V) (p q : K → V → Bool) :
    m.count (fun k v => p k v && q k v) + m.count (fun k v => p k v && !q k v) = m.count p := by
  simp only [count_eq_sumOver, ← sumOver_add]
  apply sumOver_congr
  intro e _
  cases p e.1 e.2 <;> cases q e.1 e.2 <;> rfl

/-- A narrower count is the same exactly when nothing that is counted fails to satisfy it. -/
lemma count_and_eq_count_iff (m : IndexMap K V) (p q : K → V → Bool) :
    m.count (fun k v => p k v && q k v) = m.count p ↔
      ∀ k v, m.get? k = some v → p k v = true → q k v = true := by
  have hsplit := m.count_and_add_count_and_not p q
  have hzero : m.count (fun k v => p k v && !q k v) = 0 ↔
      ∀ k v, m.get? k = some v → p k v = true → q k v = true := by
    simp only [count, List.countP_eq_zero, Prod.forall, get?_eq_some, Bool.and_eq_true,
      Bool.not_eq_true', not_and, Bool.not_eq_false]
  rw [← hzero]
  omega

omit [DecidableEq K] in
lemma count_le_size (m : IndexMap K V) (p : K → V → Bool) : m.count p ≤ m.size :=
  List.countP_le_length

lemma mem_keys_retain {m : IndexMap K V} {p : K → V → Bool} {k : K} :
    k ∈ (m.retain p).entries.map Prod.fst ↔ (m.get? k).any (p k) = true := by
  have hnone := get?_eq_none (m := m.retain p) (k := k)
  rw [get?_retain] at hnone
  rw [← not_iff_not, ← hnone, Option.filter_eq_none_iff, Option.any_eq_true]
  simp

/-- Maps that hold the counted values under the same keys have the same count. -/
lemma count_eq_of_get? {m : IndexMap K V} {n : IndexMap K W} {p : K → V → Bool} {q : K → W → Bool}
    (h : ∀ k, (m.get? k).any (p k) = (n.get? k).any (q k)) : m.count p = n.count q := by
  have hperm : ((m.retain p).entries.map Prod.fst).Perm ((n.retain q).entries.map Prod.fst) := by
    rw [List.perm_ext_iff_of_nodup (m.retain p).nodup (n.retain q).nodup]
    intro k
    rw [mem_keys_retain, mem_keys_retain, h k]
  have hlength := hperm.length_eq
  rw [List.length_map, List.length_map] at hlength
  rw [count, count, List.countP_eq_length_filter, List.countP_eq_length_filter]
  exact hlength

lemma contains_insert (m : IndexMap K V) (k k' : K) (v : V) :
    (m.insert k v).contains k' = true ↔ k' = k ∨ m.contains k' = true := by
  rw [contains, contains, get?_insert]
  by_cases h : k' = k
  · simp [h]
  · simp [h]

lemma contains_swapRemove (m : IndexMap K V) (k k' : K) :
    (m.swapRemove k).contains k' = true ↔ k' ≠ k ∧ m.contains k' = true := by
  rw [contains, contains, get?_swapRemove]
  by_cases h : k' = k
  · simp [h]
  · simp [h]

/-- New keys are appended. -/
lemma entries_foldl_insert {keys : List K} (v : V) {m : IndexMap K V}
    (h : (m.entries.map Prod.fst ++ keys).Nodup) :
    (keys.foldl (fun m k => m.insert k v) m).entries = m.entries ++ keys.map fun k => (k, v) := by
  induction keys generalizing m with
  | nil => simp
  | cons k keys ih =>
    have hnew : m.get? k = none := by
      rw [get?_eq_none]
      exact fun hk => (List.nodup_append.mp h).2.2 k hk k List.mem_cons_self rfl
    have hinsert : (m.insert k v).entries = m.entries ++ [(k, v)] := by
      simp only [insert, upsert, hnew, dite_true]
    rw [List.foldl_cons, ih (by rw [hinsert]; simpa using h), hinsert]
    simp

end IndexMap
