import Mathlib.Algebra.Order.Group.Multiset
import Mathlib.Data.Multiset.Basic
import Mathlib.Data.Multiset.Fold

/-!
# Orders and groupings of a merge

Records that are merged two at a time, in some order and some grouping, make a tree. `value` is what
the merges leave of it. A merge is independent of the order on some records when all trees over these
records leave the same.
-/

/-- A record as it came, or an older record with a newer one merged into it. -/
inductive MergeTree (α : Type*) where
  | record (a : α)
  | merge (old new : MergeTree α)

namespace MergeTree

variable {α β : Type*}

/-- The records that have been merged. -/
def leaves : MergeTree α → Multiset α
  | record a => {a}
  | merge old new => old.leaves + new.leaves

def value (op : α → α → α) : MergeTree α → α
  | record a => a
  | merge old new => op (old.value op) (new.value op)

def map (f : α → β) : MergeTree α → MergeTree β
  | record a => record (f a)
  | merge old new => merge (old.map f) (new.map f)

/-- One record after the other. -/
def foldl (t : MergeTree α) (records : List α) : MergeTree α :=
  records.foldl (fun t a => t.merge (record a)) t

@[simp] lemma leaves_record (a : α) : (record a).leaves = {a} := rfl

@[simp] lemma leaves_merge (old new : MergeTree α) :
    (old.merge new).leaves = old.leaves + new.leaves := rfl

@[simp] lemma leaves_map (f : α → β) (t : MergeTree α) : (t.map f).leaves = t.leaves.map f := by
  induction t with
  | record a => rfl
  | merge old new hold hnew => rw [map, leaves, leaves, hold, hnew, Multiset.map_add]

lemma value_map {op : α → α → α} {op' : β → β → β} {f : α → β}
    (h : ∀ a b, f (op a b) = op' (f a) (f b)) (t : MergeTree α) :
    (t.map f).value op' = f (t.value op) := by
  induction t with
  | record a => rfl
  | merge old new hold hnew => rw [map, value, value, hold, hnew, h]

lemma leaves_foldl (t : MergeTree α) (records : List α) :
    (t.foldl records).leaves = t.leaves + records := by
  induction records generalizing t with
  | nil => exact (add_zero _).symm
  | cons a records ih =>
    have hnext := ih (t.merge (record a))
    rw [leaves_merge, leaves_record, add_assoc, Multiset.singleton_add] at hnext
    exact hnext

lemma value_foldl (op : α → α → α) (t : MergeTree α) (records : List α) :
    (t.foldl records).value op = records.foldl op (t.value op) := by
  induction records generalizing t with
  | nil => rfl
  | cons a records ih => exact ih (t.merge (record a))

/-- Some records can be merged in some way, unless there are none. -/
lemma exists_leaves_eq {s : Multiset α} (h : s ≠ 0) : ∃ t : MergeTree α, t.leaves = s := by
  obtain ⟨a, ha⟩ := Multiset.exists_mem_of_ne_zero h
  obtain ⟨s, rfl⟩ := Multiset.exists_cons_of_mem ha
  refine ⟨(record a).foldl s.toList, ?_⟩
  rw [leaves_foldl, Multiset.coe_toList, leaves_record, Multiset.singleton_add]

/-- Two shares of an image are images of two shares. -/
lemma exists_add_of_map_eq_add {f : α → β} {s : Multiset α} {u v : Multiset β}
    (h : s.map f = u + v) : ∃ s₁ s₂, s = s₁ + s₂ ∧ s₁.map f = u ∧ s₂.map f = v := by
  classical
  induction u using Multiset.induction generalizing s with
  | empty => exact ⟨0, s, (zero_add s).symm, rfl, by rw [h, zero_add]⟩
  | cons b u ih =>
    rw [Multiset.cons_add, ← Multiset.map_eq_cons] at h
    obtain ⟨a, ha, rfl, hrest⟩ := h
    obtain ⟨s₁, s₂, hsplit, hs₁, hs₂⟩ := ih hrest
    refine ⟨a ::ₘ s₁, s₂, ?_, ?_, hs₂⟩
    · rw [Multiset.cons_add, ← hsplit, Multiset.cons_erase ha]
    · rw [Multiset.map_cons, hs₁]

/-- A tree over an image is the image of a tree. -/
lemma exists_map_eq {f : α → β} {s : Multiset α} {t : MergeTree β} (h : t.leaves = s.map f) :
    ∃ t' : MergeTree α, t'.leaves = s ∧ t'.map f = t := by
  induction t generalizing s with
  | record b =>
    obtain ⟨a, rfl, rfl⟩ := Multiset.map_eq_singleton.mp h.symm
    exact ⟨record a, rfl, rfl⟩
  | merge old new hold hnew =>
    obtain ⟨s₁, s₂, rfl, hs₁, hs₂⟩ := exists_add_of_map_eq_add h.symm
    obtain ⟨old', rfl, rfl⟩ := hold hs₁.symm
    obtain ⟨new', rfl, rfl⟩ := hnew hs₂.symm
    exact ⟨old'.merge new', rfl, rfl⟩

/-- All orders and groupings of the records leave the same. -/
def OrderIndependent (op : α → α → α) (s : Multiset α) : Prop :=
  ∀ t t' : MergeTree α, t.leaves = s → t'.leaves = s → t.value op = t'.value op

/-- What is read from a record does not depend on the order if and only if the merge of what is
read does not. -/
lemma orderIndependent_map {op : α → α → α} {op' : β → β → β} {f : α → β}
    (h : ∀ a b, f (op a b) = op' (f a) (f b)) {s : Multiset α} :
    OrderIndependent op' (s.map f) ↔ ∀ t t' : MergeTree α, t.leaves = s → t'.leaves = s →
      f (t.value op) = f (t'.value op) := by
  constructor
  · intro hs t t' ht ht'
    rw [← value_map h, ← value_map h]
    apply hs
    · rw [leaves_map, ht]
    · rw [leaves_map, ht']
  · intro hs u u' hu hu'
    obtain ⟨t, ht, rfl⟩ := exists_map_eq hu
    obtain ⟨t', ht', rfl⟩ := exists_map_eq hu'
    rw [value_map h, value_map h]
    exact hs t t' ht ht'

lemma orderIndependent_map_injective {op : α → α → α} {op' : β → β → β} {f : α → β}
    (h : ∀ a b, f (op a b) = op' (f a) (f b)) (hf : Function.Injective f) {s : Multiset α} :
    OrderIndependent op' (s.map f) ↔ OrderIndependent op s := by
  rw [orderIndependent_map h]
  simp only [OrderIndependent, hf.eq_iff]

/-- Merges that commute and associate, with a record that adds nothing, leave the fold. -/
lemma value_eq_fold {op : α → α → α} [Std.Commutative op] [Std.Associative op] {e : α}
    (he : ∀ a, op a e = a) (t : MergeTree α) : t.value op = t.leaves.fold op e := by
  induction t with
  | record a => rw [value, leaves, Multiset.fold_singleton, he]
  | merge old new hold hnew =>
    have hfold := Multiset.fold_add op e e old.leaves new.leaves
    rw [he] at hfold
    rw [value, leaves, hold, hnew, hfold]

lemma orderIndependent_of_comm {op : α → α → α} [Std.Commutative op] [Std.Associative op] {e : α}
    (he : ∀ a, op a e = a) (s : Multiset α) : OrderIndependent op s := by
  intro t t' ht ht'
  rw [value_eq_fold he, value_eq_fold he, ht, ht']

end MergeTree
