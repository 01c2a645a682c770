import Mathlib.Algebra.BigOperators.Group.Multiset.Basic
import Mathlib.Algebra.Order.BigOperators.Group.Multiset
import Mathlib.Algebra.Order.Group.MinMax
import Unit3dAnnounce.Collections.MergeTree

/-!
# Saturating sums

An addition that stops at two bounds commutes but does not associate. The sums of some values agree
in all orders and groupings exactly when no value can pull the sum back from a bound: all values have
one sign, or those of either sign stay in the range by themselves.
-/

namespace Saturating

open MergeTree

variable {G : Type*} [AddCommGroup G] [LinearOrder G] {lo hi : G}

def saturatingAdd (lo hi x y : G) : G := max lo (min (x + y) hi)

/-- Where the sum fits, saturating addition is addition. -/
lemma saturatingAdd_eq {x y : G} (hlo : lo ≤ x + y) (hhi : x + y ≤ hi) :
    saturatingAdd lo hi x y = x + y := by
  rw [saturatingAdd, min_eq_left hhi, max_eq_right hlo]

def positives (s : Multiset G) : G := (s.filter (0 < ·)).sum

def negatives (s : Multiset G) : G := (s.filter (· < 0)).sum

lemma positives_add (s t : Multiset G) : positives (s + t) = positives s + positives t := by
  rw [positives, Multiset.filter_add, Multiset.sum_add]
  rfl

lemma negatives_add (s t : Multiset G) : negatives (s + t) = negatives s + negatives t := by
  rw [negatives, Multiset.filter_add, Multiset.sum_add]
  rfl

/-- The values that are not negative sum to the positive ones. -/
lemma sum_filter_not_neg (s : Multiset G) : (s.filter (fun x => ¬ x < 0)).sum = positives s := by
  unfold positives
  induction s using Multiset.induction with
  | empty => rfl
  | cons x s ih =>
    rcases lt_trichotomy x 0 with hx | rfl | hx
    · rw [Multiset.filter_cons_of_neg (p := fun x => ¬ x < 0) _ (not_not.mpr hx),
        Multiset.filter_cons_of_neg _ hx.not_gt, ih]
    · rw [Multiset.filter_cons_of_pos (p := fun x => ¬ x < 0) _ (lt_irrefl _),
        Multiset.filter_cons_of_neg _ (lt_irrefl _), Multiset.sum_cons, ih, zero_add]
    · rw [Multiset.filter_cons_of_pos (p := fun x => ¬ x < 0) _ hx.not_gt,
        Multiset.filter_cons_of_pos _ hx, Multiset.sum_cons, Multiset.sum_cons, ih]

lemma negatives_add_positives (s : Multiset G) : negatives s + positives s = s.sum := by
  rw [negatives, ← sum_filter_not_neg, ← Multiset.sum_add, Multiset.filter_add_not]

variable [IsOrderedAddMonoid G]

lemma positives_nonneg (s : Multiset G) : 0 ≤ positives s := by
  apply Multiset.sum_nonneg
  intro x hx
  exact (Multiset.mem_filter.mp hx).2.le

lemma positives_neg (s : Multiset G) : positives (s.map Neg.neg) = -negatives s := by
  rw [positives, negatives, Multiset.filter_map, ← Multiset.sum_map_neg']
  congr 2
  apply Multiset.filter_congr
  intro x _
  exact neg_pos

lemma negatives_nonpos (s : Multiset G) : negatives s ≤ 0 := by
  have h := positives_nonneg (s.map Neg.neg)
  rwa [positives_neg, neg_nonneg] at h

lemma negatives_lt {s : Multiset G} {x : G} (hx : x ∈ s) (hx0 : x < 0) : negatives s < 0 := by
  obtain ⟨s, rfl⟩ := Multiset.exists_cons_of_mem hx
  rw [negatives, Multiset.filter_cons_of_pos (p := fun x => x < 0) _ hx0, Multiset.sum_cons]
  exact add_neg_of_neg_of_nonpos hx0 (negatives_nonpos s)

lemma neg_saturatingAdd (h : lo ≤ hi) (x y : G) :
    -saturatingAdd lo hi x y = saturatingAdd (-hi) (-lo) (-x) (-y) := by
  unfold saturatingAdd
  rw [← neg_add, min_neg_neg, max_neg_neg, max_min_distrib_left, max_eq_right h, min_comm, max_comm]

/-- Sums of the negated values, between the negated bounds. -/
lemma orderIndependent_neg (h : lo ≤ hi) {s : Multiset G} :
    OrderIndependent (saturatingAdd (-hi) (-lo)) (s.map Neg.neg) ↔
      OrderIndependent (saturatingAdd lo hi) s :=
  orderIndependent_map_injective (neg_saturatingAdd h) neg_injective

/-- Values whose two signs stay in the range have their sum, however they are added. -/
lemma value_eq_sum {t : MergeTree G} (hlo : lo ≤ negatives t.leaves)
    (hhi : positives t.leaves ≤ hi) : t.value (saturatingAdd lo hi) = t.leaves.sum := by
  induction t with
  | record a => exact (Multiset.sum_singleton a).symm
  | merge old new hold hnew =>
    rw [leaves_merge, negatives_add] at hlo
    rw [leaves_merge, positives_add] at hhi
    have hneg := negatives_nonpos old.leaves
    have hneg' := negatives_nonpos new.leaves
    have hpos := positives_nonneg old.leaves
    have hpos' := positives_nonneg new.leaves
    have hsum := negatives_add_positives (old.leaves + new.leaves)
    rw [negatives_add, positives_add] at hsum
    rw [value, hold (hlo.trans (add_le_of_nonpos_right hneg')) ((le_add_of_nonneg_right hpos').trans hhi),
      hnew (hlo.trans (add_le_of_nonpos_left hneg)) ((le_add_of_nonneg_left hpos).trans hhi),
      leaves_merge, Multiset.sum_add]
    rw [Multiset.sum_add] at hsum
    apply saturatingAdd_eq
    · rw [← hsum]
      exact hlo.trans (le_add_of_nonneg_right (add_nonneg hpos hpos'))
    · rw [← hsum]
      exact (add_le_of_nonpos_left (add_nonpos hneg hneg')).trans hhi

/-- A bound may be applied early to what only grows. -/
lemma min_add_min {x y : G} (hy : 0 ≤ y) : min (min x hi + y) hi = min (x + y) hi := by
  rw [← min_add_add_right, min_assoc, min_eq_right (le_add_of_nonneg_right hy)]

/-- Values that are not negative have their sum, up to the upper bound. -/
lemma value_of_nonneg (hlo : lo ≤ 0) (hhi : 0 ≤ hi) {t : MergeTree G}
    (h : ∀ x ∈ t.leaves, 0 ≤ x ∧ x ≤ hi) :
    t.value (saturatingAdd lo hi) = min t.leaves.sum hi := by
  induction t with
  | record a =>
    have ha := h a (Multiset.mem_singleton_self a)
    rw [leaves_record, Multiset.sum_singleton, min_eq_left ha.2]
    rfl
  | merge old new hold hnew =>
    have hold' : ∀ x ∈ old.leaves, 0 ≤ x ∧ x ≤ hi := fun x hx => h x (Multiset.mem_add.mpr (.inl hx))
    have hnew' : ∀ x ∈ new.leaves, 0 ≤ x ∧ x ≤ hi := fun x hx => h x (Multiset.mem_add.mpr (.inr hx))
    have hsum : 0 ≤ old.leaves.sum := Multiset.sum_nonneg (fun x hx => (hold' x hx).1)
    have hsum' : 0 ≤ new.leaves.sum := Multiset.sum_nonneg (fun x hx => (hnew' x hx).1)
    rw [value, hold hold', hnew hnew', leaves_merge, Multiset.sum_add, saturatingAdd,
      min_add_min (le_min hsum' hhi), add_comm, min_add_min hsum, add_comm]
    exact max_eq_right (hlo.trans (le_min (add_nonneg hsum hsum') hhi))

/-- Values that are not positive have their sum, down to the lower bound. -/
lemma value_of_nonpos (hlo : lo ≤ 0) (hhi : 0 ≤ hi) {t : MergeTree G}
    (h : ∀ x ∈ t.leaves, lo ≤ x ∧ x ≤ 0) :
    t.value (saturatingAdd lo hi) = max t.leaves.sum lo := by
  have hneg : ∀ x ∈ (t.map Neg.neg).leaves, 0 ≤ x ∧ x ≤ -lo := by
    rw [leaves_map, Multiset.forall_mem_map_iff]
    intro x hx
    exact ⟨neg_nonneg.mpr (h x hx).2, neg_le_neg (h x hx).1⟩
  have hvalue := value_of_nonneg (neg_nonpos.mpr hhi) (neg_nonneg.mpr hlo) hneg
  rwa [value_map (neg_saturatingAdd (hlo.trans hhi)), leaves_map, Multiset.sum_map_neg', min_neg_neg,
    neg_inj] at hvalue

/-- Values that are not negative and are added to a sum one after the other. -/
lemma foldl_of_nonneg {x : G} (hlo : lo ≤ x) (hhi : x ≤ hi) {values : List G}
    (h : ∀ y ∈ values, 0 ≤ y) :
    values.foldl (saturatingAdd lo hi) x = min (x + values.sum) hi := by
  induction values generalizing x with
  | nil => rw [List.sum_nil, add_zero, min_eq_left hhi, List.foldl_nil]
  | cons y values ih =>
    have hy := h y List.mem_cons_self
    have hvalues : ∀ z ∈ values, 0 ≤ z := fun z hz => h z (List.mem_cons_of_mem y hz)
    have hle : lo ≤ min (x + y) hi := le_min (hlo.trans (le_add_of_nonneg_right hy)) (hlo.trans hhi)
    have hstep : saturatingAdd lo hi x y = min (x + y) hi := max_eq_right hle
    rw [List.foldl_cons, hstep, ih hle (min_le_right _ _) hvalues,
      min_add_min (List.sum_nonneg hvalues), List.sum_cons, add_assoc]

/-- Values of one sign, or values whose two signs stay in the range. -/
def Reorderable (lo hi : G) (s : Multiset G) : Prop :=
  (∀ x ∈ s, 0 ≤ x) ∨ (∀ x ∈ s, x ≤ 0) ∨ (lo ≤ negatives s ∧ positives s ≤ hi)

lemma orderIndependent_of_nonneg (hlo : lo ≤ 0) (hhi : 0 ≤ hi) {s : Multiset G}
    (hs : ∀ x ∈ s, x ≤ hi) (h : ∀ x ∈ s, 0 ≤ x) : OrderIndependent (saturatingAdd lo hi) s := by
  rintro t t' rfl ht'
  have hvalues : ∀ x ∈ t.leaves, 0 ≤ x ∧ x ≤ hi := fun x hx => ⟨h x hx, hs x hx⟩
  rw [value_of_nonneg hlo hhi hvalues, value_of_nonneg hlo hhi (ht' ▸ hvalues), ht']

/-- The negative values, merged by themselves. -/
lemma exists_value_negatives (hlo : lo ≤ 0) (hhi : 0 ≤ hi) {s : Multiset G} (hs : ∀ x ∈ s, lo ≤ x)
    (hneg : negatives s < 0) :
    ∃ t : MergeTree G, t.leaves = s.filter (· < 0) ∧
      t.value (saturatingAdd lo hi) = max (negatives s) lo := by
  have hsome : s.filter (· < 0) ≠ 0 := by
    intro hzero
    rw [negatives, hzero, Multiset.sum_zero] at hneg
    exact lt_irrefl _ hneg
  obtain ⟨t, ht⟩ := exists_leaves_eq hsome
  refine ⟨t, ht, ?_⟩
  rw [value_of_nonpos hlo hhi, ht, negatives]
  rw [ht]
  intro x hx
  obtain ⟨hxs, hx0⟩ := Multiset.mem_filter.mp hx
  exact ⟨hs x hxs, hx0.le⟩

/-- The other values, where they overshoot. -/
lemma exists_value_eq_hi (hlo : lo ≤ 0) (hhi : 0 ≤ hi) {s : Multiset G} (hs : ∀ x ∈ s, x ≤ hi)
    (hpos : hi < positives s) :
    ∃ t : MergeTree G, t.leaves = s.filter (fun x => ¬ x < 0) ∧ t.value (saturatingAdd lo hi) = hi := by
  have hsome : s.filter (fun x => ¬ x < 0) ≠ 0 := by
    intro hzero
    rw [← sum_filter_not_neg, hzero, Multiset.sum_zero] at hpos
    exact absurd hpos hhi.not_gt
  obtain ⟨t, ht⟩ := exists_leaves_eq hsome
  refine ⟨t, ht, ?_⟩
  rw [value_of_nonneg hlo hhi, ht, sum_filter_not_neg, min_eq_right hpos.le]
  rw [ht]
  intro x hx
  obtain ⟨hxs, hx0⟩ := Multiset.mem_filter.mp hx
  exact ⟨not_lt.mp hx0, hs x hxs⟩

/-- What the positive values overshoot by is lost to a negative one, unless it comes first. -/
lemma not_orderIndependent (hlo : lo < 0) (hhi : 0 ≤ hi) {s : Multiset G}
    (hs : ∀ x ∈ s, lo ≤ x ∧ x ≤ hi) (hneg : ∃ x ∈ s, x < 0) (hpos : hi < positives s) :
    ¬ OrderIndependent (saturatingAdd lo hi) s := by
  intro h
  obtain ⟨x, hx, hx0⟩ := hneg
  have hlt : negatives s < 0 := negatives_lt hx hx0
  obtain ⟨negative, hnegative, hlow⟩ :=
    exists_value_negatives hlo.le hhi (fun x hx => (hs x hx).1) hlt
  obtain ⟨positive, hpositive, hhigh⟩ :=
    exists_value_eq_hi hlo.le hhi (fun x hx => (hs x hx).2) hpos
  have hlow0 : max (negatives s) lo < 0 := max_lt hlt hlo
  have hlowlo : lo ≤ max (negatives s) lo := le_max_right _ _
  have hsplit : s.filter (· < 0) + s.filter (fun x => ¬ x < 0) = s := Multiset.filter_add_not _ s
  have hfirst : (positive.merge negative).value (saturatingAdd lo hi) =
      hi + max (negatives s) lo := by
    rw [value, hhigh, hlow]
    apply saturatingAdd_eq
    · exact hlowlo.trans (le_add_of_nonneg_left hhi)
    · exact add_le_of_nonpos_right hlow0.le
  have hlast : (negative.foldl positive.leaves.toList).value (saturatingAdd lo hi) =
      min (max (negatives s) lo + positives s) hi := by
    rw [value_foldl, hlow, foldl_of_nonneg hlowlo (hlow0.le.trans hhi), Multiset.sum_toList,
      hpositive, sum_filter_not_neg]
    intro y hy
    rw [Multiset.mem_toList, hpositive] at hy
    exact not_lt.mp (Multiset.mem_filter.mp hy).2
  have heq := h (positive.merge negative) (negative.foldl positive.leaves.toList)
    (by rw [leaves_merge, hnegative, hpositive, add_comm, hsplit])
    (by rw [leaves_foldl, Multiset.coe_toList, hnegative, hpositive, hsplit])
  rw [hfirst, hlast] at heq
  apply heq.not_lt
  apply lt_min
  · rw [add_comm]
    exact add_lt_add_right hpos _
  · exact add_lt_of_neg_right hi hlow0

/-- The values that may be added in any order and grouping. -/
theorem orderIndependent_saturatingAdd_iff (hlo : lo < 0) (hhi : 0 < hi) {s : Multiset G}
    (hs : ∀ x ∈ s, lo ≤ x ∧ x ≤ hi) :
    OrderIndependent (saturatingAdd lo hi) s ↔ Reorderable lo hi s := by
  have hneg : ∀ x ∈ s.map Neg.neg, -hi ≤ x ∧ x ≤ -lo := by
    rw [Multiset.forall_mem_map_iff]
    intro x hx
    exact ⟨neg_le_neg (hs x hx).2, neg_le_neg (hs x hx).1⟩
  constructor
  · intro h
    by_contra hnot
    obtain ⟨hsome, hsome', hfits⟩ : (∃ x ∈ s, x < 0) ∧ (∃ x ∈ s, 0 < x) ∧
        ¬ (lo ≤ negatives s ∧ positives s ≤ hi) := by
      simpa only [Reorderable, not_or, not_forall, not_le, exists_prop] using hnot
    by_cases hpos : positives s ≤ hi
    · -- the negative values overshoot, which is the same upside down
      have hlow : -lo < positives (s.map Neg.neg) := by
        rw [positives_neg]
        exact neg_lt_neg (not_le.mp (fun hle => hfits ⟨hle, hpos⟩))
      obtain ⟨x, hx, hx0⟩ := hsome'
      refine not_orderIndependent (neg_neg_of_pos hhi) (neg_nonneg.mpr hlo.le) hneg
        ⟨-x, Multiset.mem_map_of_mem _ hx, neg_neg_of_pos hx0⟩ hlow ?_
      rwa [orderIndependent_neg (hlo.trans hhi).le]
    · exact not_orderIndependent hlo hhi.le hs hsome (not_le.mp hpos) h
  · rintro (hnonneg | hnonpos | ⟨hle, hle'⟩)
    · exact orderIndependent_of_nonneg hlo.le hhi.le (fun x hx => (hs x hx).2) hnonneg
    · rw [← orderIndependent_neg (hlo.trans hhi).le]
      apply orderIndependent_of_nonneg (neg_nonpos.mpr hhi.le) (neg_nonneg.mpr hlo.le)
      · exact fun x hx => (hneg x hx).2
      · rw [Multiset.forall_mem_map_iff]
        exact fun x hx => neg_nonneg.mpr (hnonpos x hx)
    · intro t t' ht ht'
      rw [value_eq_sum (ht ▸ hle) (ht ▸ hle'), value_eq_sum (ht' ▸ hle) (ht' ▸ hle'), ht, ht']

end Saturating
