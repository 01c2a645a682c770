import Mathlib.Algebra.BigOperators.Ring.List
import Mathlib.Algebra.Order.BigOperators.Group.List
import Mathlib.Algebra.Order.Field.Basic

/-!
# Sums that decay

Every event of a sequence weighs one when it happens and less and less from then on. As the weight is
multiplicative in the time that has passed, the sum of the weights at one time and the time since say
what it is later.
-/

namespace Decay

variable {F : Type*} [Field F] {d : F → F}

/-- What is left at the time `t` of events at the given times. -/
def decayedSum (d : F → F) (times : List F) (t : F) : F := (times.map fun time => d (t - time)).sum

lemma decayedSum_concat (times : List F) (time t : F) :
    decayedSum d (times ++ [time]) t = decayedSum d times t + d (t - time) := by
  simp [decayedSum]

variable [LinearOrder F]

/-- How much of an event is left after some time. -/
structure IsDecay (d : F → F) : Prop where
  zero : d 0 = 1
  pos : ∀ e, 0 ≤ e → 0 < d e
  lt : ∀ e e', 0 ≤ e → e < e' → d e' < d e
  add : ∀ e e', 0 ≤ e → 0 ≤ e' → d (e + e') = d e * d e'
  vanishes : ∀ ε, 0 < ε → ∃ T, 0 ≤ T ∧ ∀ e, T ≤ e → d e < ε

lemma IsDecay.le_one (h : IsDecay d) {e : F} (he : 0 ≤ e) : d e ≤ 1 := by
  rcases he.eq_or_lt with rfl | hlt
  · exact h.zero.le
  · rw [← h.zero]
    exact (h.lt 0 e le_rfl hlt).le

variable [IsStrictOrderedRing F]

lemma decayedSum_nonneg (h : IsDecay d) {times : List F} {t : F} (htimes : ∀ time ∈ times, time ≤ t) :
    0 ≤ decayedSum d times t := by
  apply List.sum_nonneg
  intro x hx
  obtain ⟨time, htime, rfl⟩ := List.mem_map.mp hx
  exact (h.pos _ (sub_nonneg.mpr (htimes time htime))).le

/-- A later sum is the earlier one, decayed. -/
lemma decayedSum_later (h : IsDecay d) {times : List F} {s t : F} (htimes : ∀ time ∈ times, time ≤ s)
    (hst : s ≤ t) : decayedSum d times t = decayedSum d times s * d (t - s) := by
  unfold decayedSum
  rw [← List.sum_map_mul_right]
  congr 1
  apply List.map_congr_left
  intro time htime
  rw [← h.add _ _ (sub_nonneg.mpr (htimes time htime)) (sub_nonneg.mpr hst)]
  rw [sub_add_sub_cancel']

lemma decayedSum_anti (h : IsDecay d) {times : List F} {s t : F} (htimes : ∀ time ∈ times, time ≤ s)
    (hst : s ≤ t) : decayedSum d times t ≤ decayedSum d times s := by
  rw [decayedSum_later h htimes hst]
  exact mul_le_of_le_one_right (decayedSum_nonneg h htimes) (h.le_one (sub_nonneg.mpr hst))

/-- In the end nothing is left. -/
lemma exists_decayedSum_le (h : IsDecay d) {times : List F} {s : F} (htimes : ∀ time ∈ times, time ≤ s)
    {ε : F} (hε : 0 < ε) : ∃ T, s ≤ T ∧ ∀ t, T ≤ t → decayedSum d times t ≤ ε := by
  rcases (decayedSum_nonneg h htimes).eq_or_lt with hzero | hpos
  · refine ⟨s, le_rfl, fun t ht => ?_⟩
    rw [decayedSum_later h htimes ht, ← hzero, zero_mul]
    exact hε.le
  · obtain ⟨T, hT, hsmall⟩ := h.vanishes (ε / decayedSum d times s) (div_pos hε hpos)
    refine ⟨s + T, le_add_of_nonneg_right hT, fun t ht => ?_⟩
    have hst : s ≤ t := (le_add_of_nonneg_right hT).trans ht
    rw [decayedSum_later h htimes hst, mul_comm]
    exact ((lt_div_iff₀ hpos).mp (hsmall _ (le_sub_iff_add_le'.mpr ht))).le

omit [Field F] [IsStrictOrderedRing F] in
/-- Several sums that all come down to their bounds have done so at one time. -/
lemma exists_forall_later {ι : Type*} {l : List ι} {p : ι → F → Prop} {s : F}
    (h : ∀ i ∈ l, ∃ T, s ≤ T ∧ ∀ t, T ≤ t → p i t) : ∃ T, s ≤ T ∧ ∀ t, T ≤ t → ∀ i ∈ l, p i t := by
  induction l with
  | nil => exact ⟨s, le_rfl, by simp⟩
  | cons i l ih =>
    obtain ⟨T, hT, hi⟩ := h i List.mem_cons_self
    obtain ⟨T', -, hl⟩ := ih (fun j hj => h j (List.mem_cons_of_mem i hj))
    refine ⟨max T T', hT.trans (le_max_left _ _), fun t ht => ?_⟩
    rw [List.forall_mem_cons]
    exact ⟨hi t ((le_max_left _ _).trans ht), hl t ((le_max_right _ _).trans ht)⟩

end Decay
