import Mathlib.Data.List.DropRight
import Mathlib.Data.List.Infix
import Mathlib.Tactic.NormNum

/-!
# Separators in a list

The positions at which a separator stands in a list, as a scan from the left reports them,
and what they say about the segments between the separators.
-/

namespace Separated

variable {α : Type} [DecidableEq α]

/-- The positions of `sep` in a list that starts at position `start`. -/
def positions (sep : α) : ℕ → List α → List ℕ
  | _, [] => []
  | start, x :: xs =>
    if x = sep then start :: positions sep (start + 1) xs else positions sep (start + 1) xs

lemma positions_append (sep : α) (start : ℕ) (xs ys : List α) :
    positions sep start (xs ++ ys) =
      positions sep start xs ++ positions sep (start + xs.length) ys := by
  induction xs generalizing start with
  | nil => simp [positions]
  | cons x xs ih =>
    have hlength : start + 1 + xs.length = start + (x :: xs).length := by
      simp only [List.length_cons]
      omega
    simp only [List.cons_append, positions, ih, hlength]
    by_cases hx : x = sep <;> simp [hx]

lemma positions_of_not_mem {sep : α} {xs : List α} (h : sep ∉ xs) (start : ℕ) :
    positions sep start xs = [] := by
  induction xs generalizing start with
  | nil => rfl
  | cons x xs ih =>
    have hx : x ≠ sep := fun he => h (he ▸ List.mem_cons_self)
    rw [positions, if_neg hx]
    exact ih (fun hmem => h (List.mem_cons_of_mem x hmem)) _

/-- A list up to the first separator, then the separator: the scan finds it there. -/
lemma positions_first {sep : α} {xs : List α} (h : sep ∉ xs) (start : ℕ) (ys : List α) :
    positions sep start (xs ++ sep :: ys) =
      (start + xs.length) :: positions sep (start + xs.length + 1) ys := by
  rw [positions_append, positions_of_not_mem h, List.nil_append, positions, if_pos rfl]

/-- What comes before the first separator, and what comes after it. -/
def splitFirst (sep : α) (xs : List α) : List α × List α :=
  (xs.takeWhile (· ≠ sep), (xs.dropWhile (· ≠ sep)).drop 1)

lemma splitFirst_append {sep : α} {xs : List α} (h : sep ∉ xs) (ys : List α) :
    splitFirst sep (xs ++ sep :: ys) = (xs, ys) := by
  have hne : ∀ x ∈ xs, decide (x ≠ sep) = true := by
    intro x hx
    exact decide_eq_true (fun he => h (he ▸ hx))
  unfold splitFirst
  rw [List.takeWhile_append_of_pos hne, List.dropWhile_append_of_pos hne]
  simp

/-- Splitting takes away separators only. -/
lemma not_mem_splitOn {sep mark : α} (hne : mark ≠ sep) (xs : List α) :
    (∀ s ∈ xs.splitOn sep, mark ∉ s) ↔ mark ∉ xs := by
  induction xs with
  | nil => simp
  | cons x xs ih =>
    rw [List.splitOn_cons_eq_if_modifyHead]
    by_cases hx : x = sep
    · rw [if_pos (beq_iff_eq.mpr hx), List.forall_mem_cons, ih, hx]
      simp [hne]
    · rw [if_neg (fun h => hx (beq_iff_eq.mp h))]
      obtain ⟨s, segments, he⟩ := List.exists_cons_of_ne_nil (List.splitOn_ne_nil sep xs)
      rw [he, List.forall_mem_cons] at ih
      rw [he, List.modifyHead_cons, List.forall_mem_cons, List.mem_cons, List.mem_cons, not_or,
        not_or, and_assoc, ih]

/-- The segments up to the last one that contains `mark`. -/
def upToLast (mark : α) (segments : List (List α)) : List (List α) :=
  segments.rdropWhile (mark ∉ ·)

lemma upToLast_eq_nil {mark : α} {segments : List (List α)} :
    upToLast mark segments = [] ↔ ∀ s ∈ segments, mark ∉ s := by
  rw [upToLast, List.rdropWhile_eq_nil_iff]
  simp

lemma upToLast_cons (mark : α) (s : List α) (segments : List (List α)) :
    upToLast mark (s :: segments) =
      if ∀ t ∈ s :: segments, mark ∉ t then [] else s :: upToLast mark segments := by
  by_cases h : ∀ t ∈ s :: segments, mark ∉ t
  · rw [if_pos h]
    exact upToLast_eq_nil.mpr h
  · rw [if_neg h, upToLast, upToLast, List.rdropWhile, List.rdropWhile, List.reverse_cons,
      List.dropWhile_append]
    by_cases hrest : (List.dropWhile (fun t => decide (mark ∉ t)) segments.reverse).isEmpty
    · have hnone : ∀ t ∈ segments, mark ∉ t := by
        have hnil := List.isEmpty_iff.mp hrest
        rw [List.dropWhile_eq_nil_iff] at hnil
        intro t ht
        exact of_decide_eq_true (hnil t (List.mem_reverse.mpr ht))
      have hs : mark ∈ s := by
        by_contra hs
        exact h (List.forall_mem_cons.mpr ⟨hs, hnone⟩)
      rw [if_pos hrest, List.isEmpty_iff.mp hrest]
      simp [hs]
    · rw [if_neg hrest]
      simp

end Separated
