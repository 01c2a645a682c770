import Mathlib.Data.List.Basic

/-!
# Fallible computations

What a sequence of fallible steps returns, and how it fails, step by step. What it returns has a
property where each step has returned what leads there, and it is tolerable where its steps are.
-/

namespace Fallible

variable {E A B : Type}

lemma bind_eq_ok {x : Except E A} {f : A → Except E B} {b : B} :
    (x >>= f) = .ok b ↔ ∃ a, x = .ok a ∧ f a = .ok b := by
  cases x with
  | error e => simp [bind, Except.bind]
  | ok a => simp [bind, Except.bind]

lemma bind_eq_error {x : Except E A} {f : A → Except E B} {e : E} :
    (x >>= f) = .error e ↔ x = .error e ∨ ∃ a, x = .ok a ∧ f a = .error e := by
  cases x with
  | error e' => simp [bind, Except.bind]
  | ok a => simp [bind, Except.bind]

/-- A traversal returns exactly where every step does. -/
lemma mapM_eq_ok {f : A → Except E B} {xs : List A} :
    (∃ ys, xs.mapM f = .ok ys) ↔ ∀ x ∈ xs, ∃ y, f x = .ok y := by
  induction xs with
  | nil => simp [pure, Except.pure]
  | cons x xs ih =>
    rw [List.mapM_cons, List.forall_mem_cons, ← ih]
    simp only [bind_eq_ok]
    constructor
    · rintro ⟨ys, y, hy, rest, hrest, -⟩
      exact ⟨⟨y, hy⟩, ⟨rest, hrest⟩⟩
    · rintro ⟨⟨y, hy⟩, ⟨rest, hrest⟩⟩
      exact ⟨y :: rest, y, hy, rest, hrest, rfl⟩

/-- A traversal fails as its first step that fails. -/
lemma mapM_eq_error {f : A → Except E B} {xs : List A} {e : E} :
    xs.mapM f = .error e ↔ ∃ before x after, xs = before ++ x :: after ∧
      (∀ y ∈ before, ∃ z, f y = .ok z) ∧ f x = .error e := by
  induction xs with
  | nil => simp [pure, Except.pure]
  | cons x xs ih =>
    rw [List.mapM_cons, bind_eq_error]
    constructor
    · rintro (hx | ⟨y, hy, hrest⟩)
      · exact ⟨[], x, xs, rfl, by simp, hx⟩
      · rw [bind_eq_error] at hrest
        rcases hrest with hrest | ⟨ys, -, hys⟩
        · obtain ⟨before, z, after, rfl, hbefore, hz⟩ := ih.mp hrest
          exact ⟨x :: before, z, after, rfl, List.forall_mem_cons.mpr ⟨⟨y, hy⟩, hbefore⟩, hz⟩
        · simp [pure, Except.pure] at hys
    · rintro ⟨before, z, after, hsplit, hbefore, hz⟩
      cases before with
      | nil =>
        obtain ⟨rfl, -⟩ := List.cons_eq_cons.mp hsplit
        exact Or.inl hz
      | cons y before =>
        obtain ⟨rfl, rfl⟩ := List.cons_eq_cons.mp hsplit
        obtain ⟨⟨a, ha⟩, hbefore⟩ := List.forall_mem_cons.mp hbefore
        refine Or.inr ⟨a, ha, ?_⟩
        exact bind_eq_error.mpr (Or.inl (ih.mpr ⟨before, z, after, rfl, hbefore, hz⟩))

/-- Whatever the computation returns has the property. -/
def Returns (P : A → Prop) (x : Except E A) : Prop := ∀ a, x = .ok a → P a

lemma Returns.bind {P : B → Prop} {x : Except E A} {f : A → Except E B}
    (h : ∀ a, x = .ok a → Returns P (f a)) : Returns P (x >>= f) := by
  intro b hb
  obtain ⟨a, ha, hb⟩ := bind_eq_ok.mp hb
  exact h a ha b hb

/-- A computation all of whose failures are tolerated. -/
def Tolerable (tolerated : E → Prop) (x : Except E A) : Prop := ∀ e, x = .error e → tolerated e

variable {tolerated : E → Prop}

lemma Tolerable.bind {x : Except E A} {f : A → Except E B} (hx : Tolerable tolerated x)
    (hf : ∀ a, Tolerable tolerated (f a)) : Tolerable tolerated (x >>= f) := by
  intro e he
  rcases bind_eq_error.mp he with hfirst | ⟨a, -, hrest⟩
  · exact hx e hfirst
  · exact hf a e hrest

lemma tolerable_pure (a : A) : Tolerable tolerated (pure a : Except E A) := by
  intro e he
  simp [pure, Except.pure] at he

end Fallible
