import Mathlib.Algebra.BigOperators.Group.Finset.Piecewise
import Mathlib.Data.Multiset.Bind
import Unit3dAnnounce.Machine.Handler

/-!
# What handlers perform

Seen from outside, the sections of a handler perform operations on a part of the shared state. Which ones
it has performed when it returns is settled by its result, whatever comes in between.
-/

namespace Machine

variable {L S A B Q E : Type}

/-- The operations lead from one state to another. -/
def LeadsTo (T : Q → E → Q → Prop) : Q → List E → Q → Prop
  | q, [], q' => q' = q
  | q, e :: es, q' => ∃ q₁, T q e q₁ ∧ LeadsTo T q₁ es q'

lemma leadsTo_append {T : Q → E → Q → Prop} {q q' : Q} {es es' : List E} :
    LeadsTo T q (es ++ es') q' ↔ ∃ q₁, LeadsTo T q es q₁ ∧ LeadsTo T q₁ es' q' := by
  induction es generalizing q with
  | nil => simp [LeadsTo]
  | cons e es ih =>
    simp only [List.cons_append, LeadsTo, ih]
    constructor
    · rintro ⟨q₂, he, q₁, hes, hes'⟩
      exact ⟨q₁, ⟨q₂, he, hes⟩, hes'⟩
    · rintro ⟨q₁, ⟨q₂, he, hes⟩, hes'⟩
      exact ⟨q₂, he, q₁, hes, hes'⟩

/-- Where every operation is a function. -/
lemma leadsTo_iff_foldl {push : Q → E → Q} {q q' : Q} {es : List E} :
    LeadsTo (fun q e q' => q' = push q e) q es q' ↔ q' = es.foldl push q := by
  induction es generalizing q with
  | nil => rfl
  | cons e es ih => simp only [LeadsTo, exists_eq_left, ih, List.foldl_cons]

/-- What shows at the end has been there from the beginning, or has been brought about at some point, and
nothing has disturbed it since. -/
lemma LeadsTo.exists_origin {T : Q → E → Q → Prop} {P : Q → Prop} {Sets Spares : E → Prop}
    (horigin : ∀ q e q', T q e q' → P q' → Sets e ∨ P q ∧ Spares e) {q q' : Q} {steps : List (A × E)}
    (h : LeadsTo T q (steps.map Prod.snd) q') (hP : P q') :
    (P q ∧ ∀ step ∈ steps, Spares step.2) ∨ ∃ before step after, steps = before ++ step :: after ∧
      Sets step.2 ∧ ∀ step' ∈ after, Spares step'.2 := by
  induction steps using List.reverseRecOn generalizing q' with
  | nil =>
    rw [show q' = q from h] at hP
    exact Or.inl ⟨hP, by simp⟩
  | append_singleton steps step ih =>
    rw [List.map_append, leadsTo_append] at h
    obtain ⟨middle, hpath, _, hstep, rfl⟩ := h
    rcases horigin _ _ _ hstep hP with hsets | ⟨hmiddle, hspares⟩
    · exact Or.inr ⟨steps, step, [], rfl, hsets, by simp⟩
    · rcases ih hpath hmiddle with ⟨hstart, hall⟩ | ⟨before, step', after, rfl, hsets, hall⟩
      · refine Or.inl ⟨hstart, fun step' hmem => ?_⟩
        rcases List.mem_append.mp hmem with hmem | hmem
        · exact hall step' hmem
        · rwa [List.mem_singleton.mp hmem]
      · refine Or.inr ⟨before, step', after ++ [step], by simp, hsets, fun step'' hmem => ?_⟩
        rcases List.mem_append.mp hmem with hmem | hmem
        · exact hall step'' hmem
        · rwa [List.mem_singleton.mp hmem]

namespace Handler

/-- A handler that has performed the operations `done` on what `view` shows. When it returns, all that it
has performed fits its result. -/
def Performs (view : S → Q) (T : Q → E → Q → Prop) (fits : A → List E → Prop) :
    List E → Handler L S A → Prop
  | done, .ret a => fits a done
  | done, .lock _ act next => ∀ s, ∃ es, LeadsTo T (view s) es (view (act s)) ∧
      Performs view T fits (done ++ es) (next s)

variable {view : S → Q} {T : Q → E → Q → Prop} {fits : A → List E → Prop} {fits' : B → List E → Prop}
  {done : List E} {p : Handler L S A} {k : A → Handler L S B}

lemma performs_pure {a : A} (h : fits a done) : (pure a : Handler L S A).Performs view T fits done := h

lemma Performs.mono {fits₁ fits₂ : A → List E → Prop} (h : p.Performs view T fits₁ done)
    (hfits : ∀ a es, fits₁ a es → fits₂ a es) : p.Performs view T fits₂ done := by
  induction p generalizing done with
  | ret a => exact hfits a done h
  | lock l act next ih =>
    intro s
    obtain ⟨es, hview, hnext⟩ := h s
    exact ⟨es, hview, ih s hnext⟩

lemma Performs.bind (hp : p.Performs view T fits done)
    (hk : ∀ a es, fits a es → (k a).Performs view T fits' es) :
    (p >>= k).Performs view T fits' done := by
  induction p generalizing done with
  | ret a => exact hk a done hp
  | lock l act next ih =>
    intro s
    obtain ⟨es, hview, hnext⟩ := hp s
    exact ⟨es, hview, ih s hnext⟩

/-- Sections that perform nothing. -/
lemma Guarantees.performs {G : L → S → S → Prop} {P : A → Prop}
    (hp : p.Guarantees (fun _ => True) G P) (hG : ∀ l s s', G l s s' → view s' = view s) :
    p.Performs view T (fun a es => P a ∧ es = done) done := by
  induction p with
  | ret a => exact ⟨hp, rfl⟩
  | lock l act next ih =>
    intro s
    obtain ⟨hact, hnext⟩ := hp s trivial
    refine ⟨[], hG l s (act s) hact, ?_⟩
    rw [List.append_nil]
    exact ih s hnext

lemma Performs.atomically_bind {l : L} {f : S → S × A} (es : S → List E)
    (hview : ∀ s, LeadsTo T (view s) (es s) (view (f s).1))
    (hk : ∀ s, (k (f s).2).Performs view T fits' (done ++ es s)) :
    (atomically l f >>= k).Performs view T fits' done :=
  fun s => ⟨es s, hview s, hk s⟩

lemma Performs.write_bind {l : L} {f : S → S} {k : Unit → Handler L S B} (es : List E)
    (hview : ∀ s, LeadsTo T (view s) es (view (f s)))
    (hk : (k ()).Performs view T fits' (done ++ es)) :
    (write l f >>= k).Performs view T fits' done :=
  fun s => ⟨es, hview s, hk⟩

end Handler

namespace World

variable {ι : Type} {A : ι → Type} [DecidableEq ι] {view : S → Q} {T : Q → E → Q → Prop}
  {fits : ∀ i, A i → List E → Prop} {done : ι → List E} {w : World L S A}

/-- A step performs what the handler that takes it performs. -/
lemma performs_step (h : ∀ i, (w.handlers i).Performs view T (fits i) (done i)) (i : ι) :
    ∃ es, LeadsTo T (view w.state) es (view (w.step i).state) ∧
      ∀ j, ((w.step i).handlers j).Performs view T (fits j)
        (Function.update done i (done i ++ es) j) := by
  cases hlock : w.handlers i with
  | ret a =>
    refine ⟨[], ?_, ?_⟩
    · rw [step_of_ret hlock]
      rfl
    · rw [step_of_ret hlock, List.append_nil, Function.update_eq_self]
      exact h
  | lock l act next =>
    have hi := h i
    rw [hlock] at hi
    obtain ⟨es, hview, hnext⟩ := hi w.state
    refine ⟨es, ?_, fun j => ?_⟩
    · rw [step_state_of_lock hlock]
      exact hview
    · by_cases hj : j = i
      · subst hj
        rw [step_handlers_self hlock, Function.update_self]
        exact hnext
      · rw [step_handlers_of_ne w hj, Function.update_of_ne hj]
        exact h j

end World

/-- What the events of a run perform, where `P` holds of it as far as the run has come. -/
lemma exists_trace {V : Type} {step : S → V → S} {P : List (V × List E) → S → Prop}
    (hstep : ∀ trace s event, P trace s → ∃ es, P (trace ++ [(event, es)]) (step s event))
    {s : S} (hstart : P [] s) (events : List V) :
    ∃ trace : List (V × List E), trace.map Prod.fst = events ∧
      ∀ before after, trace = before ++ after → P before (run step s (before.map Prod.fst)) := by
  induction events using List.reverseRecOn with
  | nil =>
    refine ⟨[], rfl, fun before after h => ?_⟩
    rw [(List.nil_eq_append_iff.mp h).1]
    exact hstart
  | append_singleton events event ih =>
    obtain ⟨trace, hevents, htraced⟩ := ih
    obtain ⟨es, hlast⟩ := hstep trace _ event (htraced trace [] (List.append_nil trace).symm)
    refine ⟨trace ++ [(event, es)], by rw [List.map_append, hevents]; rfl, fun before after h => ?_⟩
    rcases List.eq_nil_or_concat after with rfl | ⟨after', last, rfl⟩
    · rw [List.append_nil] at h
      rw [← h, List.map_append, run_append]
      exact hlast
    · rw [List.concat_eq_append, ← List.append_assoc] at h
      exact htraced before after' (List.append_inj_left' h rfl)

/-- All that many handlers have performed, once one of them has performed more. -/
lemma sum_update_append {ι : Type} [Fintype ι] [DecidableEq ι] (done : ι → List E) (i : ι) (es : List E) :
    ∑ j, Multiset.ofList (Function.update done i (done i ++ es) j) =
      ∑ j, Multiset.ofList (done j) + Multiset.ofList es := by
  have hupdate (j : ι) : Multiset.ofList (Function.update done i (done i ++ es) j) =
      Multiset.ofList (done j) + if j = i then Multiset.ofList es else 0 := by
    by_cases hj : j = i
    · subst hj
      rw [Function.update_self, if_pos rfl, ← Multiset.coe_add]
    · rw [Function.update_of_ne hj, if_neg hj, add_zero]
  rw [Finset.sum_congr rfl fun j _ => hupdate j, Finset.sum_add_distrib, Finset.sum_ite_eq',
    if_pos (Finset.mem_univ i)]

end Machine
