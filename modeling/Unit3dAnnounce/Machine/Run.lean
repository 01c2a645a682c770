import Mathlib.Data.List.Basic

/-!
# Runs of a machine

A deterministic machine takes one step per event. `Along` says that a condition holds of
every step of a run, `Always` that a property holds in every state of it.
-/

namespace Machine

variable {S E : Type} (step : S → E → S)

def run (s : S) (es : List E) : S := es.foldl step s

@[simp] lemma run_nil (s : S) : run step s [] = s := rfl

@[simp] lemma run_cons (s : S) (e : E) (es : List E) : run step s (e :: es) = run step (step s e) es :=
  rfl

lemma run_append (s : S) (es es' : List E) : run step s (es ++ es') = run step (run step s es) es' :=
  List.foldl_append

def Along (C : S → E → Prop) : S → List E → Prop
  | _, [] => True
  | s, e :: es => C s e ∧ Along C (step s e) es

def Always (P : S → Prop) : S → List E → Prop
  | s, [] => P s
  | s, e :: es => P s ∧ Always P (step s e) es

instance Along.decidable {C : S → E → Prop} [∀ s e, Decidable (C s e)] :
    ∀ s es, Decidable (Along step C s es)
  | _, [] => inferInstanceAs (Decidable True)
  | s, e :: es =>
    have : Decidable (Along step C (step s e) es) := Along.decidable (step s e) es
    inferInstanceAs (Decidable (C s e ∧ Along step C (step s e) es))

instance Always.decidable {P : S → Prop} [DecidablePred P] : ∀ s es, Decidable (Always step P s es)
  | s, [] => inferInstanceAs (Decidable (P s))
  | s, e :: es =>
    have : Decidable (Always step P (step s e) es) := Always.decidable (step s e) es
    inferInstanceAs (Decidable (P s ∧ Always step P (step s e) es))

variable {step}

lemma Along.mono {C D : S → E → Prop} {s : S} {es : List E} (h : Along step C s es)
    (hCD : ∀ s e, C s e → D s e) : Along step D s es := by
  induction es generalizing s with
  | nil => trivial
  | cons e es ih => exact ⟨hCD s e h.1, ih h.2⟩

lemma Always.mono {P Q : S → Prop} {s : S} {es : List E} (h : Always step P s es)
    (hPQ : ∀ s, P s → Q s) : Always step Q s es := by
  induction es generalizing s with
  | nil => exact hPQ s h
  | cons e es ih => exact ⟨hPQ s h.1, ih h.2⟩

lemma Always.head {P : S → Prop} {s : S} {es : List E} (h : Always step P s es) : P s := by
  cases es with
  | nil => exact h
  | cons e es => exact h.1

lemma Always.last {P : S → Prop} {s : S} {es : List E} (h : Always step P s es) :
    P (run step s es) := by
  induction es generalizing s with
  | nil => exact h
  | cons e es ih => exact ih h.2

/-- What one step preserves under the condition, a whole run preserves. -/
theorem Along.invariant {C : S → E → Prop} {P : S → Prop}
    (hstep : ∀ s e, C s e → P s → P (step s e)) {s : S} {es : List E}
    (h : Along step C s es) (h0 : P s) : Always step P s es := by
  induction es generalizing s with
  | nil => exact h0
  | cons e es ih => exact ⟨h0, ih h.2 (hstep s e h.1 h0)⟩

/-- Where every step of a run meets a condition, a property holds throughout exactly when every step
meets what then keeps it. -/
theorem Along.always_iff {A C : S → E → Prop} {P : S → Prop}
    (hstep : ∀ s e, A s e → P s → (P (step s e) ↔ C s e)) {s : S} {es : List E}
    (hA : Along step A s es) (h0 : P s) : Always step P s es ↔ Along step C s es := by
  induction es generalizing s with
  | nil => exact ⟨fun _ => trivial, fun _ => h0⟩
  | cons e es ih =>
    have hiff := hstep s e hA.1 h0
    constructor
    · intro h
      have hnext : P (step s e) := h.2.head
      exact ⟨hiff.mp hnext, (ih hA.2 hnext).mp h.2⟩
    · intro h
      exact ⟨h0, (ih hA.2 (hiff.mpr h.1)).mpr h.2⟩

/-- A condition that the events of a run meet in every state. -/
lemma Along.of_forall_mem {C : S → E → Prop} {es : List E} (h : ∀ e ∈ es, ∀ s, C s e) (s : S) :
    Along step C s es := by
  induction es generalizing s with
  | nil => trivial
  | cons e es ih =>
    exact ⟨h e List.mem_cons_self s, ih (fun e' he' => h e' (List.mem_cons_of_mem e he')) (step s e)⟩

lemma Along.of_forall {C : S → E → Prop} (h : ∀ s e, C s e) (s : S) (es : List E) :
    Along step C s es := Along.of_forall_mem (fun e _ s => h s e) s

/-- A property holds throughout a run exactly when every step meets the condition that keeps it. -/
theorem always_iff_along {C : S → E → Prop} {P : S → Prop}
    (hstep : ∀ s e, P s → (P (step s e) ↔ C s e)) {s : S} {es : List E} (h0 : P s) :
    Always step P s es ↔ Along step C s es :=
  (Along.of_forall (C := fun _ _ => True) (fun _ _ => trivial) s es).always_iff
    (fun s e _ => hstep s e) h0

/-- A run in which a property holds throughout, seen step by step. -/
lemma Always.along {P : S → Prop} {s : S} {es : List E} (h : Always step P s es) :
    Along step (fun s e => P s ∧ P (step s e)) s es := by
  induction es generalizing s with
  | nil => trivial
  | cons e es ih => exact ⟨⟨h.1, h.2.head⟩, ih h.2⟩

lemma Along.and {C D : S → E → Prop} {s : S} {es : List E} (hC : Along step C s es)
    (hD : Along step D s es) : Along step (fun s e => C s e ∧ D s e) s es := by
  induction es generalizing s with
  | nil => trivial
  | cons e es ih => exact ⟨⟨hC.1, hD.1⟩, ih hC.2 hD.2⟩

/-- A property holds at some moment of a run. -/
def Sometime (step : S → E → S) (s : S) (es : List E) (P : S → Prop) : Prop :=
  ∃ es', es' <+: es ∧ P (run step s es')

lemma Sometime.mono {P Q : S → Prop} {s : S} {es : List E} (h : Sometime step s es P)
    (hPQ : ∀ es', es' <+: es → P (run step s es') → Q (run step s es')) : Sometime step s es Q := by
  obtain ⟨es', hprefix, hP⟩ := h
  exact ⟨es', hprefix, hPQ es' hprefix hP⟩

/-- Every step of a run starts at a moment of it. -/
lemma along_sometime (s : S) (es : List E) :
    Along step (fun t _ => Sometime step s es (· = t)) s es := by
  suffices hafter : ∀ done rest, Along step (fun t _ => Sometime step s (done ++ rest) (· = t))
      (run step s done) rest from hafter [] es
  intro done rest
  induction rest generalizing done with
  | nil => trivial
  | cons e rest ih =>
    refine ⟨⟨done, List.prefix_append done (e :: rest), rfl⟩, ?_⟩
    have hrest := ih (done ++ [e])
    rwa [List.append_assoc, List.singleton_append, run_append, run_cons, run_nil] at hrest

section Simulation

variable {S' E' A : Type} {step' : S' → E' → S'}

/-- What the steps of a run emit, in order. -/
def log (step : S → E → S) (emit : S → E → List A) : S → List E → List A
  | _, [] => []
  | s, e :: es => emit s e ++ log step emit (step s e) es

lemma exists_of_mem_log {emit : S → E → List A} {s : S} {es : List E} {x : A}
    (h : x ∈ log step emit s es) : ∃ s' e, x ∈ emit s' e := by
  induction es generalizing s with
  | nil => cases h
  | cons e es ih =>
    rw [log, List.mem_append] at h
    exact h.elim (fun h => ⟨s, e, h⟩) ih

/-- A view of the machine that moves by the emitted events moves so along whole runs. -/
theorem run_simulates {view : S → S'} {emit : S → E → List E'}
    (h : ∀ s e, view (step s e) = run step' (view s) (emit s e)) (s : S) (es : List E) :
    view (run step s es) = run step' (view s) (log step emit s es) := by
  induction es generalizing s with
  | nil => rfl
  | cons e es ih =>
    rw [run_cons, ih, h, log, run_append]

lemma along_append {C : S → E → Prop} {s : S} {es es' : List E} :
    Along step C s (es ++ es') ↔ Along step C s es ∧ Along step C (run step s es) es' := by
  induction es generalizing s with
  | nil => simp [Along]
  | cons e es ih => rw [List.cons_append, Along, Along, ih, and_assoc, run_cons]

lemma along_simulates {view : S → S'} {emit : S → E → List E'}
    (h : ∀ s e, view (step s e) = run step' (view s) (emit s e)) {C : S' → E' → Prop} {s : S}
    {es : List E} (hC : Along step (fun s e => Along step' C (view s) (emit s e)) s es) :
    Along step' C (view s) (log step emit s es) := by
  induction es generalizing s with
  | nil => trivial
  | cons e es ih =>
    rw [log, along_append, ← h]
    exact ⟨hC.1, ih hC.2⟩

/-- An invariant that depends on what has been emitted so far. -/
theorem Along.invariant_log {B : Type} {C : S → E → Prop} {emit : S → E → List A} {f : B → A → B}
    {P : B → S → Prop} (hstep : ∀ b s e, C s e → P b s → P ((emit s e).foldl f b) (step s e)) {b : B}
    {s : S} {es : List E} (h : Along step C s es) (h0 : P b s) :
    P ((log step emit s es).foldl f b) (run step s es) := by
  induction es generalizing b s with
  | nil => exact h0
  | cons e es ih =>
    rw [log, List.foldl_append, run_cons]
    exact ih h.2 (hstep b s e h.1 h0)

/-- What holds of the emissions of every step, and of joined lists, holds of whole logs. -/
lemma log_rel {B : Type} {P : List A → List B → Prop} (hnil : P [] [])
    (happend : ∀ a b a' b', P a b → P a' b' → P (a ++ a') (b ++ b')) {emit : S → E → List A}
    {emit' : S → E → List B} (h : ∀ s e, P (emit s e) (emit' s e)) (s : S) (es : List E) :
    P (log step emit s es) (log step emit' s es) := by
  induction es generalizing s with
  | nil => exact hnil
  | cons e es ih => exact happend _ _ _ _ (h s e) (ih (step s e))

end Simulation

end Machine
