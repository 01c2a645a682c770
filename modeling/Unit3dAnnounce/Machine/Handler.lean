import Mathlib.Logic.Function.Basic
import Unit3dAnnounce.Machine.Run

/-!
# Handlers made of critical sections

A handler works on a shared state in atomic sections, each entered under a label, and
computes on its own values in between. Run alone it is a function of the state; in a world
with other handlers it takes one section at a time, in the order that a schedule dictates.
-/

namespace Machine

inductive Handler (L S A : Type) : Type where
  | ret (a : A)
  | lock (l : L) (act : S → S) (next : S → Handler L S A)

namespace Handler

variable {L S A B : Type}

def bind : Handler L S A → (A → Handler L S B) → Handler L S B
  | .ret a, k => k a
  | .lock l act next, k => .lock l act (fun s => (next s).bind k)

instance : Monad (Handler L S) where
  pure := .ret
  bind := .bind

/-- One section that reads and writes. -/
def atomically (l : L) (f : S → S × A) : Handler L S A :=
  .lock l (fun s => (f s).1) (fun s => .ret (f s).2)

/-- One section that only reads. -/
def read (l : L) (f : S → A) : Handler L S A := atomically l (fun s => (s, f s))

/-- One section that only writes. -/
def write (l : L) (f : S → S) : Handler L S Unit := atomically l (fun s => (f s, ()))

/-- A section that only writes, entered if `c` holds. -/
def writeIf (c : Bool) (l : L) (f : S → S) : Handler L S Unit := if c then write l f else pure ()

/-- `b || f`, whose right side is a section that is entered only if `b` is false. -/
def orRead (b : Bool) (l : L) (f : S → Bool) : Handler L S Bool := if b then pure true else read l f

/-- The label of the section that comes next. -/
def label? : Handler L S A → Option L
  | .ret _ => none
  | .lock l _ _ => some l

/-- The result, once there is nothing left to do. -/
def result? : Handler L S A → Option A
  | .ret a => some a
  | .lock _ _ _ => none

lemma eq_ret_of_result? {p : Handler L S A} {a : A} (h : p.result? = some a) : p = .ret a := by
  cases p with
  | ret a' =>
    simp only [result?, Option.some_inj] at h
    rw [h]
  | lock l act next => simp [result?] at h

/-- The labels of the sections that are left, when nothing comes in between. -/
def labels : Handler L S A → S → List L
  | .ret _, _ => []
  | .lock l act next, s => l :: (next s).labels (act s)

/-- All sections one after the other, with nothing in between. -/
def run : Handler L S A → S → S × A
  | .ret a, s => (s, a)
  | .lock _ act next, s => (next s).run (act s)

@[simp] lemma run_pure (a : A) (s : S) : run (pure a : Handler L S A) s = (s, a) := rfl

@[simp] lemma run_bind (p : Handler L S A) (k : A → Handler L S B) (s : S) :
    run (p >>= k) s = run (k (run p s).2) (run p s).1 := by
  induction p generalizing s with
  | ret a => rfl
  | lock l act next ih => exact ih s (act s)

@[simp] lemma run_ite (c : Prop) [Decidable c] (p q : Handler L S A) (s : S) :
    run (if c then p else q) s = if c then run p s else run q s := by
  by_cases h : c
  · rw [if_pos h, if_pos h]
  · rw [if_neg h, if_neg h]

-- Not by `rfl` alone, so that `simp` also rewrites in the condition of an `if`.
@[simp] lemma run_atomically (l : L) (f : S → S × A) (s : S) : run (atomically l f) s = f s :=
  Prod.ext rfl rfl

@[simp] lemma run_read (l : L) (f : S → A) (s : S) : run (read l f) s = (s, f s) := Prod.ext rfl rfl

@[simp] lemma run_write (l : L) (f : S → S) (s : S) : run (write l f) s = (f s, ()) := rfl

@[simp] lemma run_writeIf (c : Bool) (l : L) (f : S → S) (s : S) :
    run (writeIf c l f) s = (if c then f s else s, ()) := by
  cases c <;> rfl

@[simp] lemma run_orRead (b : Bool) (l : L) (f : S → Bool) (s : S) :
    run (orRead b l f) s = (s, b || f s) := by
  cases b <;> rfl

section Rely

variable (R : S → Prop) (G : L → S → S → Prop)

/-- In states that satisfy `R`, every section satisfies `G`, and then every result `Q`. -/
def Guarantees (Q : A → Prop) : Handler L S A → Prop
  | .ret a => Q a
  | .lock l act next => ∀ s, R s → G l s (act s) ∧ (next s).Guarantees Q

/-- In states that satisfy `R`, every section satisfies `G`, up to a point where what is left
satisfies `E`. -/
def Until (E : Handler L S A → Prop) : Handler L S A → Prop
  | .ret a => E (.ret a)
  | .lock l act next => E (.lock l act next) ∨ ∀ s, R s → G l s (act s) ∧ (next s).Until E

variable {R G}

lemma Guarantees.mono {G' : L → S → S → Prop} {Q Q' : A → Prop} {p : Handler L S A}
    (h : p.Guarantees R G Q) (hG : ∀ l s s', G l s s' → G' l s s') (hQ : ∀ a, Q a → Q' a) :
    p.Guarantees R G' Q' := by
  induction p with
  | ret a => exact hQ a h
  | lock l act next ih => exact fun s hs => ⟨hG l s (act s) (h s hs).1, ih s (h s hs).2⟩

lemma Guarantees.bind {Q : A → Prop} {Q' : B → Prop} {p : Handler L S A} {k : A → Handler L S B}
    (hp : p.Guarantees R G Q) (hk : ∀ a, Q a → (k a).Guarantees R G Q') :
    (p >>= k).Guarantees R G Q' := by
  induction p with
  | ret a => exact hk a hp
  | lock l act next ih => exact fun s hs => ⟨(hp s hs).1, ih s (hp s hs).2⟩

lemma Guarantees.bind_until {Q : A → Prop} {E : Handler L S B → Prop} {p : Handler L S A}
    {k : A → Handler L S B} (hp : p.Guarantees R G Q) (hk : ∀ a, Q a → (k a).Until R G E) :
    (p >>= k).Until R G E := by
  induction p with
  | ret a => exact hk a hp
  | lock l act next ih => exact Or.inr fun s hs => ⟨(hp s hs).1, ih s (hp s hs).2⟩

/-- Where nothing is asked of it, any handler will do. -/
lemma guarantees_trivial (p : Handler L S A) :
    p.Guarantees R (fun _ _ _ => True) (fun _ => True) := by
  induction p with
  | ret a => trivial
  | lock l act next ih => exact fun s _ => ⟨trivial, ih s⟩

lemma until_of_end {E : Handler L S A → Prop} {p : Handler L S A} (h : E p) : p.Until R G E := by
  cases p with
  | ret a => exact h
  | lock l act next => exact Or.inl h

lemma guarantees_pure {Q : A → Prop} {a : A} (h : Q a) :
    (pure a : Handler L S A).Guarantees R G Q := h

lemma guarantees_read {Q : A → Prop} {l : L} {f : S → A} (h : ∀ s, R s → G l s s ∧ Q (f s)) :
    (read l f).Guarantees R G Q := h

lemma guarantees_write {Q : Unit → Prop} {l : L} {f : S → S} (h : ∀ s, R s → G l s (f s) ∧ Q ()) :
    (write l f).Guarantees R G Q := h

/-- The result of a handler that is run alone from here on, where its sections keep what it relies on. -/
lemma Guarantees.run {Q : A → Prop} {p : Handler L S A} (h : p.Guarantees R G Q)
    (hG : ∀ l s s', R s → G l s s' → R s') {s : S} (hR : R s) : Q (p.run s).2 := by
  induction p generalizing s with
  | ret a => exact h
  | lock l act next ih => exact ih s (h s hR).2 (hG l s (act s) hR (h s hR).1)

/-- A label that no section may have. -/
lemma Guarantees.not_mem_labels {Q : A → Prop} {p : Handler L S A} {l : L}
    (h : p.Guarantees (fun _ => True) G Q) (hl : ∀ s s', ¬ G l s s') (s : S) : l ∉ p.labels s := by
  induction p generalizing s with
  | ret a => exact List.not_mem_nil
  | lock l' act next ih =>
    obtain ⟨hG, hnext⟩ := h s trivial
    apply List.not_mem_cons_of_ne_of_not_mem
    · rintro rfl
      exact hl s (act s) hG
    · exact ih s hnext (act s)

lemma Guarantees.ite {Q : A → Prop} {c : Prop} [Decidable c] {p q : Handler L S A}
    (hp : p.Guarantees R G Q) (hq : q.Guarantees R G Q) :
    (if c then p else q).Guarantees R G Q := by
  by_cases h : c
  · rw [if_pos h]
    exact hp
  · rw [if_neg h]
    exact hq

lemma guarantees_writeIf {Q : Unit → Prop} {c : Bool} {l : L} {f : S → S} (hQ : Q ())
    (h : ∀ s, R s → G l s (f s)) : (writeIf c l f).Guarantees R G Q :=
  Guarantees.ite (guarantees_write fun s hs => ⟨h s hs, hQ⟩) (guarantees_pure hQ)

lemma guarantees_orRead {Q : Bool → Prop} {b : Bool} {l : L} {f : S → Bool} (hQ : ∀ c, Q c)
    (h : ∀ s, R s → G l s s) : (orRead b l f).Guarantees R G Q :=
  Guarantees.ite (guarantees_pure (hQ _)) (guarantees_read fun s hs => ⟨h s hs, hQ _⟩)

/-- The right side is entered only where the left one is false. -/
lemma guarantees_orRead_of {Q : Bool → Prop} {b : Bool} {l : L} {f : S → Bool} (htrue : b = true → Q true)
    (hfalse : b = false → ∀ s, R s → G l s s ∧ Q (f s)) : (orRead b l f).Guarantees R G Q := by
  cases b with
  | true => exact guarantees_pure (htrue rfl)
  | false => exact guarantees_read (hfalse rfl)

end Rely

/-- Unless it holds already, a section that is left makes `P` true. -/
def Ensures (P : S → Prop) : Handler L S A → Prop
  | .ret _ => False
  | .lock _ act next => ∀ s, P (act s) ∨ (next s).Ensures P

lemma Ensures.result?_eq_none {P : S → Prop} {p : Handler L S A} (h : p.Ensures P) : p.result? = none := by
  cases p with
  | ret a => exact h.elim
  | lock l act next => rfl

end Handler

/-- A shared state and the handlers being served, of any number and with results of any
types. -/
structure World (L S : Type) {ι : Type} (A : ι → Type) where
  state : S
  handlers : ∀ i, Handler L S (A i)

namespace World

variable {L S ι : Type} {A : ι → Type} [DecidableEq ι]

/-- The next section of handler `i`. -/
def step (w : World L S A) (i : ι) : World L S A :=
  match w.handlers i with
  | .ret _ => w
  | .lock _ act next => ⟨act w.state, Function.update w.handlers i (next w.state)⟩

lemma step_of_ret {w : World L S A} {i : ι} {a : A i} (h : w.handlers i = .ret a) :
    w.step i = w := by
  simp [step, h]

lemma step_of_lock {w : World L S A} {i : ι} {l : L} {act : S → S}
    {next : S → Handler L S (A i)} (h : w.handlers i = .lock l act next) :
    w.step i = ⟨act w.state, Function.update w.handlers i (next w.state)⟩ := by
  simp [step, h]

lemma step_state_of_lock {w : World L S A} {i : ι} {l : L} {act : S → S}
    {next : S → Handler L S (A i)} (h : w.handlers i = .lock l act next) :
    (w.step i).state = act w.state := by
  rw [step_of_lock h]

lemma step_handlers_self {w : World L S A} {i : ι} {l : L} {act : S → S}
    {next : S → Handler L S (A i)} (h : w.handlers i = .lock l act next) :
    (w.step i).handlers i = next w.state := by
  rw [step_of_lock h]
  exact Function.update_self i _ _

lemma step_handlers_of_ne (w : World L S A) {i j : ι} (h : j ≠ i) :
    (w.step i).handlers j = w.handlers j := by
  unfold step
  split
  · rfl
  · exact Function.update_of_ne h _ _

section Rely

variable {R : S → Prop} {G : L → S → S → Prop} {w : World L S A} {i j : ι}

/-- A step is a section that the handler guarantees, or none. -/
lemma state_step {Q : A i → Prop} (h : (w.handlers i).Guarantees R G Q) (hR : R w.state) :
    (w.step i).state = w.state ∨ ∃ l, G l w.state (w.step i).state := by
  cases hp : w.handlers i with
  | ret a => exact Or.inl (by rw [step_of_ret hp])
  | lock l act next =>
    rw [hp] at h
    rw [step_state_of_lock hp]
    exact Or.inr ⟨l, (h w.state hR).1⟩

/-- Whoever takes a step, a handler goes on to guarantee the same. -/
lemma guarantees_step {Q : A j → Prop} (h : (w.handlers j).Guarantees R G Q) (hR : R w.state) (i : ι) :
    ((w.step i).handlers j).Guarantees R G Q := by
  by_cases hj : j = i
  · subst hj
    cases hp : w.handlers j with
    | ret a => rwa [step_of_ret hp]
    | lock l act next =>
      rw [hp] at h
      rw [step_handlers_self hp]
      exact (h w.state hR).2
  · rwa [step_handlers_of_ne w hj]

/-- What all handlers keep and one of them is going to make true. -/
lemma ensures_step {P : S → Prop}
    (hkeeps : ∀ i, (w.handlers i).Guarantees (fun _ => True) (fun _ s s' => P s → P s') fun _ => True)
    (h : P w.state ∨ (w.handlers j).Ensures P) (i : ι) :
    P (w.step i).state ∨ ((w.step i).handlers j).Ensures P := by
  rcases h with h | h
  · rcases state_step (hkeeps i) trivial with hstate | ⟨l, hP⟩
    · rw [hstate]
      exact Or.inl h
    · exact Or.inl (hP h)
  · by_cases hj : j = i
    · subst hj
      cases hp : w.handlers j with
      | ret a =>
        rw [hp] at h
        exact h.elim
      | lock l act next =>
        rw [hp] at h
        rw [step_state_of_lock hp, step_handlers_self hp]
        exact h w.state
    · rw [step_handlers_of_ne w hj]
      exact Or.inr h

end Rely

/-- Scheduling one handler until it has finished is running it alone. -/
theorem exists_schedule_run (w : World L S A) (i : ι) :
    ∃ n, Machine.run step w (List.replicate n i) =
      ⟨((w.handlers i).run w.state).1,
        Function.update w.handlers i (.ret ((w.handlers i).run w.state).2)⟩ := by
  obtain ⟨s, p⟩ := w
  simp only
  generalize hp : p i = q
  induction q generalizing s p with
  | ret a =>
    refine ⟨0, ?_⟩
    simp only [List.replicate_zero, Machine.run_nil, Handler.run]
    rw [← hp, Function.update_eq_self]
  | lock l act next ih =>
    obtain ⟨n, hn⟩ := ih s (act s) (Function.update p i (next s)) (Function.update_self i _ p)
    refine ⟨n + 1, ?_⟩
    rw [List.replicate_succ, Machine.run_cons, step_of_lock hp, hn, Function.update_idem]
    rfl

end World

end Machine
