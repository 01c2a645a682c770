import Mathlib.Algebra.BigOperators.Group.Multiset.Basic
import Mathlib.Algebra.Order.BigOperators.Group.Multiset
import Mathlib.Algebra.Order.Group.Multiset
import Mathlib.Tactic.Abel

/-!
# A write-behind store, seen by one key

Updates for a key wait in a queue, where a new one is merged into the waiting one. They are
taken in batches, and a taken batch is either written to the table or, when the write fails,
put back. `Cell` is what all of that leaves of a single key. The accounting theorem says that
the updates enqueued so far are, at every moment and each exactly once, among the waiting
record, the records in flight and the row.
-/

namespace WriteBehind

/-- The record waiting for a key, its records in flight, and its row. -/
structure Cell (V R : Type) where
  queued : Option V
  inflight : Multiset V
  row : Option R

/-- What happens to a record. A write has a context, such as the settings of its time. -/
inductive Action (C V : Type) where
  | enqueue (v : V)
  | take
  | commit (ctx : C) (v : V)
  | fail (v : V)

/-- The update that an action adds to the store. -/
def Action.enqueued {C V : Type} : Action C V → Multiset V
  | .enqueue v => {v}
  | _ => 0

/-- The record that an action merges into the waiting one. -/
def Action.incoming {C V : Type} : Action C V → Option V
  | .enqueue v => some v
  | .fail v => some v
  | _ => none

namespace Cell

variable {C V R : Type}

section Steps

variable (merge : V → V → V) (write : C → Option R → V → R)

def enqueue (c : Cell V R) (v : V) : Cell V R :=
  { c with queued := some (c.queued.elim v (fun q => merge q v)) }

inductive Step : Cell V R → Action C V → Cell V R → Prop
  | enqueue (c : Cell V R) (v : V) : Step c (.enqueue v) (c.enqueue merge v)
  | take (v : V) (i : Multiset V) (r : Option R) : Step ⟨some v, i, r⟩ .take ⟨none, v ::ₘ i, r⟩
  | commit (ctx : C) (v : V) (q : Option V) (i : Multiset V) (r : Option R) :
    Step ⟨q, v ::ₘ i, r⟩ (.commit ctx v) ⟨q, i, some (write ctx r v)⟩
  | fail (v : V) (q : Option V) (i : Multiset V) (r : Option R) :
    Step ⟨q, v ::ₘ i, r⟩ (.fail v) ((⟨q, i, r⟩ : Cell V R).enqueue merge v)

/-- A step of the store that may leave the key alone. -/
def Steps (c : Cell V R) (a : Option (Action C V)) (c' : Cell V R) : Prop :=
  a.elim (c' = c) (fun a => Step merge write c a c')

/-- Where nothing waits and nothing is in flight, only a new update can do anything. -/
lemma Step.enqueued_ne_zero {c c' : Cell V R} {a : Action C V} (h : Step merge write c a c')
    (hq : c.queued = none) (hi : c.inflight = 0) : a.enqueued ≠ 0 := by
  cases h with
  | enqueue _ v => simp [Action.enqueued]
  | take v i r => simp at hq
  | commit ctx v q i r => exact absurd hi (Multiset.cons_ne_zero)
  | fail v q i r => exact absurd hi (Multiset.cons_ne_zero)

/-- What is merged into a waiting record. -/
lemma Step.queued_of_incoming {c c' : Cell V R} {a : Action C V} (h : Step merge write c a c')
    {q v : V} (hv : a.incoming = some v) (hq : c.queued = some q) : c'.queued = some (merge q v) := by
  cases h with
  | enqueue _ w =>
    simp only [Action.incoming, Option.some_inj] at hv
    rw [Cell.enqueue, hq, hv]
    rfl
  | take w i r => simp [Action.incoming] at hv
  | commit ctx w o i r => simp [Action.incoming] at hv
  | fail w o i r =>
    simp only [Action.incoming, Option.some_inj] at hv
    simp only at hq
    rw [Cell.enqueue, hq, hv]
    rfl

/-- A row never goes away. -/
lemma Step.row_ne_none {c c' : Cell V R} {a : Action C V} (h : Step merge write c a c')
    (hr : c.row ≠ none) : c'.row ≠ none := by
  cases h with
  | commit ctx w o i r => exact Option.some_ne_none _
  | enqueue _ w => exact hr
  | take w i r => exact hr
  | fail w o i r => exact hr

lemma Step.mem_inflight {c c' : Cell V R} {v : V} (h : Step merge write c (.fail v) c') :
    v ∈ c.inflight := by
  cases h with
  | fail _ q i r => exact Multiset.mem_cons_self v i

end Steps

section Accounting

/-- `Rep s v` says that the record `v` stands for the updates `s`, and `RowRep s r` that the
row `r` has absorbed them. Merging and writing have to respect this on the updates of `total`. -/
structure Represents (merge : V → V → V) (write : C → Option R → V → R) (total : Multiset V)
    (Rep : Multiset V → V → Prop) (RowRep : Multiset V → Option R → Prop) : Prop where
  single : ∀ v ∈ total, Rep {v} v
  merge : ∀ s t v w, s + t ≤ total → Rep s v → Rep t w → Rep (s + t) (merge v w)
  write : ∀ ctx s t r v, s + t ≤ total → RowRep s r → Rep t v →
    RowRep (s + t) (some (write ctx r v))

/-- The updates `log` are split between the waiting record, the records in flight and the
row, each of which stands for its share. -/
def Accounted (Rep : Multiset V → V → Prop) (RowRep : Multiset V → Option R → Prop)
    (log : Multiset V) (c : Cell V R) : Prop :=
  ∃ (q d : Multiset V) (i : Multiset (Multiset V × V)),
    log = q + (i.map Prod.fst).sum + d ∧ c.queued.elim (q = 0) (Rep q) ∧
      i.map Prod.snd = c.inflight ∧ (∀ p ∈ i, Rep p.1 p.2) ∧ RowRep d c.row

variable {merge : V → V → V} {write : C → Option R → V → R} {total : Multiset V}
  {Rep : Multiset V → V → Prop} {RowRep : Multiset V → Option R → Prop}

lemma accounted_zero {c : Cell V R} (hq : c.queued = none) (hi : c.inflight = 0)
    (hr : RowRep 0 c.row) : Accounted Rep RowRep 0 c :=
  ⟨0, 0, 0, by simp, by simp [hq], by simp [hi], by simp, hr⟩

lemma represents_enqueue (h : Represents merge write total Rep RowRep) {c : Cell V R}
    {q s : Multiset V} {v : V} (hle : q + s ≤ total) (hq : c.queued.elim (q = 0) (Rep q))
    (hv : Rep s v) : Rep (q + s) (c.queued.elim v (fun w => merge w v)) := by
  cases hc : c.queued with
  | none =>
    rw [hc] at hq
    have hq0 : q = 0 := hq
    simpa [hq0] using hv
  | some w =>
    rw [hc] at hq
    exact h.merge q s w v hle hq hv

/-- A record in flight, and the share of the updates that it stands for. -/
lemma exists_share {i : Multiset (Multiset V × V)} {v : V} {j : Multiset V}
    (h : i.map Prod.snd = v ::ₘ j) : ∃ s i', i = (s, v) ::ₘ i' ∧ i'.map Prod.snd = j := by
  have hv : v ∈ i.map Prod.snd := by simp [h]
  obtain ⟨⟨s, w⟩, hp, rfl⟩ := Multiset.mem_map.mp hv
  obtain ⟨i', rfl⟩ := Multiset.exists_cons_of_mem hp
  refine ⟨s, i', rfl, ?_⟩
  rw [Multiset.map_cons, Multiset.cons_inj_right] at h
  exact h

/-- No step of the store loses or repeats an update. -/
theorem Accounted.step (h : Represents merge write total Rep RowRep) {log : Multiset V}
    {c c' : Cell V R} {a : Action C V} (hs : Step merge write c a c')
    (hle : log + a.enqueued ≤ total) (hc : Accounted Rep RowRep log c) :
    Accounted Rep RowRep (log + a.enqueued) c' := by
  obtain ⟨q, d, i, rfl, hq, hi, hrep, hrow⟩ := hc
  cases hs with
  | enqueue _ v =>
    have hv : v ∈ total := Multiset.mem_of_le hle (by simp [Action.enqueued])
    have hqv : q + {v} ≤ total := le_trans (le_of_le_of_eq (Multiset.le_add_right _
      ((i.map Prod.fst).sum + d)) (by simp only [Action.enqueued]; abel)) hle
    refine ⟨q + {v}, d, i, by simp only [Action.enqueued]; abel, ?_, hi, hrep, hrow⟩
    exact represents_enqueue h hqv hq (h.single v hv)
  | take v j r =>
    refine ⟨0, d, (q, v) ::ₘ i, ?_, rfl, by simp [hi], ?_, hrow⟩
    · simp only [Action.enqueued, Multiset.map_cons, Multiset.sum_cons]
      abel
    · intro p hp
      rcases Multiset.mem_cons.mp hp with rfl | hp
      · exact hq
      · exact hrep p hp
  | commit ctx v o j r =>
    obtain ⟨s, i', rfl, hi'⟩ := exists_share hi
    rw [Multiset.map_cons, Multiset.sum_cons] at hle ⊢
    have hds : d + s ≤ total := le_trans (le_of_le_of_eq (Multiset.le_add_right _
      (q + (i'.map Prod.fst).sum)) (by simp only [Action.enqueued]; abel)) hle
    refine ⟨q, d + s, i', by simp only [Action.enqueued]; abel, hq, hi',
      fun p hp => hrep p (Multiset.mem_cons_of_mem hp), ?_⟩
    exact h.write ctx d s r v hds hrow (hrep _ (Multiset.mem_cons_self _ _))
  | fail v o j r =>
    obtain ⟨s, i', rfl, hi'⟩ := exists_share hi
    rw [Multiset.map_cons, Multiset.sum_cons] at hle ⊢
    have hqs : q + s ≤ total := le_trans (le_of_le_of_eq (Multiset.le_add_right _
      ((i'.map Prod.fst).sum + d)) (by simp only [Action.enqueued]; abel)) hle
    refine ⟨q + s, d, i', by simp only [Action.enqueued]; abel, ?_, hi',
      fun p hp => hrep p (Multiset.mem_cons_of_mem hp), hrow⟩
    exact represents_enqueue (c := ⟨o, j, r⟩) h hqs hq (hrep _ (Multiset.mem_cons_self _ _))

lemma Accounted.steps (h : Represents merge write total Rep RowRep) {log : Multiset V}
    {c c' : Cell V R} {a : Option (Action C V)} (hs : Steps merge write c a c')
    (hle : log + a.elim 0 Action.enqueued ≤ total) (hc : Accounted Rep RowRep log c) :
    Accounted Rep RowRep (log + a.elim 0 Action.enqueued) c' := by
  cases a with
  | none =>
    have he : c' = c := hs
    simpa [he] using hc
  | some a => exact hc.step h hs hle

end Accounting

section Amounts

variable (amount : V → ℤ) (column : Option R → ℤ)

/-- What a column will hold once everything waiting and in flight is written. -/
def total (c : Cell V R) : ℤ :=
  column c.row + (c.inflight.map amount).sum + c.queued.elim 0 amount

variable {amount column} {merge : V → V → V} {write : C → Option R → V → R}

lemma sum_shares {i : Multiset (Multiset V × V)}
    (h : ∀ p ∈ i, amount p.2 = (p.1.map amount).sum) :
    ((i.map Prod.snd).map amount).sum = (((i.map Prod.fst).sum).map amount).sum := by
  induction i using Multiset.induction_on with
  | empty => rfl
  | cons p i ih =>
    simp only [Multiset.map_cons, Multiset.sum_cons, Multiset.map_add, Multiset.sum_add]
    rw [h p (Multiset.mem_cons_self _ _), ih (fun p' hp => h p' (Multiset.mem_cons_of_mem hp))]

/-- Accounted updates are conserved by every additive column. -/
theorem Accounted.total_eq {log : Multiset V} {base : ℤ} {c : Cell V R}
    (h : Accounted (fun s v => amount v = (s.map amount).sum)
      (fun s r => column r = base + (s.map amount).sum) log c) :
    c.total amount column = base + (log.map amount).sum := by
  obtain ⟨q, d, i, rfl, hq, hi, hrep, hrow⟩ := h
  have hqs : c.queued.elim 0 amount = (q.map amount).sum := by
    cases hc : c.queued with
    | none =>
      rw [hc] at hq
      have hq0 : q = 0 := hq
      simp [hq0]
    | some v =>
      rw [hc] at hq
      exact hq
  rw [total, hrow, hqs, ← hi, sum_shares hrep]
  simp only [Multiset.map_add, Multiset.sum_add]
  abel

lemma total_enqueue {c : Cell V R} {v : V}
    (hmerge : ∀ q, c.queued = some q → amount (merge q v) = amount q + amount v) :
    (c.enqueue merge v).total amount column = c.total amount column + amount v := by
  simp only [total, Cell.enqueue, Option.elim_some]
  cases hq : c.queued with
  | none => simp only [Option.elim_none, add_zero]
  | some q =>
    rw [Option.elim_some, Option.elim_some, hmerge q hq]
    omega

/-- A step adds to a column what it enqueues, where its merge adds exactly. -/
theorem total_step {c c' : Cell V R} {a : Action C V} (hs : Step merge write c a c')
    (hmerge : ∀ q v, a.incoming = some v → c.queued = some q →
      amount (merge q v) = amount q + amount v)
    (hwrite : ∀ ctx r v, column (some (write ctx r v)) = column r + amount v) :
    c'.total amount column = c.total amount column + (a.enqueued.map amount).sum := by
  cases hs with
  | enqueue _ v =>
    rw [total_enqueue fun q hq => hmerge q v rfl hq]
    simp only [Action.enqueued, Multiset.map_singleton, Multiset.sum_singleton]
  | take v i r =>
    simp only [total, Action.enqueued, Option.elim_none, Option.elim_some, Multiset.map_cons,
      Multiset.sum_cons, Multiset.map_zero, Multiset.sum_zero]
    omega
  | commit ctx v q i r =>
    simp only [total, Action.enqueued, hwrite, Multiset.map_cons, Multiset.sum_cons,
      Multiset.map_zero, Multiset.sum_zero]
    omega
  | fail v q i r =>
    rw [total_enqueue (c := ⟨q, i, r⟩) fun w hw => hmerge w v rfl hw]
    simp only [total, Action.enqueued, Multiset.map_cons, Multiset.sum_cons, Multiset.map_zero,
      Multiset.sum_zero]
    omega

end Amounts

end Cell

end WriteBehind
