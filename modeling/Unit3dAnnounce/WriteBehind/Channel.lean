import Unit3dAnnounce.Collections.IndexMap
import Unit3dAnnounce.WriteBehind.Cell

/-!
# Write-behind channels

A queue of updates by key, the batches taken from it whose write is still running, and the
table they are written to. Every key of a channel moves like a `Cell`, whatever the batches
look like, so a property of all runs of a channel is proved on a cell.
-/

namespace WriteBehind

structure Channel (K V R : Type) where
  queue : IndexMap K V
  inflight : List (IndexMap K V)
  table : IndexMap K R

/-- What happens at a channel. A write is reported for one batch at a time. -/
inductive Event (C K V : Type) where
  | enqueue (k : K) (v : V)
  | take
  | commit (ctx : C) (b : IndexMap K V)
  | fail (b : IndexMap K V)

/-- The updates for `k` that an event adds. -/
def Event.enqueued {C K V : Type} [DecidableEq K] (k : K) : Event C K V → Multiset V
  | .enqueue k' v => if k' = k then {v} else 0
  | _ => 0

namespace Channel

variable {C K V R : Type} [DecidableEq K]

section Steps

variable (merge : V → V → V) (write : C → Option R → V → R)

def enqueue (queue : IndexMap K V) (k : K) (v : V) : IndexMap K V :=
  queue.upsert k (fun q => merge q v) v

/-- Puts a batch back, record by record. -/
def requeue (queue b : IndexMap K V) : IndexMap K V :=
  queue.upsertAll b (fun _ v q => merge q v) (fun _ v => v)

/-- Writes a batch to the table. -/
def writeAll (ctx : C) (table : IndexMap K R) (b : IndexMap K V) : IndexMap K R :=
  table.upsertAll b (fun _ v r => write ctx (some r) v) (fun _ v => write ctx none v)

inductive Step : Channel K V R → Event C K V → Channel K V R → Prop
  | enqueue (c : Channel K V R) (k : K) (v : V) :
    Step c (.enqueue k v) { c with queue := enqueue merge c.queue k v }
  | take (c : Channel K V R) (rest : IndexMap K V) (batches : List (IndexMap K V))
      (h : c.queue.entries.Perm (batches.flatMap IndexMap.entries ++ rest.entries)) :
    Step c .take { c with queue := rest, inflight := c.inflight ++ batches }
  | commit (c : Channel K V R) (ctx : C) (b : IndexMap K V) (l l' : List (IndexMap K V))
      (h : c.inflight = l ++ b :: l') :
    Step c (.commit ctx b) { c with inflight := l ++ l', table := writeAll write ctx c.table b }
  | fail (c : Channel K V R) (b : IndexMap K V) (l l' : List (IndexMap K V))
      (h : c.inflight = l ++ b :: l') :
    Step c (.fail b) { c with inflight := l ++ l', queue := requeue merge c.queue b }

inductive Run : Channel K V R → List (Event C K V) → Channel K V R → Prop
  | nil (c : Channel K V R) : Run c [] c
  | snoc {c c' c'' : Channel K V R} {es : List (Event C K V)} {e : Event C K V} :
    Run c es c' → Step merge write c' e c'' → Run c (es ++ [e]) c''

/-- A step that may be none. -/
def Steps (c : Channel K V R) (e : Option (Event C K V)) (c' : Channel K V R) : Prop :=
  e.elim (c' = c) (fun e => Step merge write c e c')

lemma Run.append {c c' c'' : Channel K V R} {es es' : List (Event C K V)}
    (h : Run merge write c es c') (h' : Run merge write c' es' c'') :
    Run merge write c (es ++ es') c'' := by
  induction h' with
  | nil => simpa using h
  | snoc _ hs ih =>
    rw [← List.append_assoc]
    exact ih.snoc hs

lemma Steps.run {c c' : Channel K V R} {e : Option (Event C K V)} (h : Steps merge write c e c') :
    Run merge write c e.toList c' := by
  cases e with
  | none =>
    have he : c' = c := h
    rw [he]
    exact Run.nil c
  | some e => exact (Run.nil c).snoc h

end Steps

def cell (c : Channel K V R) (k : K) : Cell V R :=
  ⟨c.queue.get? k, Multiset.ofList (c.inflight.filterMap (fun b => b.get? k)), c.table.get? k⟩

/-- How an event acts on the key `k`. -/
inductive ActsOn (k : K) : Event C K V → Option (Action C V) → Prop
  | enqueue (v : V) : ActsOn k (.enqueue k v) (some (.enqueue v))
  | enqueueOther {k' : K} (v : V) (h : k' ≠ k) : ActsOn k (.enqueue k' v) none
  | take : ActsOn k .take (some .take)
  | takeOther : ActsOn k .take none
  | commit {ctx : C} {b : IndexMap K V} {v : V} (h : b.get? k = some v) :
    ActsOn k (.commit ctx b) (some (.commit ctx v))
  | commitOther {ctx : C} {b : IndexMap K V} (h : b.get? k = none) : ActsOn k (.commit ctx b) none
  | fail {b : IndexMap K V} {v : V} (h : b.get? k = some v) : ActsOn k (.fail b) (some (.fail v))
  | failOther {b : IndexMap K V} (h : b.get? k = none) : ActsOn k (.fail b) none

variable {merge : V → V → V} {write : C → Option R → V → R}

lemma get?_enqueue (queue : IndexMap K V) (k k' : K) (v : V) :
    (enqueue merge queue k v).get? k' =
      if k' = k then some ((queue.get? k).elim v (fun q => merge q v)) else queue.get? k' :=
  IndexMap.get?_upsert _ _ _ _ _

lemma get?_requeue (queue b : IndexMap K V) (k : K) :
    (requeue merge queue b).get? k =
      match b.get? k with
      | none => queue.get? k
      | some v => some ((queue.get? k).elim v (fun q => merge q v)) :=
  IndexMap.get?_upsertAll _ _ _ _ _

lemma get?_writeAll (ctx : C) (table : IndexMap K R) (b : IndexMap K V) (k : K) :
    (writeAll write ctx table b).get? k =
      match b.get? k with
      | none => table.get? k
      | some v => some (write ctx (table.get? k) v) := by
  rw [writeAll, IndexMap.get?_upsertAll]
  cases b.get? k with
  | none => rfl
  | some v => cases table.get? k <;> rfl

/-- Where the record of `k` goes when batches are taken. -/
lemma get?_of_take {queue rest : IndexMap K V} {batches : List (IndexMap K V)}
    (h : queue.entries.Perm (batches.flatMap IndexMap.entries ++ rest.entries)) (k : K) :
    (queue.get? k).toList.Perm (batches.filterMap (fun b => b.get? k) ++ (rest.get? k).toList) := by
  have hp := h.filterMap (fun e => if e.1 = k then some e.2 else none)
  rw [List.filterMap_append, IndexMap.filterMap_entries, IndexMap.filterMap_entries,
    List.filterMap_flatMap] at hp
  have hb : batches.flatMap (fun b => b.entries.filterMap (fun e => if e.1 = k then some e.2 else none)) =
      batches.filterMap (fun b => b.get? k) := by
    rw [List.filterMap_eq_flatMap_toList]
    exact List.flatMap_congr fun b _ => IndexMap.filterMap_entries b k
  rwa [hb] at hp

lemma ofList_middle (l l' : List (IndexMap K V)) (b : IndexMap K V) (k : K) :
    (Multiset.ofList ((l ++ b :: l').filterMap (fun b => b.get? k)) : Multiset V) =
      Multiset.ofList (b.get? k).toList + Multiset.ofList ((l ++ l').filterMap (fun b => b.get? k)) := by
  rw [List.filterMap_append, List.filterMap_append, List.filterMap_cons, Multiset.coe_add]
  cases h : b.get? k with
  | none => simp
  | some v =>
    simp only [Option.toList_some, List.singleton_append]
    exact Multiset.coe_eq_coe.mpr List.perm_middle

lemma cell_of_middle {c : Channel K V R} {l l' : List (IndexMap K V)} {b : IndexMap K V}
    (h : c.inflight = l ++ b :: l') (k : K) :
    c.cell k = ⟨c.queue.get? k,
      Multiset.ofList (b.get? k).toList + Multiset.ofList ((l ++ l').filterMap (fun b => b.get? k)),
      c.table.get? k⟩ := by
  rw [cell, h, ofList_middle]

lemma cell_enqueue (c : Channel K V R) (k k' : K) (v : V) :
    ∃ a : Option (Action C V), ActsOn k (.enqueue k' v) a ∧ Cell.Steps merge write (c.cell k) a
      (cell { c with queue := enqueue merge c.queue k' v } k) := by
  by_cases hk : k' = k
  · subst hk
    refine ⟨some (.enqueue v), .enqueue v, ?_⟩
    have hc : Channel.cell { c with queue := Channel.enqueue merge c.queue k' v } k' =
        (c.cell k').enqueue merge v := by
      simp [Channel.cell, Cell.enqueue, get?_enqueue]
    rw [hc]
    exact Cell.Step.enqueue _ v
  · refine ⟨none, .enqueueOther v hk, ?_⟩
    have hk' : ¬ k = k' := fun h => hk h.symm
    simp [Cell.Steps, Channel.cell, get?_enqueue, hk']

/-- A record that waits for the key stays in the queue, or is in one of the batches. -/
lemma cell_take {c : Channel K V R} {rest : IndexMap K V} {batches : List (IndexMap K V)}
    (hp : c.queue.entries.Perm (batches.flatMap IndexMap.entries ++ rest.entries)) (k : K) :
    ∃ a : Option (Action C V), ActsOn k .take a ∧ Cell.Steps merge write (c.cell k) a
      (cell { c with queue := rest, inflight := c.inflight ++ batches } k) := by
  have hk := get?_of_take hp k
  cases hq : c.queue.get? k with
  | none =>
    refine ⟨none, .takeOther, ?_⟩
    rw [hq, Option.toList_none, List.nil_perm, List.append_eq_nil_iff] at hk
    have hr : rest.get? k = none := by simpa using hk.2
    simp [Cell.Steps, Channel.cell, hk.1, hr, hq]
  | some v =>
    rw [hq, Option.toList_some] at hk
    cases hr : rest.get? k with
    | some w =>
      refine ⟨none, .takeOther, ?_⟩
      rw [hr, Option.toList_some] at hk
      have hl := hk.length_eq
      rw [List.length_append, List.length_singleton, List.length_singleton] at hl
      have hb : batches.filterMap (fun b => b.get? k) = [] :=
        List.length_eq_zero_iff.mp (by omega)
      rw [hb, List.nil_append, List.singleton_perm_singleton] at hk
      simp [Cell.Steps, Channel.cell, hb, hr, hq, hk]
    | none =>
      refine ⟨some .take, .take, ?_⟩
      rw [hr, Option.toList_none, List.append_nil, List.singleton_perm] at hk
      have hbefore : c.cell k = ⟨some v, (c.cell k).inflight, (c.cell k).row⟩ := by
        simp [Channel.cell, hq]
      have hafter : Channel.cell { c with queue := rest, inflight := c.inflight ++ batches } k =
          ⟨none, v ::ₘ (c.cell k).inflight, (c.cell k).row⟩ := by
        simp only [Channel.cell, hr, List.filterMap_append, Cell.mk.injEq, true_and, and_true]
        rw [← Multiset.coe_add, ← hk, Multiset.coe_singleton, add_comm, Multiset.singleton_add]
      rw [hbefore, hafter]
      exact Cell.Step.take _ _ _

lemma cell_commit {c : Channel K V R} {l l' : List (IndexMap K V)} {b : IndexMap K V}
    (h : c.inflight = l ++ b :: l') (ctx : C) (k : K) :
    ∃ a, ActsOn k (.commit ctx b) a ∧ Cell.Steps merge write (c.cell k) a
      (cell { c with inflight := l ++ l', table := writeAll write ctx c.table b } k) := by
  rw [cell_of_middle h]
  cases hb : b.get? k with
  | none =>
    refine ⟨none, .commitOther hb, ?_⟩
    simp only [Cell.Steps, Option.elim_none, Channel.cell, get?_writeAll, hb, Option.toList_none,
      Multiset.coe_nil, zero_add]
  | some v =>
    refine ⟨some (.commit ctx v), .commit hb, ?_⟩
    simp only [Cell.Steps, Option.elim_some, Channel.cell, get?_writeAll, hb, Option.toList_some,
      Multiset.coe_singleton, Multiset.singleton_add]
    exact Cell.Step.commit _ _ _ _ _

lemma cell_fail {c : Channel K V R} {l l' : List (IndexMap K V)} {b : IndexMap K V}
    (h : c.inflight = l ++ b :: l') (k : K) :
    ∃ a : Option (Action C V), ActsOn k (.fail b) a ∧ Cell.Steps merge write (c.cell k) a
      (cell { c with inflight := l ++ l', queue := requeue merge c.queue b } k) := by
  rw [cell_of_middle h]
  cases hb : b.get? k with
  | none =>
    refine ⟨none, .failOther hb, ?_⟩
    simp only [Cell.Steps, Option.elim_none, Channel.cell, get?_requeue, hb, Option.toList_none,
      Multiset.coe_nil, zero_add]
  | some v =>
    refine ⟨some (.fail v), .fail hb, ?_⟩
    simp only [Cell.Steps, Option.elim_some, Channel.cell, get?_requeue, hb, Option.toList_some,
      Multiset.coe_singleton, Multiset.singleton_add]
    exact Cell.Step.fail _ _ _ _

/-- A channel moves each of its keys like a cell. -/
theorem Step.cell {c c' : Channel K V R} {e : Event C K V} (h : Step merge write c e c') (k : K) :
    ∃ a, ActsOn k e a ∧ Cell.Steps merge write (c.cell k) a (c'.cell k) := by
  cases h with
  | enqueue k' v => exact cell_enqueue c k k' v
  | take rest batches hp => exact cell_take hp k
  | commit ctx b l l' hl => exact cell_commit hl ctx k
  | fail b l l' hl => exact cell_fail hl k

/-- How a step that may be none moves a cell. -/
lemma Steps.cell {c c' : Channel K V R} {e : Option (Event C K V)} (h : Steps merge write c e c')
    (k : K) : ∃ a, e.elim (a = none) (fun e => ActsOn k e a) ∧
      Cell.Steps merge write (c.cell k) a (c'.cell k) := by
  cases e with
  | none =>
    have he : c' = c := h
    exact ⟨none, rfl, by rw [he]; rfl⟩
  | some e => exact Step.cell h k

lemma enqueued_of_actsOn {k : K} {e : Event C K V} {a : Option (Action C V)} (h : ActsOn k e a) :
    a.elim 0 Action.enqueued = e.enqueued k := by
  cases h <;> simp_all [Action.enqueued, Event.enqueued]

variable {total : Multiset V} {Rep : Multiset V → V → Prop} {RowRep : Multiset V → Option R → Prop}

/-- Starting with nothing waiting and nothing in flight, the updates enqueued for a key are
always accounted for. -/
theorem Run.accounted {c c' : Channel K V R} {es : List (Event C K V)}
    (h : Run merge write c es c') (k : K)
    (hrep : Cell.Represents merge write total Rep RowRep)
    (hle : (es.map (Event.enqueued k)).sum ≤ total) (hq : c.queue.get? k = none)
    (hi : c.inflight = []) (hr : RowRep 0 (c.table.get? k)) :
    Cell.Accounted Rep RowRep (es.map (Event.enqueued k)).sum (c'.cell k) := by
  induction h with
  | nil => exact Cell.accounted_zero hq (by simp [cell, hi]) hr
  | snoc _ hs ih =>
    rw [List.map_append, List.sum_append, List.map_singleton, List.sum_singleton] at hle ⊢
    obtain ⟨a, ha, hstep⟩ := hs.cell k
    have hc := ih ((Multiset.le_add_right _ _).trans hle)
    rw [← enqueued_of_actsOn ha] at hle ⊢
    exact hc.steps hrep hstep hle

end Channel

end WriteBehind
