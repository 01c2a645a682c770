import Mathlib.Data.List.Perm.Basic
import Mathlib.Logic.Function.Basic
import Unit3dAnnounce.Machine.Run

/-!
# Threads that share a state

Threads keep a state of their own and act on one that they share. A schedule says whose step is next.
As a thread looks at nothing but its own state, it does the same under every schedule, and where the
actions commute they leave the same behind.
-/

namespace Machine

structure Threads (I L S : Type) where
  locals : I → L
  shared : S

namespace Threads

variable {I L A S : Type}

/-- What a thread does until it is done, when it is left alone. -/
inductive Trace (next : L → Option (L × A)) : L → List A → L → Prop
  | done {l : L} (h : next l = none) : Trace next l [] l
  | step {l l' l'' : L} {a : A} {as : List A} (h : next l = some (l', a)) (ht : Trace next l' as l'') :
    Trace next l (a :: as) l''

lemma Trace.next_eq_none {next : L → Option (L × A)} {l l' : L} {as : List A}
    (h : Trace next l as l') : next l' = none := by
  induction h with
  | done hnone => exact hnone
  | step _ _ ih => exact ih

lemma Trace.next_of_nil {next : L → Option (L × A)} {l l' : L} (h : Trace next l [] l') :
    next l = none := by
  cases h with
  | done hnone => exact hnone

section Steps

variable [DecidableEq I] (next : L → Option (L × A)) (act : S → A → S)

/-- A step of one thread. Nothing happens when it is done. -/
def step (threads : Threads I L S) (i : I) : Threads I L S :=
  match next (threads.locals i) with
  | none => threads
  | some (l, a) => ⟨Function.update threads.locals i l, act threads.shared a⟩

/-- The action of a step, under the name of its thread. -/
def emit (threads : Threads I L S) (i : I) : List (I × A) :=
  ((next (threads.locals i)).map fun moved => (i, moved.2)).toList

def IsDone (threads : Threads I L S) : Prop := ∀ i, next (threads.locals i) = none

/-- The actions of one thread. -/
def actionsOf (i : I) (actions : List (I × A)) : List A :=
  actions.filterMap fun action => if action.1 = i then some action.2 else none

/-- The actions of a run. -/
abbrev actions (threads : Threads I L S) (schedule : List I) : List (I × A) :=
  log (step next act) (emit next) threads schedule

variable {next act}

lemma actionsOf_append (i : I) (l l' : List (I × A)) :
    actionsOf i (l ++ l') = actionsOf i l ++ actionsOf i l' :=
  List.filterMap_append

lemma actionsOf_cons_self (i : I) (a : A) (l : List (I × A)) :
    actionsOf i ((i, a) :: l) = a :: actionsOf i l := by
  simp [actionsOf]

lemma actionsOf_cons_of_ne {i j : I} (h : j ≠ i) (a : A) (l : List (I × A)) :
    actionsOf i ((j, a) :: l) = actionsOf i l := by
  simp [actionsOf, h]

lemma actionsOf_map_mk (i : I) (as : List A) : actionsOf i (as.map (Prod.mk i)) = as := by
  induction as with
  | nil => rfl
  | cons a as ih => rw [List.map_cons, actionsOf_cons_self, ih]

lemma actionsOf_map_mk_of_ne {i j : I} (h : j ≠ i) (as : List A) :
    actionsOf i (as.map (Prod.mk j)) = [] := by
  induction as with
  | nil => rfl
  | cons a as ih => rw [List.map_cons, actionsOf_cons_of_ne h, ih]

/-- The shared state sees nothing of the threads but their actions. -/
lemma shared_run (threads : Threads I L S) (schedule : List I) :
    (run (step next act) threads schedule).shared =
      ((threads.actions next act schedule).map Prod.snd).foldl act threads.shared := by
  have hstep : ∀ (threads : Threads I L S) (i : I), (threads.step next act i).shared =
      run (fun s (action : I × A) => act s action.2) threads.shared (threads.emit next i) := by
    intro threads i
    unfold step emit
    cases next (threads.locals i) with
    | none => rfl
    | some moved => rfl
  rw [run_simulates hstep, List.foldl_map]
  rfl

/-- A step takes the next action off what its thread has to do, and nothing off the others. -/
lemma trace_step {threads : Threads I L S} {i : I} {as : List A} {l : L}
    (h : Trace next (threads.locals i) as l) (j : I) :
    ∃ as', Trace next ((threads.step next act j).locals i) as' l ∧
      as = actionsOf i (threads.emit next j) ++ as' := by
  unfold step emit
  by_cases hij : j = i
  · subst hij
    cases h with
    | done hnone => exact ⟨[], by simpa only [hnone] using Trace.done hnone, by simp [hnone, actionsOf]⟩
    | @step _ _ _ a as hsome ht =>
      refine ⟨as, ?_, ?_⟩
      · simpa only [hsome, Function.update_self] using ht
      · simp [hsome, actionsOf]
  · refine ⟨as, ?_, ?_⟩
    · cases next (threads.locals j) with
      | none => exact h
      | some moved => simpa only [Function.update_of_ne (Ne.symm hij)] using h
    · cases next (threads.locals j) with
      | none => rfl
      | some moved => simp [actionsOf, hij]

lemma trace_run {threads : Threads I L S} {i : I} {as : List A} {l : L}
    (h : Trace next (threads.locals i) as l) (schedule : List I) :
    ∃ as', Trace next ((run (step next act) threads schedule).locals i) as' l ∧
      as = actionsOf i (threads.actions next act schedule) ++ as' := by
  induction schedule generalizing threads as with
  | nil => exact ⟨as, h, rfl⟩
  | cons j schedule ih =>
    obtain ⟨as', hstep, rfl⟩ := @trace_step I L A S _ next act threads i as l h j
    obtain ⟨rest, hrun, rfl⟩ := ih hstep
    have hlog : threads.actions next act (j :: schedule) =
        threads.emit next j ++ (threads.step next act j).actions next act schedule := rfl
    refine ⟨rest, hrun, ?_⟩
    rw [hlog, actionsOf_append, List.append_assoc]

/-- A thread that is done has done what it does alone. -/
lemma trace_of_done {threads : Threads I L S} {i : I} {as : List A} {l : L}
    (h : Trace next (threads.locals i) as l) {schedule : List I}
    (hdone : next ((run (step next act) threads schedule).locals i) = none) :
    (run (step next act) threads schedule).locals i = l ∧
      actionsOf i (threads.actions next act schedule) = as := by
  obtain ⟨rest, hrun, rfl⟩ := @trace_run I L A S _ next act threads i as l h schedule
  cases hrun with
  | done _ => exact ⟨rfl, (List.append_nil _).symm⟩
  | step hsome _ => simp [hdone] at hsome

lemma count_actionsOf [DecidableEq A] (i : I) (a : A) (l : List (I × A)) :
    (actionsOf i l).count a = l.count (i, a) := by
  induction l with
  | nil => rfl
  | cons action l ih =>
    obtain ⟨j, b⟩ := action
    by_cases hij : j = i
    · subst hij
      rw [actionsOf_cons_self, List.count_cons, List.count_cons, ih]
      simp
    · rw [actionsOf_cons_of_ne hij, ih, List.count_cons_of_ne]
      simp [hij]

/-- The same actions of every thread make the same actions. -/
lemma perm_of_actionsOf {l l' : List (I × A)} (h : ∀ i, actionsOf i l = actionsOf i l') :
    l.Perm l' := by
  classical
  rw [List.perm_iff_count]
  rintro ⟨i, a⟩
  rw [← count_actionsOf, ← count_actionsOf, h]

end Steps

/-- Actions that may change places, where an invariant holds that they keep. -/
structure Commuting {T : Type} (act : T → A → T) (P : A → Prop) (Inv : T → Prop) : Prop where
  keep : ∀ t a, P a → Inv t → Inv (act t a)
  comm : ∀ t a b, P a → P b → Inv t → act (act t a) b = act (act t b) a

lemma Commuting.foldl_perm {T : Type} {act : T → A → T} {P : A → Prop} {Inv : T → Prop}
    (h : Commuting act P Inv) {l l' : List A} (hperm : l.Perm l') {t : T} (ht : Inv t)
    (hl : ∀ a ∈ l, P a) : l.foldl act t = l'.foldl act t := by
  induction hperm generalizing t with
  | nil => rfl
  | cons a _ ih =>
    rw [List.forall_mem_cons] at hl
    exact ih (h.keep t a hl.1 ht) hl.2
  | swap a b l =>
    rw [List.forall_mem_cons, List.forall_mem_cons] at hl
    rw [List.foldl_cons, List.foldl_cons, List.foldl_cons, List.foldl_cons,
      h.comm t b a hl.1 hl.2.1 ht]
  | trans hperm _ ih ih' =>
    rw [ih ht hl, ih' ht (fun a ha => hl a (hperm.mem_iff.mpr ha))]

section Schedules

variable [DecidableEq I] {next : L → Option (L × A)} {act : S → A → S}

/-- Threads with commuting actions, in whatever order they take their steps, end where each of them
ends alone. What a view shows of the shared state is what it shows after the actions in a serial
order. -/
theorem run_of_isDone {T : Type} {view : S → T} {act' : T → A → T} {P : A → Prop} {Inv : T → Prop}
    (hview : ∀ s a, view (act s a) = act' (view s) a) (hcomm : Commuting act' P Inv)
    {threads : Threads I L S} {as : I → List A} {last : I → L}
    (htrace : ∀ i, Trace next (threads.locals i) (as i) (last i)) (hP : ∀ i, ∀ a ∈ as i, P a)
    (hInv : Inv (view threads.shared)) {serial : List (I × A)} (hserial : ∀ i, actionsOf i serial = as i)
    {schedule : List I} (hdone : (run (step next act) threads schedule).IsDone next) :
    (run (step next act) threads schedule).locals = last ∧
      view (run (step next act) threads schedule).shared =
        (serial.map Prod.snd).foldl act' (view threads.shared) := by
  have hend := fun i => trace_of_done (htrace i) (hdone i)
  refine ⟨funext fun i => (hend i).1, ?_⟩
  have hfold : ∀ (l : List A) (s : S), view (l.foldl act s) = l.foldl act' (view s) := by
    intro l
    induction l with
    | nil => exact fun s => rfl
    | cons a l ih =>
      intro s
      rw [List.foldl_cons, List.foldl_cons, ih, hview]
  have hperm : (threads.actions next act schedule).Perm serial := by
    apply perm_of_actionsOf
    intro i
    rw [(hend i).2, hserial i]
  rw [shared_run, hfold]
  apply hcomm.foldl_perm (hperm.map Prod.snd) hInv
  intro a ha
  obtain ⟨⟨i, b⟩, hmem, rfl⟩ := List.mem_map.mp ha
  apply hP i
  rw [← (hend i).2, actionsOf, List.mem_filterMap]
  exact ⟨(i, b), hmem, if_pos rfl⟩

/-- A thread that is left alone takes as many steps as it has actions. -/
lemma locals_run_replicate {l last : L} {as : List A} (h : Trace next l as last)
    {threads : Threads I L S} {i : I} (hl : threads.locals i = l) :
    (run (step next act) threads (List.replicate as.length i)).locals =
      Function.update threads.locals i last := by
  induction h generalizing threads with
  | done _ => rw [← hl, Function.update_eq_self, List.length_nil, List.replicate_zero, run_nil]
  | @step _ l' _ a as hsome ht ih =>
    have hstep : threads.step next act i =
        ⟨Function.update threads.locals i l', act threads.shared a⟩ := by
      rw [step, hl, hsome]
    have hself : (threads.step next act i).locals i = l' := by
      rw [hstep]
      exact Function.update_self _ _ _
    rw [List.length_cons, List.replicate_succ, run_cons, ih hself, hstep, Function.update_idem]

/-- A thread that has nothing to do will have done nothing. -/
lemma next_run_eq_none {threads : Threads I L S} {i : I} (h : next (threads.locals i) = none)
    (schedule : List I) : next ((run (step next act) threads schedule).locals i) = none := by
  obtain ⟨rest, hrun, hnil⟩ := @trace_run I L A S _ next act threads i [] _ (.done h) schedule
  rw [(List.append_eq_nil_iff.mp hnil.symm).2] at hrun
  exact hrun.next_of_nil

/-- The threads can always be brought to their ends. -/
theorem exists_isDone {threads : Threads I L S} {as : I → List A} {last : I → L}
    (htrace : ∀ i, Trace next (threads.locals i) (as i) (last i)) (ids : List I)
    (hids : ∀ i, i ∉ ids → next (threads.locals i) = none) :
    ∃ schedule, (run (step next act) threads schedule).IsDone next := by
  induction ids generalizing threads as with
  | nil => exact ⟨[], fun i => hids i List.not_mem_nil⟩
  | cons i ids ih =>
    have hlocals : (run (step next act) threads (List.replicate (as i).length i)).locals =
        Function.update threads.locals i (last i) := locals_run_replicate (htrace i) rfl
    have hnone : next (last i) = none := (htrace i).next_eq_none
    have htrace' : ∀ j, Trace next
        ((run (step next act) threads (List.replicate (as i).length i)).locals j)
        (Function.update as i [] j) (last j) := by
      intro j
      rw [hlocals]
      by_cases hij : j = i
      · subst hij
        rw [Function.update_self, Function.update_self]
        exact .done hnone
      · rw [Function.update_of_ne hij, Function.update_of_ne hij]
        exact htrace j
    have hids' : ∀ j, j ∉ ids →
        next ((run (step next act) threads (List.replicate (as i).length i)).locals j) = none := by
      intro j hj
      rw [hlocals]
      by_cases hij : j = i
      · rw [hij, Function.update_self]
        exact hnone
      · rw [Function.update_of_ne hij]
        exact hids j (fun hmem => (List.mem_cons.mp hmem).elim hij hj)
    obtain ⟨schedule, hdone⟩ := ih htrace' hids'
    refine ⟨List.replicate (as i).length i ++ schedule, ?_⟩
    rw [run_append]
    exact hdone

end Schedules

end Threads

end Machine
