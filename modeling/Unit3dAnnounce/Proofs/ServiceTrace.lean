import Unit3dAnnounce.Machine.Journal
import Unit3dAnnounce.Model.Service

/-!
# What a run of the service does to a part of the state

Where the result of every call tells what the call has done to a part of the state, a run of the service
does one thing after the other to it, whatever the order in which the calls take their sections.
-/

namespace Unit3dAnnounce

open Machine

section Lists

variable {A : Type} {l r before after : List A} {x : A}

lemma eq_append_of_notMem_left (h : l ++ r = before ++ x :: after) (hx : x ∉ l) :
    ∃ rest, before = l ++ rest ∧ r = rest ++ x :: after := by
  rcases List.append_eq_append_iff.mp h with ⟨rest, hbefore, hr⟩ | ⟨rest, hl, hafter⟩
  · exact ⟨rest, hbefore, hr⟩
  · cases rest with
    | nil => exact ⟨[], by simpa using hl.symm, hafter.symm⟩
    | cons y rest =>
      obtain ⟨rfl, -⟩ := List.cons.inj hafter
      exact absurd (by simp [hl]) hx

lemma eq_append_of_notMem_right (h : l ++ r = before ++ x :: after) (hx : x ∉ r) :
    ∃ rest, l = before ++ x :: rest ∧ after = rest ++ r := by
  rcases List.append_eq_append_iff.mp h with ⟨rest, -, hr⟩ | ⟨rest, hl, hafter⟩
  · exact absurd (by simp [hr]) hx
  · cases rest with
    | nil => exact absurd (by simp [show r = x :: after from hafter.symm]) hx
    | cons y rest =>
      obtain ⟨rfl, hrest⟩ := List.cons.inj hafter
      exact ⟨rest, hl, hrest⟩

end Lists

variable {F ι Q E : Type}

/-- The call that takes a section. -/
def ServiceEvent.call? : ServiceEvent F ι → Option ι
  | .advance i => some i
  | _ => none

/-- What has been done to a part of the state, event by event. -/
abbrev ServiceTrace (F ι E : Type) := List (ServiceEvent F ι × List E)

lemma ServiceEvent.eq_advance_of_call? {event : ServiceEvent F ι} {i : ι} (h : event.call? = some i) :
    event = .advance i := by
  cases event with
  | advance j => rw [Option.some_inj.mp h]
  | reap config activeNow inactiveNow => cases h
  | request request => cases h

namespace ServiceTrace

def events (trace : ServiceTrace F ι E) : List (ServiceEvent F ι) := trace.map Prod.fst

def ops (trace : ServiceTrace F ι E) : List E := trace.flatMap Prod.snd

/-- The operations one by one, each with the event that has done it. -/
def steps (trace : ServiceTrace F ι E) : List (ServiceEvent F ι × E) :=
  trace.flatMap fun entry => entry.2.map fun op => (entry.1, op)

lemma map_snd_steps (trace : ServiceTrace F ι E) : trace.steps.map Prod.snd = trace.ops := by
  simp [steps, ops, List.map_flatMap, Function.comp_def]

lemma steps_append (trace trace' : ServiceTrace F ι E) :
    steps (trace ++ trace') = trace.steps ++ trace'.steps := List.flatMap_append

/-- An operation is done by an entry of the trace, and what comes before it is done by the same entry or by
an earlier one. -/
lemma steps_eq_append {trace : ServiceTrace F ι E} {l r : List (ServiceEvent F ι × E)}
    {x : ServiceEvent F ι × E} (h : trace.steps = l ++ x :: r) :
    ∃ before ops after, trace = before ++ (x.1, ops) :: after ∧ x.2 ∈ ops ∧
      ∀ y ∈ l, y ∈ steps before ∨ y.1 = x.1 := by
  induction trace generalizing l with
  | nil => simp [steps] at h
  | cons entry trace ih =>
    rw [steps, List.flatMap_cons] at h
    have later (rest : List (ServiceEvent F ι × E)) (hrest : steps trace = rest ++ x :: r) :
        ∃ before ops after, entry :: trace = before ++ (x.1, ops) :: after ∧ x.2 ∈ ops ∧
          ∀ y ∈ (entry.2.map fun op => (entry.1, op)) ++ rest, y ∈ steps before ∨ y.1 = x.1 := by
      obtain ⟨before, ops, after, rfl, hop, hbefore⟩ := ih hrest
      refine ⟨entry :: before, ops, after, rfl, hop, fun y hy => ?_⟩
      rcases List.mem_append.mp hy with hy | hy
      · exact Or.inl (List.mem_append_left _ hy)
      · exact (hbefore y hy).imp_left (List.mem_append_right _)
    rcases List.append_eq_append_iff.mp h with ⟨rest, rfl, hrest⟩ | ⟨rest, hentry, hrest⟩
    · exact later rest hrest
    · cases rest with
      | nil =>
        rw [List.append_nil] at hentry
        rw [← hentry]
        simpa using later [] hrest.symm
      | cons z rest =>
        obtain ⟨rfl, -⟩ := List.cons.inj hrest
        have hx : x ∈ entry.2.map fun op => (entry.1, op) := by simp [hentry]
        obtain ⟨op, hop, rfl⟩ := List.mem_map.mp hx
        refine ⟨[], entry.2, trace, rfl, hop, fun y hy => Or.inr ?_⟩
        have hy : y ∈ entry.2.map fun op => (entry.1, op) := by simp [hentry, hy]
        obtain ⟨op', -, rfl⟩ := List.mem_map.mp hy
        rfl

variable [DecidableEq ι]

/-- The part of a call. -/
def opsOf (i : ι) (trace : ServiceTrace F ι E) : List E :=
  trace.flatMap fun entry => if entry.1.call? = some i then entry.2 else []

lemma opsOf_append (i : ι) (trace trace' : ServiceTrace F ι E) :
    opsOf i (trace ++ trace') = trace.opsOf i ++ trace'.opsOf i := List.flatMap_append

/-- The operations of a call, out of all of them. -/
def ofCall (i : ι) (steps : List (ServiceEvent F ι × E)) : List E :=
  (steps.filter fun step => step.1.call? = some i).map Prod.snd

lemma ofCall_steps (i : ι) (trace : ServiceTrace F ι E) : ofCall i trace.steps = trace.opsOf i := by
  induction trace with
  | nil => rfl
  | cons entry trace ih =>
    have hentry : ofCall i (entry.2.map fun op => (entry.1, op)) =
        if entry.1.call? = some i then entry.2 else [] := by
      split_ifs with hcall
      · simp [ofCall, List.filter_map, Function.comp_def, hcall]
      · simp [ofCall, List.filter_map, Function.comp_def, hcall]
    simp only [steps, opsOf, List.flatMap_cons] at ih ⊢
    rw [← ih, ← hentry]
    simp [ofCall]

lemma mem_ofCall {i : ι} {step : ServiceEvent F ι × E} {steps : List (ServiceEvent F ι × E)}
    (hcall : step.1.call? = some i) (h : step ∈ steps) : step.2 ∈ ofCall i steps :=
  List.mem_map.mpr ⟨step, List.mem_filter.mpr ⟨h, decide_eq_true hcall⟩, rfl⟩

lemma notMem_steps_of_opsOf_eq_nil {i : ι} {trace : ServiceTrace F ι E} (h : trace.opsOf i = []) (op : E) :
    (.advance i, op) ∉ trace.steps := by
  intro hmem
  have hop := mem_ofCall (i := i) rfl hmem
  rw [ofCall_steps, h] at hop
  cases hop

/-- A call that takes no section does nothing. -/
lemma opsOf_eq_nil {i : ι} {trace : ServiceTrace F ι E} (h : .advance i ∉ trace.events) :
    trace.opsOf i = [] := by
  refine List.flatMap_eq_nil_iff.mpr fun entry hentry => ?_
  rw [if_neg]
  intro hcall
  exact h (List.mem_map.mpr ⟨entry, hentry, ServiceEvent.eq_advance_of_call? hcall⟩)

section Between

variable {before between after : ServiceTrace F ι E} {steps first second rest : List (ServiceEvent F ι × E)}
  {x y : ServiceEvent F ι × E}

omit [DecidableEq ι] in
/-- What has been done by some time comes before what has not been done by then. -/
lemma steps_before (hsteps : ServiceTrace.steps (before ++ between ++ after) = steps ++ y :: rest)
    (hy : y ∉ ServiceTrace.steps (before ++ between)) :
    ∃ later, steps = before.steps ++ (between.steps ++ later) := by
  rw [steps_append] at hsteps
  obtain ⟨later, hlater, -⟩ := eq_append_of_notMem_left hsteps hy
  exact ⟨later, by rw [hlater, steps_append, List.append_assoc]⟩

omit [DecidableEq ι] in
/-- What is done in the middle of a run lies between what is not done later and what is not done
earlier. -/
lemma steps_between (hsteps : ServiceTrace.steps (before ++ between ++ after) =
      first ++ x :: second ++ y :: rest)
    (hx : x ∉ ServiceTrace.steps (between ++ after)) (hy : y ∉ ServiceTrace.steps (before ++ between)) :
    ∃ middle later, second = middle ++ (between.steps ++ later) := by
  obtain ⟨later, hlater⟩ := steps_before hsteps hy
  have hboth : before.steps ++ ServiceTrace.steps (between ++ after) =
      first ++ x :: (second ++ y :: rest) := by
    rw [← steps_append, ← List.append_assoc, hsteps]
    simp
  obtain ⟨middle, hbefore, -⟩ := eq_append_of_notMem_right hboth hx
  rw [hbefore, List.append_assoc, List.cons_append] at hlater
  exact ⟨middle, later, (List.cons.inj (List.append_cancel_left hlater)).2⟩

end Between

end ServiceTrace

variable [RateField F] [DecidableEq ι] {calls : ι → ServiceCall F}

namespace Service

omit [RateField F] in
lemma ret_step {service : Service calls} {i : ι} {result : (calls i).Result}
    (h : service.world.handlers i = .ret result) (event : ServiceEvent F ι) :
    (service.step event).world.handlers i = .ret result := by
  cases event with
  | advance j =>
    by_cases hj : i = j
    · subst hj
      exact (congrArg (fun world => World.handlers world i) (World.step_of_ret h)).trans h
    · exact (World.step_handlers_of_ne service.world hj).trans h
  | reap config activeNow inactiveNow => exact h
  | request request => exact h

omit [RateField F] in
/-- A call that has returned stays so. -/
lemma ret_run {service : Service calls} {i : ι} {result : (calls i).Result}
    (h : service.world.handlers i = .ret result) (events : List (ServiceEvent F ι)) :
    (run step service events).world.handlers i = .ret result := by
  induction events generalizing service with
  | nil => exact h
  | cons event events ih => exact ih (ret_step h event)

/-- None of the calls has entered a section yet. -/
def Fresh (service : Service calls) : Prop := ∀ i, service.world.handlers i = (calls i).handler

/-- The calls have returned. -/
def Returned (service : Service calls) (result : ∀ i, (calls i).Result) : Prop :=
  ∀ i, service.world.handlers i = .ret (result i)

/-- The call has returned after these events. -/
def FinishesBy (service : Service calls) (i : ι) (events : List (ServiceEvent F ι)) : Prop :=
  ((run step service events).world.handlers i).result?.isSome

section Traces

variable (view : AppState F → Q) (T : Q → E → Q → Prop) (does : ∀ i, (calls i).Result → List E → Prop)
  (reaped : Config F → DateTime → DateTime → List E)

/-- The trace of a run. What has been done leads from what was shown first to what is shown, and what a
call has done by the time that it has returned is what its result tells of. -/
structure Traces (service : Service calls) (result : ∀ i, (calls i).Result) (trace : ServiceTrace F ι E) :
    Prop where
  path : ∀ before after, trace = before ++ after → LeadsTo T (view service.world.state) before.ops
    (view (run step service before.events).world.state)
  calls : ∀ before after i, trace = before ++ after → service.FinishesBy i before.events →
    does i (result i) (before.opsOf i)
  reaps : ∀ config activeNow inactiveNow ops, (.reap config activeNow inactiveNow, ops) ∈ trace →
    ops = reaped config activeNow inactiveNow
  requests : ∀ request ops, (.request request, ops) ∈ trace → ops = []

variable {view T does reaped} in
omit [RateField F] in
/-- What is done is done by a call, or is part of a reap. -/
lemma Traces.mem_steps {service : Service calls} {result : ∀ i, (calls i).Result}
    {trace : ServiceTrace F ι E} (h : service.Traces view T does reaped result trace)
    (hfinishes : ∀ i, service.FinishesBy i trace.events) {step : ServiceEvent F ι × E}
    (hmem : step ∈ trace.steps) :
    (∃ i, step.1 = .advance i ∧ step.2 ∈ trace.opsOf i ∧ does i (result i) (trace.opsOf i)) ∨
      ∃ config activeNow inactiveNow, step.2 ∈ reaped config activeNow inactiveNow := by
  obtain ⟨⟨event, ops⟩, hentry, hstep⟩ := List.mem_flatMap.mp hmem
  obtain ⟨op, hop, rfl⟩ := List.mem_map.mp hstep
  cases event with
  | advance i =>
    refine Or.inl ⟨i, rfl, ?_, h.calls trace [] i (List.append_nil trace).symm (hfinishes i)⟩
    have hcall := ServiceTrace.mem_ofCall (i := i) rfl hmem
    rwa [ServiceTrace.ofCall_steps] at hcall
  | reap config activeNow inactiveNow =>
    rw [h.reaps config activeNow inactiveNow ops hentry] at hop
    exact Or.inr ⟨config, activeNow, inactiveNow, hop⟩
  | request request =>
    rw [h.requests request ops hentry] at hop
    cases hop

/-- As far as a run has come. -/
structure TracesSoFar (start service : Service calls) (trace : ServiceTrace F ι E) : Prop where
  path : LeadsTo T (view start.world.state) trace.ops (view service.world.state)
  calls : ∀ i, (service.world.handlers i).Performs view T (does i) (trace.opsOf i)
  reaps : ∀ config activeNow inactiveNow ops, (.reap config activeNow inactiveNow, ops) ∈ trace →
    ops = reaped config activeNow inactiveNow
  requests : ∀ request ops, (.request request, ops) ∈ trace → ops = []

variable {view T does reaped}
variable (hreap : ∀ config activeNow inactiveNow state, LeadsTo T (view state)
    (reaped config activeNow inactiveNow) (view ((reap config activeNow inactiveNow state).getD state)))
  (hrequest : ∀ (request : TableRequest) state, view (request.handle state) = view state)
include hreap hrequest

omit [RateField F] in
lemma TracesSoFar.step {start service : Service calls} {trace : ServiceTrace F ι E}
    (h : TracesSoFar view T does reaped start service trace) (event : ServiceEvent F ι) :
    ∃ ops, TracesSoFar view T does reaped start (service.step event) (trace ++ [(event, ops)]) := by
  have hops (ops : List E) : ServiceTrace.ops (trace ++ [(event, ops)]) = trace.ops ++ ops := by
    simp [ServiceTrace.ops]
  have hopsOf (i : ι) (ops : List E) : ServiceTrace.opsOf i (trace ++ [(event, ops)]) =
      trace.opsOf i ++ if event.call? = some i then ops else [] := by
    simp [ServiceTrace.opsOf]
  cases event with
  | advance i =>
    obtain ⟨ops, hpath, hcalls⟩ := World.performs_step h.calls i
    refine ⟨ops, ?_, fun j => ?_, ?_, ?_⟩
    · rw [hops]
      exact leadsTo_append.mpr ⟨_, h.path, hpath⟩
    · have hj := hcalls j
      rw [hopsOf]
      by_cases hij : j = i
      · subst hij
        rw [Function.update_self] at hj
        rw [ServiceEvent.call?, if_pos rfl]
        exact hj
      · rw [Function.update_of_ne hij] at hj
        rw [ServiceEvent.call?, if_neg fun h => hij (Option.some_inj.mp h).symm, List.append_nil]
        exact hj
    · simpa using h.reaps
    · simpa using h.requests
  | reap config activeNow inactiveNow =>
    refine ⟨reaped config activeNow inactiveNow, ?_, fun j => ?_, ?_, ?_⟩
    · rw [hops]
      exact leadsTo_append.mpr ⟨_, h.path, hreap config activeNow inactiveNow _⟩
    · simp only [hopsOf, ServiceEvent.call?, reduceCtorEq, if_false, List.append_nil]
      exact h.calls j
    · intro config' activeNow' inactiveNow' ops hmem
      rcases List.mem_append.mp hmem with hmem | hmem
      · exact h.reaps _ _ _ _ hmem
      · simp only [List.mem_singleton, Prod.mk.injEq, ServiceEvent.reap.injEq] at hmem
        obtain ⟨⟨rfl, rfl, rfl⟩, rfl⟩ := hmem
        rfl
    · simpa using h.requests
  | request request =>
    refine ⟨[], ?_, fun j => ?_, ?_, ?_⟩
    · rw [hops]
      exact leadsTo_append.mpr ⟨_, h.path, hrequest request service.world.state⟩
    · simp only [hopsOf, ServiceEvent.call?, reduceCtorEq, if_false, List.append_nil]
      exact h.calls j
    · simpa using h.reaps
    · intro request' ops hmem
      rcases List.mem_append.mp hmem with hmem | hmem
      · exact h.requests _ _ hmem
      · simp only [List.mem_singleton, Prod.mk.injEq] at hmem
        exact hmem.2

/-- Every run has a trace. -/
theorem exists_traces (hperforms : ∀ i, (calls i).handler.Performs view T (does i) [])
    {service : Service calls} (hfresh : service.Fresh) {events : List (ServiceEvent F ι)}
    {result : ∀ i, (calls i).Result} (hresult : (run step service events).Returned result) :
    ∃ trace, ServiceTrace.events trace = events ∧
      service.Traces view T does reaped result trace := by
  have hstart : TracesSoFar view T does reaped service service [] := by
    refine ⟨rfl, fun i => ?_, by simp, by simp⟩
    rw [hfresh i]
    exact hperforms i
  obtain ⟨trace, hevents, htraced⟩ := @exists_trace (Service calls) E (ServiceEvent F ι) step
    (fun trace now => TracesSoFar view T does reaped service now trace)
    (fun trace now event h => h.step hreap hrequest event) service hstart events
  have htrace := htraced trace [] (List.append_nil trace).symm
  refine ⟨trace, hevents, fun before after h => (htraced before after h).path, ?_, htrace.reaps,
    htrace.requests⟩
  intro before after i h hfinished
  have hcall := (htraced before after h).calls i
  obtain ⟨r, hr⟩ := Option.isSome_iff_exists.mp hfinished
  have hret := Handler.eq_ret_of_result? hr
  have hsplit : events = ServiceTrace.events before ++ ServiceTrace.events after := by
    rw [← hevents, h]
    exact List.map_append
  have hlast := ret_run hret (ServiceTrace.events after)
  rw [← run_append, ← hsplit, hresult i, Handler.ret.injEq] at hlast
  change ((run step service (ServiceTrace.events before)).world.handlers i).Performs _ _ _ _ at hcall
  rw [hret, ← hlast] at hcall
  exact hcall

end Traces

end Service

end Unit3dAnnounce
