import Unit3dAnnounce.Proofs.Roster

/-!
# Where the peers in an answer come from

Whoever is handed out has announced with the address under which they are handed out. Neither has the
peer announced anything else since, nor has a reap found it too old.
-/

namespace Unit3dAnnounce

open Machine

/-- The operation puts the peer on the roster. -/
def RosterOp.Sets (key : PeerUpdate.Index) (sighting : Sighting) : RosterOp → Prop
  | .announce key' sighting' _ => key' = key ∧ sighting' = some sighting
  | .putBack id part => key.torrentId = id ∧ part ⟨key.userId, key.peerId⟩ = some sighting
  | _ => False

/-- The operation leaves the peer on the roster. -/
def RosterOp.Spares (key : PeerUpdate.Index) (sighting : Sighting) : RosterOp → Prop
  | .announce key' _ _ => key' ≠ key
  | .expire activeCutoff => activeCutoff ≤ sighting.seenAt
  | .takeOut id _ | .putBack id _ => key.torrentId ≠ id

lemma Roster.Step.origin {roster roster' : Roster} {op : RosterOp} (h : Roster.Step roster op roster')
    {key : PeerUpdate.Index} {sighting : Sighting} (hkey : roster' key = some sighting) :
    op.Sets key sighting ∨ roster key = some sighting ∧ op.Spares key sighting := by
  cases h with
  | @announce key' sighting' given hgiven hnodup =>
    by_cases hkeys : key = key'
    · subst hkeys
      rw [Function.update_self] at hkey
      exact Or.inl ⟨rfl, hkey⟩
    · rw [Function.update_of_ne hkeys] at hkey
      exact Or.inr ⟨hkey, Ne.symm hkeys⟩
  | @expire activeCutoff =>
    obtain ⟨hstored, hrecent⟩ := Option.filter_eq_some_iff.mp hkey
    have hseen : activeCutoff ≤ sighting.seenAt := by simpa using hrecent
    exact Or.inr ⟨hstored, hseen⟩
  | takeOut =>
    unfold withPart at hkey
    split_ifs at hkey with hid
    exact Or.inr ⟨hkey, hid⟩
  | putBack =>
    unfold withPart at hkey
    split_ifs at hkey with hid
    · exact Or.inl ⟨hid, hkey⟩
    · exact Or.inr ⟨hkey, hid⟩

lemma Roster.Step.sets {roster roster' : Roster} {op : RosterOp} (h : Roster.Step roster op roster')
    {key : PeerUpdate.Index} {sighting : Sighting} (hsets : op.Sets key sighting) :
    roster' key = some sighting := by
  cases h with
  | announce hgiven hnodup =>
    obtain ⟨rfl, rfl⟩ := hsets
    exact Function.update_self ..
  | expire => exact hsets.elim
  | takeOut => exact hsets.elim
  | putBack =>
    obtain ⟨hid, hpart⟩ := hsets
    rw [withPart, if_pos hid]
    exact hpart

/-- Whoever is on the roster has been from the beginning, or has been put there at some point, and has
been left there since. -/
lemma exists_origin {A : Type} {start roster : Roster} {steps : List (A × RosterOp)}
    (h : LeadsTo Roster.Step start (steps.map Prod.snd) roster) {key : PeerUpdate.Index}
    {sighting : Sighting} (hkey : roster key = some sighting) :
    (start key = some sighting ∧ ∀ step ∈ steps, step.2.Spares key sighting) ∨
      ∃ before step after, steps = before ++ step :: after ∧ step.2.Sets key sighting ∧
        ∀ step' ∈ after, step'.2.Spares key sighting :=
  h.exists_origin (P := fun roster => roster key = some sighting) (fun _ _ _ hstep => hstep.origin) hkey

section Calls

variable {F : Type}

/-- An announce that a peer may be handed out for. -/
structure AnnounceCall.Announces (call : AnnounceCall F) (a : Accepted F) (torrentId : UInt32)
    (entry : Peer.Index × Peer) : Prop where
  key : call.peerIndex a = ⟨entry.1.userId, torrentId, entry.1.peerId⟩
  event : call.request.queries.event ≠ .stopped
  ipAddress : entry.2.ipAddress = call.request.clientIp
  port : entry.2.port = call.request.queries.port
  isSeeder : entry.2.isSeeder = decide (call.request.queries.left = 0)
  updatedAt : entry.2.updatedAt = call.env.now

lemma AnnounceCall.announces_of_rosterOp {call : AnnounceCall F} {a : Accepted F} {torrentId : UInt32}
    {entry : Peer.Index × Peer}
    (h : (call.rosterOp a.torrentId a.toTorrentResult).Sets
      ⟨entry.1.userId, torrentId, entry.1.peerId⟩ entry.2.sighting) :
    call.Announces a torrentId entry := by
  obtain ⟨hkey, hsighting⟩ := h
  split_ifs at hsighting with hstopped
  have hentry := Option.some_inj.mp hsighting
  exact {
    key := hkey
    event := hstopped
    ipAddress := (congrArg Sighting.ipAddress hentry).symm
    port := (congrArg Sighting.port hentry).symm
    isSeeder := (congrArg Sighting.isSeeder hentry).symm
    updatedAt := (congrArg Sighting.seenAt hentry).symm }

namespace ServiceCall

variable {call : ServiceCall F} {result : call.Result} {ops : List RosterOp}

lemma Does.cases (h : call.Does result ops) :
    (∃ announce a, call.accepted? result = some (announce, a) ∧
      ops = [announce.rosterOp a.torrentId a.toTorrentResult]) ∨
    call.accepted? result = none ∧ (ops = [] ∨ ∃ torrent part, call = .upsertTorrent torrent ∧
      ops = [.takeOut torrent.id part, .putBack torrent.id part]) := by
  cases call with
  | announce announce =>
    cases result with
    | ok a => exact Or.inl ⟨announce, a, rfl, h⟩
    | error e => exact Or.inr ⟨rfl, Or.inl h⟩
  | upsertTorrent torrent =>
    cases result with
    | ok =>
      obtain ⟨part, hops⟩ := h
      exact Or.inr ⟨rfl, Or.inr ⟨torrent, part, rfl, hops⟩⟩
    | badRequest => exact Or.inr ⟨rfl, Or.inl h⟩
  | destroyTorrent torrent => exact Or.inr ⟨rfl, Or.inl h⟩
  | upsertUser upsert => exact Or.inr ⟨rfl, Or.inl h⟩
  | destroyUser user => exact Or.inr ⟨rfl, Or.inl h⟩

lemma Does.of_accepted (h : call.Does result ops) {announce : AnnounceCall F} {a : Accepted F}
    (ha : call.accepted? result = some (announce, a)) :
    ops = [announce.rosterOp a.torrentId a.toTorrentResult] := by
  rcases h.cases with ⟨announce', a', ha', hops⟩ | ⟨hnone, -⟩
  · rw [ha, Option.some_inj, Prod.mk.injEq] at ha'
    rw [hops, ha'.1, ha'.2]
  · rw [ha] at hnone
    cases hnone

/-- Only accepted announces announce a peer. -/
lemma Does.announce (h : call.Does result ops) {key : PeerUpdate.Index} {sighting : Option Sighting}
    {given : List (Peer.Index × Peer)} (hmem : .announce key sighting given ∈ ops) :
    ∃ announce a, call.accepted? result = some (announce, a) ∧
      .announce key sighting given = announce.rosterOp a.torrentId a.toTorrentResult := by
  rcases h.cases with ⟨announce, a, ha, rfl⟩ | ⟨-, rfl | ⟨torrent, part, -, rfl⟩⟩
  · exact ⟨announce, a, ha, List.mem_singleton.mp hmem⟩
  · cases hmem
  · simp at hmem

/-- Only upserts put a torrent back, which they have taken out. -/
lemma Does.putBack (h : call.Does result ops) {id : UInt32} {part : Peer.Index → Option Sighting}
    (hmem : .putBack id part ∈ ops) :
    (∃ torrent, call = .upsertTorrent torrent ∧ torrent.id = id) ∧
      ops = [.takeOut id part, .putBack id part] := by
  rcases h.cases with ⟨announce, a, -, rfl⟩ | ⟨-, rfl | ⟨torrent, part', hcall, rfl⟩⟩
  · cases List.mem_singleton.mp hmem
  · cases hmem
  · simp only [List.mem_cons, reduceCtorEq, RosterOp.putBack.injEq, List.not_mem_nil, or_false,
      false_or] at hmem
    obtain ⟨rfl, rfl⟩ := hmem
    exact ⟨⟨torrent, hcall, rfl⟩, rfl⟩

end ServiceCall

end Calls

section Runs

variable {F : Type} [RateField F] {ι : Type} [DecidableEq ι] {calls : ι → ServiceCall F}
  {service : Service calls} {result : ∀ i, (calls i).Result} {trace : RosterTrace F ι}

namespace Service

/-- A call has put a peer on the roster before another one was answered, or the peer has been there from
the beginning. -/
def IsOrigin (service : Service calls) (result : ∀ i, (calls i).Result)
    (events : List (ServiceEvent F ι)) (i : ι) (torrentId : UInt32) (entry : Peer.Index × Peer) :
    Option ι → Prop
  | none => service.world.state.roster ⟨entry.1.userId, torrentId, entry.1.peerId⟩ =
      some entry.2.sighting
  | some j => (∃ announce a, (calls j).accepted? (result j) = some (announce, a) ∧
      announce.Announces a torrentId entry) ∧
    ∃ before between after, events = before ++ .advance j :: (between ++ .advance i :: after) ∧
      ¬ service.FinishesBy j before ∧
      (run step service (before ++ [.advance j])).world.state.roster
        ⟨entry.1.userId, torrentId, entry.1.peerId⟩ = some entry.2.sighting ∧
      ¬ service.FinishesBy i (before ++ .advance j :: between)

/-- Nothing has changed about a peer between the call that has announced it and one that is given it. -/
structure IsLatest (service : Service calls) (result : ∀ i, (calls i).Result)
    (events : List (ServiceEvent F ι)) (i : ι) (torrentId : UInt32) (entry : Peer.Index × Peer)
    (origin : Option ι) : Prop where
  announces : ∀ before between after k announce a, events = before ++ between ++ after →
    (∀ j ∈ origin, service.FinishesBy j before) → .advance k ∉ before →
    service.FinishesBy k (before ++ between) → .advance i ∉ before ++ between →
    (calls k).accepted? (result k) = some (announce, a) →
    announce.peerIndex a ≠ ⟨entry.1.userId, torrentId, entry.1.peerId⟩
  reaps : ∀ before config activeNow inactiveNow after activeCutoff inactiveCutoff,
    events = before ++ .reap config activeNow inactiveNow :: after →
    (∀ j ∈ origin, service.FinishesBy j before) → .advance i ∉ before →
    cutoff activeNow config.activePeerTtl = some activeCutoff →
    cutoff inactiveNow config.inactivePeerTtl = some inactiveCutoff →
    activeCutoff ≤ entry.2.updatedAt

namespace Explains

variable (h : service.Explains result trace)
  (hfinishes : ∀ i, service.FinishesBy i (ServiceTrace.events trace))
include h hfinishes

omit [RateField F] in
/-- Whoever has put a peer on the roster has announced it, or has put a torrent back. -/
lemma setter_cases {step : ServiceEvent F ι × RosterOp} (hmem : step ∈ ServiceTrace.steps trace)
    {torrentId : UInt32} {entry : Peer.Index × Peer}
    (hsets : step.2.Sets ⟨entry.1.userId, torrentId, entry.1.peerId⟩ entry.2.sighting) :
    ∃ j, step.1 = .advance j ∧
      ((∃ announce a, (calls j).accepted? (result j) = some (announce, a) ∧
          announce.Announces a torrentId entry ∧ ServiceTrace.opsOf j trace = [step.2]) ∨
        (∃ torrent, calls j = .upsertTorrent torrent ∧ torrent.id = torrentId) ∧
          ∃ part, part entry.1 = some entry.2.sighting ∧
            step.2 = .putBack torrentId part ∧
            ServiceTrace.opsOf j trace = [.takeOut torrentId part, .putBack torrentId part]) := by
  rcases h.mem_steps hfinishes hmem with ⟨j, hevent, hop, hdoes⟩ | ⟨config, activeNow, inactiveNow, hop⟩
  · refine ⟨j, hevent, ?_⟩
    obtain ⟨event, op⟩ := step
    cases op with
    | announce key sighting given =>
      obtain ⟨announce, a, ha, heq⟩ := hdoes.announce hop
      refine Or.inl ⟨announce, a, ha, AnnounceCall.announces_of_rosterOp ?_, ?_⟩
      · rw [← heq]
        exact hsets
      · rw [hdoes.of_accepted ha, heq]
    | putBack id part =>
      obtain ⟨hupsert, hops⟩ := hdoes.putBack hop
      obtain ⟨rfl, hpart⟩ := hsets
      exact Or.inr ⟨hupsert, part, hpart, rfl, hops⟩
    | expire activeCutoff => exact hsets.elim
    | takeOut id part => exact hsets.elim
  · rw [reapOps] at hop
    split at hop
    · rw [List.mem_singleton.mp hop] at hsets
      exact hsets.elim
    · cases hop

omit [RateField F] in
/-- A call whose announce is accepted does one thing, so that it has not returned before. -/
lemma not_finishesBy {i : ι} {announce : AnnounceCall F} {a : Accepted F}
    (ha : (calls i).accepted? (result i) = some (announce, a)) {before after : RosterTrace F ι}
    {ops : List RosterOp} {op : RosterOp} (htrace : trace = before ++ (.advance i, ops) :: after)
    (hop : op ∈ ops) : ¬ service.FinishesBy i (ServiceTrace.events before) := by
  intro hfinished
  have hbefore := (h.calls before _ i htrace hfinished).of_accepted ha
  have hall := (h.calls trace [] i (List.append_nil trace).symm (hfinishes i)).of_accepted ha
  rw [htrace, ServiceTrace.opsOf_append, hbefore] at hall
  have hnil : ServiceTrace.opsOf i ((.advance i, ops) :: after) = [] := (List.cons.inj hall).2
  have hops := List.flatMap_eq_nil_iff.mp hnil _ (List.mem_cons_self ..)
  simp only [ServiceEvent.call?, if_true] at hops
  rw [hops] at hop
  cases hop

omit [RateField F] in
/-- Whoever has announced a peer before another announce is its origin there. -/
lemma isOrigin_of_announces {i j : ι} {announce announce' : AnnounceCall F} {a a' : Accepted F}
    (hi : (calls i).accepted? (result i) = some (announce, a))
    (hj : (calls j).accepted? (result j) = some (announce', a')) {op op' : RosterOp}
    {steps rest : List (ServiceEvent F ι × RosterOp)}
    (hsteps : ServiceTrace.steps trace = steps ++ (.advance i, op) :: rest)
    (hmem : (.advance j, op') ∈ steps) {torrentId : UInt32} {entry : Peer.Index × Peer}
    (hannounces : announce'.Announces a' torrentId entry)
    (hsets : op'.Sets ⟨entry.1.userId, torrentId, entry.1.peerId⟩ entry.2.sighting) :
    service.IsOrigin result (ServiceTrace.events trace) i torrentId entry (some j) := by
  obtain ⟨before, ops, after, htrace, hop, hbefore⟩ := ServiceTrace.steps_eq_append hsteps
  have hij : i ≠ j := by
    rintro rfl
    have hall := (h.calls trace [] i (List.append_nil trace).symm (hfinishes i)).of_accepted hi
    have hlength := congrArg List.length hall
    rw [← ServiceTrace.ofCall_steps, hsteps] at hlength
    obtain ⟨first, second, rfl⟩ := List.append_of_mem hmem
    simp [ServiceTrace.ofCall, ServiceEvent.call?] at hlength
    omega
  have hj' : (.advance j, op') ∈ ServiceTrace.steps before := by
    rcases hbefore _ hmem with hj' | heq
    · exact hj'
    · exact absurd (ServiceEvent.advance.inj heq).symm hij
  obtain ⟨first, second, hsplit⟩ := List.append_of_mem hj'
  obtain ⟨earlier, ops', between, rfl, hop', -⟩ := ServiceTrace.steps_eq_append hsplit
  have htrace' : trace = earlier ++ (.advance j, ops') :: (between ++ (.advance i, ops) :: after) := by
    rw [htrace, List.append_assoc, List.cons_append]
  refine ⟨⟨announce', a', hj, hannounces⟩, ServiceTrace.events earlier, ServiceTrace.events between,
    ServiceTrace.events after, ?_, h.not_finishesBy hfinishes hj htrace' hop', ?_, ?_⟩
  · rw [htrace']
    simp [ServiceTrace.events]
  · -- The entry of the announce holds nothing else.
    have hops' : ops' = [op'] := by
      have hall := (h.calls trace [] j (List.append_nil trace).symm (hfinishes j)).of_accepted hj
      have hlength := congrArg List.length hall
      rw [htrace', ServiceTrace.opsOf_append] at hlength
      simp only [ServiceTrace.opsOf, List.flatMap_cons, ServiceEvent.call?, if_true, List.length_append,
        List.length_singleton] at hlength
      have hpos := List.length_pos_of_mem hop'
      obtain ⟨x, rfl⟩ := List.length_eq_one_iff.mp (show ops'.length = 1 by omega)
      exact congrArg (fun op => [op]) (List.mem_singleton.mp hop').symm
    have hpath := h.path (earlier ++ [(.advance j, ops')]) _ (by rw [htrace', List.append_assoc]; rfl)
    rw [ServiceTrace.ops, List.flatMap_append, leadsTo_append] at hpath
    obtain ⟨roster, -, hlast⟩ := hpath
    simp only [hops', List.flatMap_cons, List.flatMap_nil, List.append_nil, LeadsTo] at hlast
    obtain ⟨_, hstep, rfl⟩ := hlast
    simpa [ServiceTrace.events] using hstep.sets hsets
  · have hnot := h.not_finishesBy hfinishes hi htrace hop
    simpa [ServiceTrace.events] using hnot

omit [RateField F] in
/-- Every peer that has been on the roster has an origin, even one that an upsert has carried. -/
lemma exists_isOrigin {i : ι} {steps rest : List (ServiceEvent F ι × RosterOp)}
    (hsteps : ServiceTrace.steps trace = steps ++ rest)
    {torrentId : UInt32} {entry : Peer.Index × Peer}
    (horigin : ∀ j op announce a, (.advance j, op) ∈ steps →
      (calls j).accepted? (result j) = some (announce, a) → announce.Announces a torrentId entry →
      op.Sets ⟨entry.1.userId, torrentId, entry.1.peerId⟩ entry.2.sighting →
      service.IsOrigin result (ServiceTrace.events trace) i torrentId entry (some j)) {roster : Roster}
    (hpath : LeadsTo Roster.Step service.world.state.roster (steps.map Prod.snd) roster)
    (hkey : roster ⟨entry.1.userId, torrentId, entry.1.peerId⟩ = some entry.2.sighting) :
    ∃ origin, service.IsOrigin result (ServiceTrace.events trace) i torrentId entry origin := by
  induction hn : steps.length using Nat.strong_induction_on generalizing steps rest roster with
  | _ n ih =>
    rcases exists_origin hpath hkey with ⟨hstart, -⟩ | ⟨before, step, after, rfl, hsets, -⟩
    · exact ⟨none, hstart⟩
    · have hmem : step ∈ ServiceTrace.steps trace := by simp [hsteps]
      obtain ⟨j, hevent, hcall⟩ := h.setter_cases hfinishes hmem hsets
      rcases hcall with ⟨announce, a, ha, hannounces, -⟩ | ⟨-, part, hpart, hop, hops⟩
      · refine ⟨some j, horigin j step.2 announce a ?_ ha hannounces hsets⟩
        rw [← hevent]
        simp
      · -- The torrent has been taken out by the same upsert, and the peer with it.
        have hcall : step.1.call? = some j := by rw [hevent]; rfl
        have hofCall : ServiceTrace.ofCall j before ++ [.putBack torrentId part] ++
            ServiceTrace.ofCall j (after ++ rest) =
              [.takeOut torrentId part, .putBack torrentId part] := by
          rw [← hops, ← ServiceTrace.ofCall_steps, hsteps]
          simp [ServiceTrace.ofCall, hcall, hop]
        have htaken : .takeOut torrentId part ∈ ServiceTrace.ofCall j before := by
          cases hbefore : ServiceTrace.ofCall j before with
          | nil => simp [hbefore] at hofCall
          | cons op ops =>
            rw [hbefore] at hofCall
            exact List.mem_cons.mpr (Or.inl (List.cons.inj hofCall).1.symm)
        obtain ⟨taking, htaking, hop'⟩ := List.mem_map.mp htaken
        obtain ⟨first, second, rfl⟩ := List.append_of_mem (List.mem_filter.mp htaking).1
        simp only [List.map_append, List.map_cons, List.append_assoc, List.cons_append, leadsTo_append,
          LeadsTo, hop'] at hpath
        obtain ⟨middle, hfirst, _, hstep, -⟩ := hpath
        cases hstep
        have hrest : ServiceTrace.steps trace = first ++ (taking :: second ++ step :: after ++ rest) := by
          simp [hsteps]
        refine ih first.length (by simp [← hn]) hrest (fun j op announce a hmem => ?_) hfirst hpart rfl
        exact horigin j op announce a (by simp [hmem])

omit [RateField F] in
/-- Unless the torrent is upserted, nothing is done to a peer between its origin and the moment at which
it is found. -/
lemma exists_spared_origin {i : ι} {op : RosterOp} {steps rest : List (ServiceEvent F ι × RosterOp)}
    (hsteps : ServiceTrace.steps trace = steps ++ (.advance i, op) :: rest)
    {torrentId : UInt32} {entry : Peer.Index × Peer}
    (horigin : ∀ j op announce a, (.advance j, op) ∈ steps →
      (calls j).accepted? (result j) = some (announce, a) → announce.Announces a torrentId entry →
      op.Sets ⟨entry.1.userId, torrentId, entry.1.peerId⟩ entry.2.sighting →
      service.IsOrigin result (ServiceTrace.events trace) i torrentId entry (some j)) {roster : Roster}
    (hpath : LeadsTo Roster.Step service.world.state.roster (steps.map Prod.snd) roster)
    (hkey : roster ⟨entry.1.userId, torrentId, entry.1.peerId⟩ = some entry.2.sighting)
    (hupserts : ∀ j torrent, calls j = .upsertTorrent torrent → torrent.id ≠ torrentId) :
    ∃ origin, service.IsOrigin result (ServiceTrace.events trace) i torrentId entry origin ∧
      ∀ before between after, trace = before ++ between ++ after →
        (∀ j ∈ origin, service.FinishesBy j (ServiceTrace.events before)) →
        .advance i ∉ ServiceTrace.events (before ++ between) →
        ∀ step ∈ ServiceTrace.steps between,
          step.2.Spares ⟨entry.1.userId, torrentId, entry.1.peerId⟩ entry.2.sighting := by
  have hnotMem (l : RosterTrace F ι) (hnot : .advance i ∉ l.events) : (.advance i, op) ∉ l.steps :=
    ServiceTrace.notMem_steps_of_opsOf_eq_nil (ServiceTrace.opsOf_eq_nil hnot) op
  rcases exists_origin hpath hkey with ⟨hstart, hall⟩ | ⟨first, setter, second, hsplit, hsets, hall⟩
  · refine ⟨none, hstart, fun before between after htrace _ hnot step hmem => hall step ?_⟩
    rw [htrace] at hsteps
    obtain ⟨later, hlater⟩ := ServiceTrace.steps_before hsteps (hnotMem _ hnot)
    rw [hlater]
    exact List.mem_append_right _ (List.mem_append_left _ hmem)
  · have hmem : setter ∈ trace.steps := by simp [hsteps, hsplit]
    obtain ⟨j, hevent, ⟨announce, a, ha, hannounces, hops⟩ | ⟨⟨torrent, hcall, hid⟩, -⟩⟩ :=
      h.setter_cases hfinishes hmem hsets
    · refine ⟨some j, horigin j setter.2 announce a ?_ ha hannounces hsets, ?_⟩
      · rw [← hevent, hsplit]
        simp
      intro before between after htrace hfinished hnot step hstep
      -- The call has done all that it does by then, so that its part is among what comes before.
      have hdone := (h.calls before (between ++ after) j (by rw [htrace, List.append_assoc])
        (hfinished j rfl)).of_accepted ha
      have hnone : ServiceTrace.opsOf j (between ++ after) = [] := by
        rw [htrace, List.append_assoc, ServiceTrace.opsOf_append, hdone] at hops
        exact (List.cons.inj hops).2
      have hsetter : setter ∉ ServiceTrace.steps (between ++ after) := by
        obtain ⟨event, op'⟩ := setter
        obtain rfl : event = .advance j := hevent
        exact ServiceTrace.notMem_steps_of_opsOf_eq_nil hnone op'
      rw [htrace, hsplit] at hsteps
      obtain ⟨middle, later, rfl⟩ := ServiceTrace.steps_between hsteps hsetter (hnotMem _ hnot)
      exact hall step (List.mem_append_right _ (List.mem_append_left _ hstep))
    · exact absurd hid (hupserts j torrent hcall)

omit [RateField F] hfinishes in
lemma isLatest_of_spares {i : ι} {torrentId : UInt32} {entry : Peer.Index × Peer} {origin : Option ι}
    (hspares : ∀ before between after, trace = before ++ between ++ after →
      (∀ j ∈ origin, service.FinishesBy j (ServiceTrace.events before)) →
      .advance i ∉ ServiceTrace.events (before ++ between) →
      ∀ step ∈ ServiceTrace.steps between,
        step.2.Spares ⟨entry.1.userId, torrentId, entry.1.peerId⟩ entry.2.sighting) :
    service.IsLatest result (ServiceTrace.events trace) i torrentId entry origin := by
  constructor
  · intro before between after k announce a hevents hsince hfresh hfinished hnot ha hkey
    obtain ⟨first, last, rfl, hfirst, rfl⟩ := List.map_eq_append_iff.mp hevents
    obtain ⟨first, second, rfl, rfl, rfl⟩ := List.map_eq_append_iff.mp hfirst
    rw [← List.map_append] at hnot hfinished
    have hdone := (h.calls (first ++ second) last k rfl hfinished).of_accepted ha
    rw [ServiceTrace.opsOf_append, ServiceTrace.opsOf_eq_nil hfresh, List.nil_append] at hdone
    have hop : announce.rosterOp a.torrentId a.toTorrentResult ∈ ServiceTrace.ofCall k
        (ServiceTrace.steps second) := by
      rw [ServiceTrace.ofCall_steps, hdone]
      exact List.mem_singleton_self _
    obtain ⟨step, hstep, hop⟩ := List.mem_map.mp hop
    have hspared := hspares first second last rfl hsince hnot step (List.mem_filter.mp hstep).1
    rw [hop] at hspared
    exact hspared hkey
  · intro before config activeNow inactiveNow after activeCutoff inactiveCutoff hevents hsince hnot
      hactive hinactive
    obtain ⟨first, last, rfl, rfl, hlast⟩ := List.map_eq_append_iff.mp hevents
    obtain ⟨⟨event, ops⟩, last, rfl, rfl, rfl⟩ := List.map_eq_cons_iff.mp hlast
    have hops := h.reaps config activeNow inactiveNow ops (by simp)
    rw [reapOps, hactive, hinactive] at hops
    subst hops
    refine hspares first [(.reap config activeNow inactiveNow, [.expire activeCutoff])] last (by simp)
      hsince ?_ (.reap config activeNow inactiveNow, .expire activeCutoff) ?_
    · simpa [ServiceTrace.events] using hnot
    · simp [ServiceTrace.steps]

end Explains

end Service

/-- Whoever is handed out has announced before, with the address under which they are handed out, unless
they have been there from the beginning. As long as the torrent is not upserted, the peer has announced
nothing else since, has not stopped, and has not been found too old. -/
theorem handed_out_peers_have_announced (hfresh : service.Fresh)
    (hchooses : ∀ i announce, calls i = .announce announce → announce.Chooses)
    {events : List (ServiceEvent F ι)} (hresult : (run Service.step service events).Returned result)
    {i : ι} {announce : AnnounceCall F} {a : Accepted F}
    (ha : (calls i).accepted? (result i) = some (announce, a)) {entry : Peer.Index × Peer}
    (hentry : entry ∈ a.list.peers) :
    entry.1.userId ≠ a.userId ∧
      ∃ origin, service.IsOrigin result events i a.torrentId entry origin ∧
      ((∀ j torrent, calls j = .upsertTorrent torrent → torrent.id ≠ a.torrentId) →
        service.IsLatest result events i a.torrentId entry origin) := by
  obtain ⟨trace, rfl, htrace⟩ := Service.exists_explains hfresh hchooses hresult
  have hfinishes (j : ι) : service.FinishesBy j (ServiceTrace.events trace) := by
    rw [Service.FinishesBy, hresult j]
    rfl
  have hops := (htrace.calls trace [] i (List.append_nil trace).symm (hfinishes i)).of_accepted ha
  have hop : announce.rosterOp a.torrentId a.toTorrentResult ∈ ServiceTrace.ofCall i
      (ServiceTrace.steps trace) := by
    rw [ServiceTrace.ofCall_steps, hops]
    exact List.mem_singleton_self _
  obtain ⟨⟨event, op⟩, hstep, rfl⟩ := List.mem_map.mp hop
  obtain ⟨hmem, hcall⟩ := List.mem_filter.mp hstep
  obtain rfl : event = .advance i := ServiceEvent.eq_advance_of_call? (of_decide_eq_true hcall)
  obtain ⟨steps, rest, hsteps⟩ := List.append_of_mem hmem
  have horigin (j : ι) (op : RosterOp) (announce' : AnnounceCall F) (a' : Accepted F)
      (hmem : (.advance j, op) ∈ steps) (hj : (calls j).accepted? (result j) = some (announce', a'))
      (hannounces : announce'.Announces a' a.torrentId entry)
      (hsets : op.Sets ⟨entry.1.userId, a.torrentId, entry.1.peerId⟩ entry.2.sighting) :
      service.IsOrigin result (ServiceTrace.events trace) i a.torrentId entry (some j) :=
    htrace.isOrigin_of_announces hfinishes ha hj hsteps hmem hannounces hsets
  have hpath := htrace.path trace [] (List.append_nil trace).symm
  rw [← ServiceTrace.map_snd_steps, hsteps, List.map_append, leadsTo_append] at hpath
  obtain ⟨roster, hbefore, _, hannounces, -⟩ := hpath
  cases hannounces with
  | announce hgiven hnodup =>
    obtain ⟨hother, hpresent⟩ := hgiven entry hentry
    refine ⟨hother, ?_⟩
    by_cases hupserts : ∀ j torrent, calls j = .upsertTorrent torrent → torrent.id ≠ a.torrentId
    · obtain ⟨origin, hstored, hspares⟩ :=
        htrace.exists_spared_origin hfinishes hsteps horigin hbefore hpresent hupserts
      exact ⟨origin, hstored, fun _ => htrace.isLatest_of_spares hspares⟩
    · obtain ⟨origin, hstored⟩ := htrace.exists_isOrigin hfinishes hsteps horigin hbefore hpresent
      exact ⟨origin, hstored, fun h => absurd h hupserts⟩

end Runs

/-- A leecher is given the seeder, whose announce has come in between, and a reap after it. -/
theorem handed_out_peers_have_announced_sample :
    ∃ announce a, (Sample.swarmCalls true).accepted? (Sample.swarmResult true) = some (announce, a) ∧
      ∃ entry ∈ a.list.peers, entry.1 = ⟨2, Sample.peerId 2⟩ ∧ ∃ origin,
        Sample.swarmService.IsOrigin Sample.swarmResult Sample.swarmRun true a.torrentId entry origin ∧
        Sample.swarmService.IsLatest Sample.swarmResult Sample.swarmRun true a.torrentId entry origin := by
  have hsome : ((Sample.swarmCalls true).accepted? (Sample.swarmResult true)).any (fun accepted =>
      accepted.2.list.peers.any fun entry => entry.1 = ⟨2, Sample.peerId 2⟩) = true := by
    decide +kernel
  obtain ⟨⟨announce, a⟩, ha, hany⟩ := (Option.any_eq_true _ _).mp hsome
  obtain ⟨entry, hentry, hkey⟩ := List.any_eq_true.mp hany
  obtain ⟨-, origin, horigin, hlatest⟩ := handed_out_peers_have_announced (fun _ => rfl)
    Sample.chooses_swarmCalls Sample.returned_swarmRun ha hentry
  refine ⟨announce, a, ha, entry, hentry, of_decide_eq_true hkey, origin, horigin, hlatest ?_⟩
  intro j torrent hcall
  cases j with
  | true => cases hcall
  | false => cases hcall

end Unit3dAnnounce
