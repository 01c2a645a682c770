import Unit3dAnnounce.Model.Sample
import Unit3dAnnounce.Proofs.PeerOrder

/-!
# Rows and peers under concurrent announces

The rows go by the order in which the updates are taken from the queue. They agree with memory as long
as the announce of a peer that was the last one in the torrents also has the last word in the queue.
-/

namespace Unit3dAnnounce

open Machine WriteBehind

variable {F : Type}

section Orders

variable {ι : Type} [DecidableEq ι] [RateField F] {announces : ι → AnnounceCall F} {stores : Stores F}
  {phase : ι → Phase F} {key : PeerUpdate.Index}

/-- Once all announces have finished, the row of every peer that an accepted one was about agrees with
memory, if nothing of the peer is waiting or being written. -/
def PeerService.PersistsPeers (announces : ι → AnnounceCall F) (service : PeerService ι F) : Prop :=
  (∀ i, ((service.world.handlers i).result?).isSome) →
    ∀ i a, service.world.handlers i = .ret (.ok a) →
      service.pipeline.queue.records.get? ((announces i).peerIndex a) = none →
      (∀ batch ∈ service.peers.running, batch.get? ((announces i).peerIndex a) = none) →
      ∃ row, service.peers.table.get? ((announces i).peerIndex a) = some row ∧
        row.Agrees (service.peer? ((announces i).peerIndex a))

omit [DecidableEq ι] in
lemma OrderedService.Tracks.persistsPeers {ordered : OrderedService ι F}
    (h : ordered.Tracks announces stores phase) : ordered.service.PersistsPeers announces := by
  intro hfinished i a haccepted hqueue hrunning
  have hin := h.phases i
  rw [haccepted] at hin
  have hphase : phase i = .queued a.uncredited := by
    rcases hin.ret with ⟨-, e, he⟩ | ⟨a', a'', hphase, hok, rfl⟩
    · cases he
    · rw [Except.ok.injEq] at hok
      rw [hok, hphase]
  -- the last accepted announce of the peer has finished, so its update is the latest record
  obtain ⟨j, hj⟩ : ∃ j, lastAccepted announces stores ordered.accepted ((announces i).peerIndex a) =
      some j := by
    refine Option.isSome_iff_exists.mp (List.find?_isSome.mpr ⟨i, (h.accepted i).mpr ?_, ?_⟩)
    · rw [hphase]
      rfl
    · have hindex := h.accepts i
      rw [haccepted] at hindex
      simpa using hindex a rfl
  obtain ⟨a', ha', hagrees, hlatest⟩ := h.told _ j hj
  obtain ⟨result, hresult⟩ := Option.isSome_iff_exists.mp (hfinished j)
  have hlast := h.phases j
  rw [Handler.eq_ret_of_result? hresult] at hlast
  have hqueued : ((phase j).queued?).isSome := by
    rcases hlast.ret with ⟨hphase | hphase, -⟩ | ⟨a'', -, hphase, -⟩
    · rw [hphase] at ha'
      cases ha'
    · rw [hphase] at ha'
      cases ha'
    · rw [hphase]
      rfl
  obtain ⟨row, hrow, hcontent⟩ := (hlatest hqueued).row hqueue (Pipeline.inflight_eq_zero hrunning)
  exact ⟨row, hrow, hagrees.row hcontent⟩

omit [DecidableEq ι] in
lemma OrderedService.tracks_servePeers (announces : ι → AnnounceCall F) (state : AppState F)
    (writes : Writes PeerUpdate.Index PeerUpdate PeerRow) :
    OrderedService.Tracks announces state.stores (fun _ => .looking)
      ⟨servePeers announces state writes, [], []⟩ :=
  ⟨inPhases_serveAnnounces announces state, ⟨rfl, rfl⟩,
    fun i => (announces i).accepts_peerIndex state.stores, by simp [Phase.announce?],
    by simp [Phase.queued?], by simp [lastAccepted]⟩

omit [RateField F] in
lemma OrderedService.along_succeeds {schedule : List (ι ⊕ FlushEvent F)}
    (hsucceeds : ∀ flush, .inr flush ∈ schedule → flush.Succeeds) (ordered : OrderedService ι F) :
    Along OrderedService.step (fun _ event => ∀ flush, event = .inr flush → flush.Succeeds) ordered
      schedule := by
  refine Along.of_forall_mem (fun event hmem _ flush heq => ?_) ordered
  rw [heq] at hmem
  exact hsucceeds flush hmem

/-- As long as flushes do not overlap and the announce of a peer that is the last one in the torrents
also has the last word in the queue, the rows of the peers agree with memory once all announces have
finished. -/
theorem peers_persisted (announces : ι → AnnounceCall F) (state : AppState F)
    (writes : Writes PeerUpdate.Index PeerUpdate PeerRow) (schedule : List (ι ⊕ FlushEvent F))
    (hsucceeds : ∀ flush, .inr flush ∈ schedule → flush.Succeeds)
    (hkeeps : Along OrderedService.step (OrderedService.KeepsOrder announces)
      ⟨servePeers announces state writes, [], []⟩ schedule) :
    (run PeerService.step (servePeers announces state writes) schedule).PersistsPeers announces := by
  have hstep (ordered : OrderedService ι F) (event : ι ⊕ FlushEvent F)
      (hboth : ordered.KeepsOrder announces event ∧ ∀ flush, event = .inr flush → flush.Succeeds)
      (h : ∃ phase, OrderedService.Tracks announces state.stores phase ordered) :
      ∃ phase, OrderedService.Tracks announces state.stores phase (ordered.step event) := by
    obtain ⟨phase, h⟩ := h
    exact h.step hboth.1 hboth.2
  obtain ⟨phase, htracks⟩ := ((hkeeps.and (OrderedService.along_succeeds hsucceeds _)).invariant
    hstep ⟨_, OrderedService.tracks_servePeers announces state writes⟩).last
  have hpersists := htracks.persistsPeers
  rwa [OrderedService.service_run] at hpersists

section InOrder

/-- The update has the clock of an announce that has queued the peer, or an earlier one than them all. -/
def PeerUpdate.IsDated (announces : ι → AnnounceCall F) (stores : Stores F) (queued : List ι)
    (key : PeerUpdate.Index) (update : PeerUpdate) : Prop :=
  (∃ j ∈ queued, (announces j).peerIndex? stores = some key ∧
      update.updatedAt = (announces j).env.now) ∨
    ∀ i, update.updatedAt < (announces i).env.now

namespace PeerUpdate.IsDated

variable {stores : Stores F} {queued queued' : List ι} {update update' : PeerUpdate}

omit [DecidableEq ι] [RateField F] in
lemma mono (h : update.IsDated announces stores queued key) (hqueued : queued ⊆ queued') :
    update.IsDated announces stores queued' key := by
  refine h.imp_left fun hdated => ?_
  obtain ⟨j, hj, hrest⟩ := hdated
  exact ⟨j, hqueued hj, hrest⟩

omit [DecidableEq ι] [RateField F] in
lemma merge (h : update.IsDated announces stores queued key)
    (h' : update'.IsDated announces stores queued key) :
    (Mergeable.merge update update').IsDated announces stores queued key := by
  unfold IsDated at h h' ⊢
  rw [PeerUpdate.updatedAt_merge]
  rcases max_choice update.updatedAt update'.updatedAt with hmax | hmax
  · rwa [hmax]
  · rwa [hmax]

end PeerUpdate.IsDated

namespace OrderedService

/-- An announce that queues its peer has a later clock than those that have done so before, and the last
one in the torrents is not one of these. Flushes do not overlap. -/
def QueuesInOrder (announces : ι → AnnounceCall F) (ordered : OrderedService ι F) :
    ι ⊕ FlushEvent F → Prop
  | .inl i => (ordered.service.world.handlers i).label? = some .peersQueue →
      ∀ key ∈ (announces i).peerIndex? ordered.service.world.state.stores, ∀ j ∈ ordered.queued,
        (announces j).peerIndex? ordered.service.world.state.stores = some key →
          (announces j).env.now < (announces i).env.now ∧
          lastAccepted announces ordered.service.world.state.stores ordered.accepted key ≠ some j
  | .inr event => ordered.service.pipeline.InTurn (.flush event)

def IsDated (announces : ι → AnnounceCall F) (stores : Stores F) (ordered : OrderedService ι F) :
    Prop :=
  ∀ key, (ordered.service.pipeline.channel.cell key).Every
    (PeerUpdate.IsDated announces stores ordered.queued key)

namespace Tracks

variable {ordered : OrderedService ι F}

/-- Where announces queue their peers in order, what is waiting for a peer is earlier. -/
lemma keepsOrder (h : ordered.Tracks announces stores phase) (hdated : ordered.IsDated announces stores)
    {event : ι ⊕ FlushEvent F} (horder : ordered.QueuesInOrder announces event) :
    ordered.KeepsOrder announces event := by
  cases event with
  | inr event => exact horder
  | inl i =>
    intro hlabel key hkey last waiting
    have hearlier := horder hlabel key hkey
    have hindex := fun j => AnnounceCall.peerIndex?_congr h.mappings (announces j)
    by_cases hlast : last = some i
    · rw [if_pos hlast]
      intro update hwaiting
      rcases (hdated key).1 update hwaiting with ⟨j, hj, hjkey, hclock⟩ | hbefore
      · rw [hclock]
        exact (hearlier j hj ((hindex j).trans hjkey)).1
      · exact hbefore i
    · rw [if_neg hlast]
      refine Or.inl fun j hj hqueued => ?_
      exact (hearlier j hqueued (peerIndex?_of_lastAccepted hj).2).2 hj

lemma isDated_advance (h : ordered.Tracks announces stores phase)
    (hdated : ordered.IsDated announces stores) (i : ι) :
    (ordered.step (.inl i)).IsDated announces stores := by
  rcases h.phases.step i with ⟨hlabel, hsame⟩ | ⟨label, phase', hlabel, hadvances, hnext⟩
  · simp only [OrderedService.step, PeerService.step, hsame, hlabel]
    exact hdated
  · have hin := hnext i
    rw [Function.update_self] at hin
    have hqueued : ordered.queued ⊆ (ordered.step (.inl i)).queued :=
      fun j hj => (mem_queued_step hlabel).mpr (Or.inr hj)
    intro key
    have hkept := (hdated key).mono fun update hupdate => hupdate.mono hqueued
    have hindex (a : Accepted F) (ha : phase'.announce? = some a) :=
      h.peerIndex?_step hin ha
    change Cell.Every _ (Channel.cell (Pipeline.channel
      ⟨(ordered.service.world.step i).state.queues.peers, ordered.service.peers⟩) key)
    unfold PeerService.pipeline at hkept
    generalize (ordered.service.world.step i).state = state' at hadvances
    generalize phase i = p at hadvances
    generalize ordered.service.world.state = state at hadvances hkept
    cases hadvances with
    | still hstill =>
      rw [hstill.peers]
      exact hkept
    | refuse hstores hpeers =>
      rw [hpeers]
      exact hkept
    | accept hsection => exact hkept
    | update state htouches => exact hkept
    | @queue a _ state hphase =>
      -- the new record has the clock of the announce that queues it
      refine Pipeline.every_step (F := F) ⟨state.queues.peers, ordered.service.peers⟩
        (.upsert ((announces i).peerIndex a) (a.peerUpdate (announces i).env (announces i).request))
        (fun _ _ => PeerUpdate.IsDated.merge) (fun update hupdate => ?_) hkept
      rw [PipelineEvent.upsert.injEq] at hupdate
      obtain ⟨rfl, rfl⟩ := hupdate
      exact Or.inl ⟨i, (mem_queued_step hlabel).mpr (Or.inl ⟨rfl, rfl⟩), hindex a rfl, rfl⟩

omit [RateField F] in
lemma isDated_flush (hdated : ordered.IsDated announces stores) (event : FlushEvent F) :
    (ordered.step (.inr event)).IsDated announces stores :=
  fun key => Pipeline.every_step _ (.flush event) (fun _ _ => PeerUpdate.IsDated.merge)
    (fun _ hnot => nomatch hnot) (hdated key)

end Tracks

end OrderedService

/-- Rows and memory agree where the announces of a peer queue it in the order of their torrents sections
and with increasing clocks, all later than what has been queued before them. -/
theorem peers_persisted_of_order (announces : ι → AnnounceCall F) (state : AppState F)
    (writes : Writes PeerUpdate.Index PeerUpdate PeerRow) (schedule : List (ι ⊕ FlushEvent F))
    (hearlier : ∀ key, ((servePeers announces state writes).pipeline.channel.cell key).Every
      fun update => ∀ i, update.updatedAt < (announces i).env.now)
    (hsucceeds : ∀ flush, .inr flush ∈ schedule → flush.Succeeds)
    (horder : Along OrderedService.step (OrderedService.QueuesInOrder announces)
      ⟨servePeers announces state writes, [], []⟩ schedule) :
    (run PeerService.step (servePeers announces state writes) schedule).PersistsPeers announces := by
  have hstep (ordered : OrderedService ι F) (event : ι ⊕ FlushEvent F)
      (hboth : ordered.QueuesInOrder announces event ∧ ∀ flush, event = .inr flush → flush.Succeeds)
      (h : ∃ phase, OrderedService.Tracks announces state.stores phase ordered ∧
        ordered.IsDated announces state.stores) :
      ∃ phase, OrderedService.Tracks announces state.stores phase (ordered.step event) ∧
        (ordered.step event).IsDated announces state.stores := by
    obtain ⟨phase, htracks, hdated⟩ := h
    obtain ⟨phase', hnext⟩ := htracks.step (htracks.keepsOrder hdated hboth.1) hboth.2
    refine ⟨phase', hnext, ?_⟩
    cases event with
    | inl i => exact htracks.isDated_advance hdated i
    | inr event => exact OrderedService.Tracks.isDated_flush hdated event
  have hstart : OrderedService.IsDated announces state.stores
      ⟨servePeers announces state writes, [], []⟩ :=
    fun key => (hearlier key).mono fun _ => Or.inr
  obtain ⟨phase, htracks, -⟩ := ((horder.and (OrderedService.along_succeeds hsucceeds _)).invariant
    hstep ⟨_, OrderedService.tracks_servePeers announces state writes, hstart⟩).last
  have hpersists := htracks.persistsPeers
  rwa [OrderedService.service_run] at hpersists

end InOrder

end Orders

namespace Sample

/-- A start and a stop of one seeder, with the clocks that they have read. -/
def startStop (start stop : ℤ) : Bool → AnnounceCall ℝ
  | true => ⟨config, env start, request 1 1 .started 0⟩
  | false => ⟨config, env stop, request 1 1 .stopped 0⟩

def flushed : List (Bool ⊕ FlushEvent ℝ) :=
  [.inr (.takeBatches config), .inr (.finish config 0 true)]

/-- The sections of the two announces by turns. -/
def byTurns : List (Bool ⊕ FlushEvent ℝ) :=
  (List.replicate 20 [.inl true, .inl false]).flatten ++ flushed

/-- The start comes whole after the stop has read its clock. -/
def delayedStop : List (Bool ⊕ FlushEvent ℝ) :=
  List.replicate 5 (.inl false) ++ List.replicate 20 (.inl true) ++ List.replicate 20 (.inl false) ++
    flushed

lemma succeeds_of_mem_flushed {flush : FlushEvent ℝ} (h : .inr flush ∈ flushed) : flush.Succeeds := by
  simp only [flushed, List.mem_cons, Sum.inr.injEq, List.not_mem_nil, or_false] at h
  rcases h with rfl | rfl
  · trivial
  · rfl

end Sample

theorem peers_persisted_sample :
    (run PeerService.step (servePeers (Sample.startStop 0 60) (Sample.state none [1])
      ⟨[], .empty⟩) Sample.byTurns).PersistsPeers (Sample.startStop 0 60) := by
  refine peers_persisted (Sample.startStop 0 60) (Sample.state none [1]) ⟨[], .empty⟩ Sample.byTurns
    (fun flush hmem => ?_) (by decide +kernel)
  rw [Sample.byTurns, List.mem_append] at hmem
  refine Sample.succeeds_of_mem_flushed (hmem.resolve_left ?_)
  simp

/-- The stop has read its clock before the start and enters the torrents after it. -/
theorem peers_not_persisted :
    ¬ ∀ (announces : Bool → AnnounceCall ℝ) state writes (schedule : List (Bool ⊕ FlushEvent ℝ)),
      (∀ flush, .inr flush ∈ schedule → flush.Succeeds) →
      (run PeerService.step (servePeers announces state writes) schedule).PersistsPeers announces := by
  intro h
  have hpersists := h (Sample.startStop 60 0) (Sample.state none [1]) ⟨[], .empty⟩ Sample.delayedStop
    fun flush hmem => by
      rw [Sample.delayedStop, List.mem_append] at hmem
      exact Sample.succeeds_of_mem_flushed (hmem.resolve_left (by simp))
  have hstart : (((run PeerService.step (servePeers (Sample.startStop 60 0) (Sample.state none [1])
      ⟨[], .empty⟩) Sample.delayedStop).world.handlers true).result?).map (fun result =>
        result.toOption.map (Sample.startStop 60 0 true).peerIndex) =
      some (some ⟨1, 1, Sample.peerId 1⟩) := by decide +kernel
  have hrow : ((run PeerService.step (servePeers (Sample.startStop 60 0) (Sample.state none [1])
      ⟨[], .empty⟩) Sample.delayedStop).peers.table.get? ⟨1, 1, Sample.peerId 1⟩).map PeerRow.active =
      some true := by decide +kernel
  have hmemory : ((run PeerService.step (servePeers (Sample.startStop 60 0) (Sample.state none [1])
      ⟨[], .empty⟩) Sample.delayedStop).peer? ⟨1, 1, Sample.peerId 1⟩).any Peer.isActive = false := by
    decide +kernel
  obtain ⟨result, hresult, hindex⟩ := Option.map_eq_some_iff.mp hstart
  cases result with
  | error e => cases hindex
  | ok a =>
    have hkey : (Sample.startStop 60 0 true).peerIndex a = ⟨1, 1, Sample.peerId 1⟩ :=
      Option.some_inj.mp hindex
    obtain ⟨row, hstored, hagrees⟩ := hpersists (by decide +kernel) true a
      (Handler.eq_ret_of_result? hresult) (by rw [hkey]; decide +kernel) (by rw [hkey]; decide +kernel)
    rw [hkey] at hstored hagrees
    rw [hstored, Option.map_some, Option.some_inj] at hrow
    have hactive := hagrees.active
    rw [hrow, hmemory] at hactive
    cases hactive

end Unit3dAnnounce
