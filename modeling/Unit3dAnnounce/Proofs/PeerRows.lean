import Unit3dAnnounce.Model.Restart
import Unit3dAnnounce.Proofs.PeerOrder
import Unit3dAnnounce.Proofs.Tracker

/-!
# The rows of the peers in a run

Once the queue of peers is flushed, the row of a peer has followed its announces, so what is read back
from it is the peer that memory holds, as long as that one is active.
-/

namespace Unit3dAnnounce

open Machine WriteBehind

variable {F : Type}

/-- What the database keeps of a peer, up to the rounding of its time. -/
def Peer.persisted (peer : Peer) : Peer := { peer with hasSentCompleted := false }

def Peer.rounded (second : DateTime → ℤ) (peer : Peer) : Peer :=
  { peer with updatedAt := storedTime second peer.updatedAt }

/-- A peer that is read back is active exactly if the stored one is, and then the same. A reap may have
come between them. -/
structure Restores (isReaped : DateTime → Prop) (restored stored : Option Peer) : Prop where
  keeps : ∀ peer ∈ stored, peer.isActive = true → restored = some peer.persisted
  origin : ∀ peer ∈ restored, peer.isActive = true →
    (∃ peer' ∈ stored, peer'.isActive = true ∧ peer'.persisted = peer) ∨ isReaped peer.updatedAt

variable {isReaped : DateTime → Prop} {restored stored : Option Peer}

lemma PeerRow.updatedAt_of_toPeer {row : Option PeerRow} {peer : Peer}
    (h : row.bind PeerRow.toPeer = some peer) :
    ∃ row', row = some row' ∧ row'.updatedAt = some peer.updatedAt := by
  obtain ⟨row', hrow, hpeer⟩ := Option.bind_eq_some_iff.mp h
  unfold PeerRow.toPeer at hpeer
  simp only [Option.bind_eq_bind, Option.bind_eq_some_iff, Option.pure_def, Option.some_inj] at hpeer
  obtain ⟨ipAddress, -, updatedAt, hupdatedAt, rfl⟩ := hpeer
  exact ⟨row', hrow, hupdatedAt⟩

/-- At startup every peer is as its row says. -/
lemma restores_toPeer (row : Option PeerRow) :
    Restores isReaped (row.bind PeerRow.toPeer) (row.bind PeerRow.toPeer) := by
  have hpersisted : ∀ peer ∈ row.bind PeerRow.toPeer, peer.persisted = peer := by
    intro peer hpeer
    obtain ⟨row, -, hrow⟩ := Option.bind_eq_some_iff.mp hpeer
    unfold PeerRow.toPeer at hrow
    simp only [Option.bind_eq_bind, Option.bind_eq_some_iff, Option.pure_def, Option.some_inj] at hrow
    obtain ⟨ipAddress, -, updatedAt, -, rfl⟩ := hrow
    rfl
  constructor
  · intro peer hpeer _
    rw [hpersisted peer hpeer]
    exact hpeer
  · intro peer hpeer hactive
    exact Or.inl ⟨peer, hpeer, hactive, hpersisted peer hpeer⟩

lemma persisted_announcedPeer {config : Config F} {now : DateTime} {queries : Announce}
    {clientIp : IpAddr} {isConnectable hit : Bool} {old : Option Peer} {peer : Peer}
    (h : announcedPeer config now queries clientIp isConnectable hit old = some peer) :
    peer.persisted =
      { ipAddress := clientIp
        port := queries.port
        isSeeder := queries.left = 0
        isActive := true
        isVisible := peer.isVisible
        isConnectable := isConnectable
        hasSentCompleted := false
        updatedAt := now
        uploaded := queries.uploaded
        downloaded := queries.downloaded } := by
  unfold announcedPeer at h
  split_ifs at h
  cases old with
  | none =>
    simp only [Option.some_inj] at h
    rw [← h]
    rfl
  | some old =>
    simp only [Option.some_inj] at h
    rw [← h]
    rfl

section Announce

variable [RateField F] {config : Config F} {env : Env F} {request : AnnounceRequest} {a : Accepted F}

/-- The row that an announce is going to write tells of the peer that it leaves. -/
lemma restores_peerUpdate {state : AppState F} {torrent torrent' : Torrent}
    (h : TorrentSection config env request a.isConnectable state a.torrentId torrent torrent'
      a.toTorrentResult) :
    Restores isReaped (a.peerUpdate env request).content.toPeer (TorrentStore.peer?
      (state.stores.torrents.modify a.torrentId fun _ => torrent')
      ⟨a.userId, a.torrentId, request.queries.peerId⟩) := by
  obtain ⟨peers', hchange, -⟩ := changeTorrent_ok h.change
  rw [h.announcedPeer rfl, TorrentStore.peer?_of_get? h.stored]
  by_cases hstopped : request.queries.event = .stopped
  · unfold announcedPeer
    rw [if_pos hstopped]
    constructor
    · nofun
    · intro peer hpeer hactive
      have hinactive : peer.isActive = false := by
        simp only [PeerRow.toPeer, PeerUpdate.content, PeerUpdate.row, Accepted.peerUpdate,
          Option.bind_eq_bind, Option.bind_some, Option.pure_def, Option.mem_def, Option.some_inj] at hpeer
        rw [← hpeer]
        simp [hstopped]
      rw [hactive] at hinactive
      cases hinactive
  · obtain ⟨peer, hpeer, hactive, -⟩ := @announcedPeer_of_ne_stopped F config env.now request.queries
      request.clientIp a.isConnectable (hasHitDownloadSlotLimit request.queries a.user a.group) hstopped
      (torrent.peers.get? ⟨a.userId, request.queries.peerId⟩)
    have hrestored : (a.peerUpdate env request).content.toPeer = some peer.persisted := by
      rw [persisted_announcedPeer hpeer, ← isVisible_announcedPeer hchange hpeer]
      simp [PeerRow.toPeer, PeerUpdate.content, PeerUpdate.row, Accepted.peerUpdate, hstopped]
    rw [hpeer, hrestored]
    constructor
    · rintro peer' hpeer' -
      rw [Option.some_inj.mp hpeer']
    · intro peer' hpeer' _
      exact Or.inl ⟨peer, rfl, hactive, Option.some_inj.mp hpeer'⟩

end Announce

/-- A reap makes peers inactive that it finds too old, and removes only inactive ones. -/
lemma Restores.reap (h : Restores isReaped restored stored) {activeCutoff inactiveCutoff : DateTime}
    (hreaped : ∀ t < activeCutoff, isReaped t) :
    Restores isReaped restored ((stored.filter fun peer =>
      decide (inactiveCutoff ≤ peer.updatedAt) || peer.isActive).map (Peer.expire activeCutoff)) := by
  constructor
  · intro peer' hpeer' hactive
    obtain ⟨peer, hpeer, rfl⟩ := Option.map_eq_some_iff.mp hpeer'
    obtain ⟨hstored, -⟩ := Option.filter_eq_some_iff.mp hpeer
    by_cases hexpired : peer.isExpired activeCutoff
    · rw [Peer.expire, if_pos hexpired] at hactive
      cases hactive
    · rw [Peer.expire, if_neg hexpired] at hactive ⊢
      exact h.keeps peer hstored hactive
  · intro peer hpeer hactive
    rcases h.origin peer hpeer hactive with ⟨peer', hstored, hactive', rfl⟩ | hreaped'
    · by_cases hexpired : peer'.isExpired activeCutoff
      · simp only [Peer.isExpired, Bool.and_eq_true, decide_eq_true_eq] at hexpired
        exact Or.inr (hreaped peer'.updatedAt hexpired.1)
      · refine Or.inl ⟨peer', ?_, hactive', rfl⟩
        have hkept : (decide (inactiveCutoff ≤ peer'.updatedAt) || peer'.isActive) = true := by
          rw [hactive', Bool.or_true]
        refine Option.map_eq_some_iff.mpr ⟨peer', Option.filter_eq_some_iff.mpr ⟨hstored, hkept⟩, ?_⟩
        rw [Peer.expire, if_neg hexpired]
    · exact Or.inr hreaped'

lemma reap_eq_some {config : Config F} {activeNow inactiveNow : DateTime} {state state' : AppState F} :
    reap config activeNow inactiveNow state = some state' ↔
      ∃ activeCutoff inactiveCutoff, cutoff activeNow config.activePeerTtl = some activeCutoff ∧
        cutoff inactiveNow config.inactivePeerTtl = some inactiveCutoff ∧
        reapTorrents config activeCutoff inactiveCutoff state = state' := by
  simp only [reap, Option.bind_eq_bind, Option.bind_eq_some_iff, Option.pure_def, Option.some_inj]
  constructor
  · rintro ⟨activeCutoff, hactive, inactiveCutoff, hinactive, h⟩
    exact ⟨activeCutoff, inactiveCutoff, hactive, hinactive, h⟩
  · rintro ⟨activeCutoff, inactiveCutoff, hactive, hinactive, h⟩
    exact ⟨activeCutoff, hactive, inactiveCutoff, hinactive, h⟩

section Runs

variable [RateField F]

/-- The time before which a reap calls a peer inactive. -/
def TrackerEvent.activeCutoff? : TrackerEvent F → Option DateTime
  | .reap config activeNow _ => cutoff activeNow config.activePeerTtl
  | _ => none

namespace Tracker

/-- The updates of a peer that an event puts into the queue. -/
def peerUpdates (key : PeerUpdate.Index) (tracker : Tracker F) (event : TrackerEvent F) :
    List PeerUpdate :=
  valuesOf key ((tracker.peerEvents event).filterMap PipelineEvent.record?)

/-- An event keeps the latest update of a peer, or its row before there was any, telling of it. -/
lemma restores_step {tracker : Tracker F} {event : TrackerEvent F} {key : PeerUpdate.Index}
    (hreaped : ∀ activeCutoff ∈ event.activeCutoff?, ∀ t < activeCutoff, isReaped t)
    (h : Restores isReaped restored (tracker.state.stores.torrents.peer? key)) :
    Restores isReaped
      ((tracker.peerUpdates key event).foldl (fun _ update => update.content.toPeer) restored)
      ((tracker.step event).state.stores.torrents.peer? key) := by
  cases event with
  | announce config env request =>
    simp only [peerUpdates, peerEvents, step]
    cases hr : ((announce config env request).run tracker.state).2 with
    | error e =>
      rw [(stores_of_rejected hr).2]
      exact h
    | ok a =>
      obtain ⟨torrent, torrent', ha⟩ := announce_ok hr
      rw [ha.torrents_eq]
      by_cases hkey : (⟨a.userId, a.torrentId, request.queries.peerId⟩ : PeerUpdate.Index) = key
      · subst hkey
        simpa [valuesOf, PipelineEvent.record?] using restores_peerUpdate ha.torrents
      · rw [ha.torrents.peer?_of_ne (Ne.symm hkey)]
        simpa [valuesOf, PipelineEvent.record?, hkey] using h
  | reap config activeNow inactiveNow =>
    simp only [peerUpdates, peerEvents, step]
    cases hr : reap config activeNow inactiveNow tracker.state with
    | none => exact h
    | some state' =>
      obtain ⟨activeCutoff, inactiveCutoff, hactive, -, rfl⟩ := reap_eq_some.mp hr
      rw [Option.getD_some, peer?_reapTorrents]
      exact h.reap (hreaped activeCutoff hactive)
  | flushHistories event => exact h
  | flushPeers event => exact h
  | flushTorrents event => exact h
  | flushUsers event => exact h

@[simp] lemma peerUpdates_reap (key : PeerUpdate.Index) (tracker : Tracker F) (config : Config F)
    (activeNow inactiveNow : DateTime) :
    tracker.peerUpdates key (.reap config activeNow inactiveNow) = [] := rfl

@[simp] lemma peerUpdates_flushPeers (key : PeerUpdate.Index) (tracker : Tracker F)
    (event : FlushEvent F) : tracker.peerUpdates key (.flushPeers event) = [] := rfl

/-- An event puts one update of a peer into the queue at most. -/
lemma pairwise_peerUpdates (R : PeerUpdate → PeerUpdate → Prop) (key : PeerUpdate.Index)
    (tracker : Tracker F) (event : TrackerEvent F) : (tracker.peerUpdates key event).Pairwise R := by
  cases event with
  | announce config env request =>
    simp only [peerUpdates, peerEvents]
    cases ((announce config env request).run tracker.state).2 with
    | error e => exact List.Pairwise.nil
    | ok a =>
      simp only [List.filterMap_cons, PipelineEvent.record?, List.filterMap_nil, valuesOf]
      split_ifs
      · exact List.pairwise_singleton _ _
      · exact List.Pairwise.nil
  | reap config activeNow inactiveNow => exact List.Pairwise.nil
  | flushHistories event => exact List.Pairwise.nil
  | flushPeers event => exact List.Pairwise.nil
  | flushTorrents event => exact List.Pairwise.nil
  | flushUsers event => exact List.Pairwise.nil

/-- All updates of a peer in a run. -/
lemma valuesOf_log_peerEvents (key : PeerUpdate.Index) (tracker : Tracker F)
    (events : List (TrackerEvent F)) :
    valuesOf key ((log step peerEvents tracker events).filterMap PipelineEvent.record?) =
      log step (peerUpdates key) tracker events := by
  induction events generalizing tracker with
  | nil => rfl
  | cons event events ih =>
    rw [log, log, List.filterMap_append, valuesOf_append, ih]
    rfl

lemma mem_peerUpdates {key : PeerUpdate.Index} {tracker : Tracker F} {event : TrackerEvent F}
    {update : PeerUpdate} :
    update ∈ tracker.peerUpdates key event ↔ .upsert key update ∈ tracker.peerEvents event := by
  simp [peerUpdates, mem_valuesOf, List.mem_filterMap, PipelineEvent.record?_eq_some]

/-- The updates of a run are new. -/
lemma createdAt_of_mem_log {key : PeerUpdate.Index} {tracker : Tracker F}
    {events : List (TrackerEvent F)} {update : PeerUpdate}
    (h : update ∈ log step (peerUpdates key) tracker events) : update.createdAt = update.updatedAt := by
  obtain ⟨tracker', event, hmem⟩ := exists_of_mem_log h
  exact tracker'.createdAt_of_mem_peerEvents (mem_peerUpdates.mp hmem)

/-- Only announces queue updates of peers. -/
lemma exists_announce_of_mem_log {key : PeerUpdate.Index} {tracker : Tracker F}
    {events : List (TrackerEvent F)} {update : PeerUpdate}
    (h : update ∈ log step (peerUpdates key) tracker events) :
    ∃ (a : Accepted F) (env : Env F) (request : AnnounceRequest), update = a.peerUpdate env request := by
  obtain ⟨tracker', event, hmem⟩ := exists_of_mem_log h
  rw [mem_peerUpdates] at hmem
  cases event with
  | announce config env request =>
    simp only [peerEvents] at hmem
    cases hr : ((announce config env request).run tracker'.state).2 with
    | error e => simp [hr] at hmem
    | ok a =>
      simp only [hr, List.mem_singleton, PipelineEvent.upsert.injEq] at hmem
      exact ⟨a, env, request, hmem.2⟩
  | reap config activeNow inactiveNow => cases hmem
  | flushHistories event => cases hmem
  | flushPeers event => simp [peerEvents] at hmem
  | flushTorrents event => cases hmem
  | flushUsers event => cases hmem

/-- Flushes of the peers do not overlap. -/
def FlushesInTurn (tracker : Tracker F) (event : TrackerEvent F) : Prop :=
  ∀ config, event = .flushPeers (.takeBatches config) → tracker.peers.running = []

lemma FlushesInTurn.along {tracker : Tracker F} {event : TrackerEvent F}
    (h : tracker.FlushesInTurn event) :
    Along Pipeline.step Pipeline.InTurn tracker.peerPipeline (tracker.peerEvents event) := by
  cases event with
  | announce config env request =>
    simp only [peerEvents]
    cases ((announce config env request).run tracker.state).2 with
    | error e => trivial
    | ok a => exact ⟨trivial, trivial⟩
  | flushPeers event =>
    cases event with
    | takeBatches config => exact ⟨h config rfl, trivial⟩
    | finish config index succeeded => exact ⟨trivial, trivial⟩
  | reap config activeNow inactiveNow => trivial
  | flushHistories event => trivial
  | flushTorrents event => trivial
  | flushUsers event => trivial

variable {tracker : Tracker F} {events : List (TrackerEvent F)} {key : PeerUpdate.Index}

lemma createdAt_pairwise (hsorted : (log step (peerUpdates key) tracker events).Pairwise
      fun update update' => update.updatedAt < update'.updatedAt) :
    (log step (peerUpdates key) tracker events).Pairwise
      fun update update' => update.createdAt ≤ update'.createdAt := by
  refine hsorted.imp_of_mem fun {update update'} hmem hmem' hlt => ?_
  rw [createdAt_of_mem_log hmem, createdAt_of_mem_log hmem']
  exact hlt.le

/-- Where nothing of a peer waits and nothing is being written, its row holds its updates. -/
lemma followsUpdates_run (hqueue : tracker.state.queues.peers.records = .empty)
    (hrunning : tracker.peers.running = []) (hturn : Along step FlushesInTurn tracker events)
    (hsorted : (log step (peerUpdates key) tracker events).Pairwise
      fun update update' => update.updatedAt < update'.updatedAt) :
    FollowsUpdates (tracker.peers.table.get? key) (log step (peerUpdates key) tracker events)
      ((run step tracker events).peerPipeline.channel.cell key) := by
  have hstart : FollowsUpdates (tracker.peers.table.get? key) []
      (tracker.peerPipeline.channel.cell key) := by
    refine ⟨fun _ => ?_, by simp, fun r hr => ⟨r, hr, rfl⟩, by simp, by simp⟩
    simp only [Channel.cell, Pipeline.channel, peerPipeline, hqueue, hrunning, List.filterMap_nil,
      Multiset.coe_nil, IndexMap.get?_empty]
  have hcreated := createdAt_pairwise hsorted
  have hturns := along_simulates step_peerPipeline (hturn.mono fun _ _ h => h.along)
  have hview : (run step tracker events).peerPipeline =
      run Pipeline.step tracker.peerPipeline (log step peerEvents tracker events) :=
    run_simulates step_peerPipeline tracker events
  rw [hview]
  rw [← valuesOf_log_peerEvents] at hsorted hcreated ⊢
  exact Pipeline.followsUpdates_run hturns hsorted hcreated hstart

omit [RateField F] in
lemma queued_eq_none {tracker : Tracker F} (h : tracker.state.queues.peers.records = .empty) :
    (tracker.peerPipeline.channel.cell key).queued = none := by
  simp only [Channel.cell, Pipeline.channel, peerPipeline, h, IndexMap.get?_empty]

omit [RateField F] in
lemma inflight_eq_zero {tracker : Tracker F} (h : tracker.peers.running = []) :
    (tracker.peerPipeline.channel.cell key).inflight = 0 := by
  simp only [Channel.cell, Pipeline.channel, peerPipeline, h, List.filterMap_nil, Multiset.coe_nil]

/-- Once nothing waits or is written, the row holds the latest update, or is as it was without any. -/
lemma row_run (h : FollowsUpdates (tracker.peers.table.get? key)
      (log step (peerUpdates key) tracker events)
      ((run step tracker events).peerPipeline.channel.cell key))
    (hqueue : (run step tracker events).state.queues.peers.records = .empty)
    (hrunning : (run step tracker events).peers.running = []) :
    match (log step (peerUpdates key) tracker events).getLast? with
    | none => (run step tracker events).peers.table.get? key = tracker.peers.table.get? key
    | some last => ∃ row, (run step tracker events).peers.table.get? key = some row ∧
        row.content = last.content := by
  cases hlast : (log step (peerUpdates key) tracker events).getLast? with
  | none => exact congrArg Cell.row (h.idle (List.getLast?_eq_none_iff.mp hlast))
  | some last => exact (h.latest last hlast).row (queued_eq_none hqueue) (inflight_eq_zero hrunning)

/-- What the row of a peer holds after its announces, once nothing waits or is written. -/
theorem peer_row_follows_announces (hqueue : tracker.state.queues.peers.records = .empty)
    (hrunning : tracker.peers.running = []) (hturn : Along step FlushesInTurn tracker events)
    (hsorted : (log step (peerUpdates key) tracker events).Pairwise
      fun update update' => update.updatedAt < update'.updatedAt)
    (hqueue' : (run step tracker events).state.queues.peers.records = .empty)
    (hrunning' : (run step tracker events).peers.running = []) {update : PeerUpdate}
    (hlast : (log step (peerUpdates key) tracker events).getLast? = some update) :
    ∃ createdAt, (run step tracker events).peers.table.get? key = some (update.row createdAt) ∧
      match tracker.peers.table.get? key with
      | some row => createdAt = row.createdAt
      | none => ∃ first ∈ log step (peerUpdates key) tracker events,
          createdAt = some first.createdAt ∧
            ∀ update' ∈ log step (peerUpdates key) tracker events, first.createdAt ≤ update'.createdAt :=
  (followsUpdates_run hqueue hrunning hturn hsorted).row_eq (createdAt_pairwise hsorted)
    (queued_eq_none hqueue') (inflight_eq_zero hrunning') hlast

/-- The latest of some updates, read back. -/
lemma foldl_toPeer (updates : List PeerUpdate) (restored : Option Peer) :
    updates.foldl (fun _ update => update.content.toPeer) restored =
      updates.getLast?.elim restored fun update => update.content.toPeer := by
  rcases List.eq_nil_or_concat updates with rfl | ⟨init, last, rfl⟩
  · rfl
  · simp

/-- What is read back at the end of a run tells of the peer in memory. -/
lemma restores_run (hqueue : tracker.state.queues.peers.records = .empty)
    (hrunning : tracker.peers.running = []) (hturn : Along step FlushesInTurn tracker events)
    (hsorted : (log step (peerUpdates key) tracker events).Pairwise
      fun update update' => update.updatedAt < update'.updatedAt)
    (hreaped : ∀ event ∈ events, ∀ activeCutoff ∈ event.activeCutoff?, ∀ t < activeCutoff, isReaped t)
    (h : Restores isReaped ((tracker.peers.table.get? key).bind PeerRow.toPeer)
      (tracker.state.stores.torrents.peer? key))
    (hqueue' : (run step tracker events).state.queues.peers.records = .empty)
    (hrunning' : (run step tracker events).peers.running = []) :
    Restores isReaped (((run step tracker events).peers.table.get? key).bind PeerRow.toPeer)
      ((run step tracker events).state.stores.torrents.peer? key) := by
  have hrow := row_run (followsUpdates_run hqueue hrunning hturn hsorted) hqueue' hrunning'
  have hread : ((run step tracker events).peers.table.get? key).bind PeerRow.toPeer =
      (log step (peerUpdates key) tracker events).foldl (fun _ update => update.content.toPeer)
        ((tracker.peers.table.get? key).bind PeerRow.toPeer) := by
    rw [foldl_toPeer]
    cases hlast : (log step (peerUpdates key) tracker events).getLast? with
    | none =>
      rw [hlast] at hrow
      rw [hrow]
      rfl
    | some last =>
      rw [hlast] at hrow
      obtain ⟨row, hget, hcontent⟩ := hrow
      rw [hget, Option.bind_some, Option.elim_some, ← hcontent]
      rfl
  rw [hread]
  exact Along.invariant_log
    (P := fun restored (tracker : Tracker F) =>
      Restores isReaped restored (tracker.state.stores.torrents.peer? key))
    (fun restored tracker event hevent h => restores_step hevent h)
    (Along.of_forall_mem (fun event hmem _ => hreaped event hmem) tracker) h

end Tracker

end Runs

end Unit3dAnnounce
