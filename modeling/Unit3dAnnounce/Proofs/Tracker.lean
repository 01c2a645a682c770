import Unit3dAnnounce.Model.Tracker
import Unit3dAnnounce.Proofs.Lists
import Unit3dAnnounce.Proofs.Pipeline

/-!
# What the events do to the queues

Seen from one table, the tracker is a pipeline: an accepted announce and a reap upsert records, the
flushes of the table are its own, and nothing else touches it.
-/

namespace Unit3dAnnounce

open Machine

variable {F : Type} [RateField F]

namespace Tracker

variable (tracker : Tracker F)

/-- The delta of an announce for the history of its user and torrent. -/
def historyDeltas : TrackerEvent F → List (HistoryUpdate.Index × HistoryUpdate)
  | .announce config env request =>
    match ((announce config env request).run tracker.state).2 with
    | .ok a => [(⟨a.userId, a.torrentId⟩, a.historyUpdate config env request)]
    | .error _ => []
  | _ => []

def userDeltas : TrackerEvent F → List (UserUpdate.Index × UserUpdate)
  | .announce config env request =>
    match ((announce config env request).run tracker.state).2 with
    | .ok a => [(⟨a.userId⟩, a.userUpdate)]
    | .error _ => []
  | _ => []

/-- The delta of an announce for its torrent, and those of a reap for every torrent. -/
def torrentDeltas : TrackerEvent F → List (TorrentUpdate.Index × TorrentUpdate)
  | .announce config env request =>
    match ((announce config env request).run tracker.state).2 with
    | .ok a => [(⟨a.torrentId⟩, a.torrentUpdate)]
    | .error _ => []
  | .reap config activeNow inactiveNow =>
    match cutoff activeNow config.activePeerTtl, cutoff inactiveNow config.inactivePeerTtl with
    | some activeCutoff, some inactiveCutoff =>
      tracker.state.stores.torrents.entries.map fun entry =>
        let deltas := (entry.2.reap config activeCutoff inactiveCutoff).2
        (⟨entry.2.id⟩, ⟨deltas.seederDelta, deltas.leecherDelta, 0, 0⟩)
    | _, _ => []
  | _ => []

def historyEvents : TrackerEvent F → List (PipelineEvent F HistoryUpdate.Index HistoryUpdate)
  | .flushHistories event => [.flush event]
  | event => (tracker.historyDeltas event).map fun record => .upsert record.1 record.2

def peerEvents : TrackerEvent F → List (PipelineEvent F PeerUpdate.Index PeerUpdate)
  | .flushPeers event => [.flush event]
  | .announce config env request =>
    match ((announce config env request).run tracker.state).2 with
    | .ok a => [.upsert ⟨a.userId, a.torrentId, request.queries.peerId⟩ (a.peerUpdate env request)]
    | .error _ => []
  | _ => []

variable {tracker}

lemma queues_of_rejected {config : Config F} {env : Env F} {request : AnnounceRequest}
    {state : AppState F} {e : AnnounceError}
    (h : ((announce config env request).run state).2 = .error e) :
    ((announce config env request).run state).1.queues.histories = state.queues.histories ∧
      ((announce config env request).run state).1.queues.peers = state.queues.peers ∧
      ((announce config env request).run state).1.queues.users = state.queues.users ∧
      ((announce config env request).run state).1.queues.torrents = state.queues.torrents := by
  rcases (announce_error h).queues with hq | ⟨-, -, queue, hq⟩
  · rw [hq]
    exact ⟨rfl, rfl, rfl, rfl⟩
  · rw [hq]
    exact ⟨rfl, rfl, rfl, rfl⟩

variable (tracker)

theorem step_historyPipeline (event : TrackerEvent F) : (tracker.step event).historyPipeline =
    run Pipeline.step tracker.historyPipeline (tracker.historyEvents event) := by
  cases event with
  | announce config env request =>
    simp only [step, historyPipeline, historyEvents, historyDeltas]
    cases hr : ((announce config env request).run tracker.state).2 with
    | error e =>
      rw [(queues_of_rejected hr).1]
      rfl
    | ok a =>
      obtain ⟨torrent, torrent', h⟩ := announce_ok hr
      obtain ⟨ports, hstate⟩ := h.state
      rw [hstate]
      rfl
  | reap config activeNow inactiveNow =>
    simp only [step, historyPipeline]
    cases hr : reap config activeNow inactiveNow tracker.state with
    | none => rfl
    | some state =>
      obtain ⟨activeCutoff, inactiveCutoff, rfl⟩ := reap_some hr
      rfl
  | flushHistories event => rfl
  | flushPeers event => rfl
  | flushTorrents event => rfl
  | flushUsers event => rfl

theorem step_peerPipeline (event : TrackerEvent F) : (tracker.step event).peerPipeline =
    run Pipeline.step tracker.peerPipeline (tracker.peerEvents event) := by
  cases event with
  | announce config env request =>
    simp only [step, peerPipeline, peerEvents]
    cases hr : ((announce config env request).run tracker.state).2 with
    | error e =>
      rw [(queues_of_rejected hr).2.1]
      rfl
    | ok a =>
      obtain ⟨torrent, torrent', h⟩ := announce_ok hr
      obtain ⟨ports, hstate⟩ := h.state
      rw [hstate]
      rfl
  | reap config activeNow inactiveNow =>
    simp only [step, peerPipeline]
    cases hr : reap config activeNow inactiveNow tracker.state with
    | none => rfl
    | some state =>
      obtain ⟨activeCutoff, inactiveCutoff, rfl⟩ := reap_some hr
      rfl
  | flushHistories event => rfl
  | flushPeers event => rfl
  | flushTorrents event => rfl
  | flushUsers event => rfl

/-- The updates that announces enqueue for peers are new. -/
lemma createdAt_of_mem_peerEvents {event : TrackerEvent F} {key : PeerUpdate.Index}
    {update : PeerUpdate} (h : .upsert key update ∈ tracker.peerEvents event) :
    update.createdAt = update.updatedAt := by
  cases event with
  | announce config env request =>
    simp only [peerEvents] at h
    cases hr : ((announce config env request).run tracker.state).2 with
    | error e => simp [hr] at h
    | ok a =>
      simp only [hr, List.mem_singleton, PipelineEvent.upsert.injEq] at h
      rw [h.2]
      rfl
  | flushPeers event => simp [peerEvents] at h
  | reap config activeNow inactiveNow => simp [peerEvents] at h
  | flushHistories event => simp [peerEvents] at h
  | flushTorrents event => simp [peerEvents] at h
  | flushUsers event => simp [peerEvents] at h

end Tracker

end Unit3dAnnounce
