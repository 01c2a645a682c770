import Unit3dAnnounce.Machine.Run
import Unit3dAnnounce.Model.Announce
import Unit3dAnnounce.Model.Flush
import Unit3dAnnounce.Model.Scheduler

/-!
# The tracker and its database

Announces and reaps, each of them in one step, and between them the steps of the flushes. Every
event has the configuration that is in force when it happens.
-/

namespace Unit3dAnnounce

open Machine

structure Tracker (F : Type) where
  state : AppState F
  histories : Writes HistoryUpdate.Index HistoryUpdate HistoryRow
  peers : Writes PeerUpdate.Index PeerUpdate PeerRow
  torrents : Writes TorrentUpdate.Index TorrentUpdate TorrentTotals
  users : Writes UserUpdate.Index UserUpdate UserTotals

inductive TrackerEvent (F : Type) where
  | announce (config : Config F) (env : Env F) (request : AnnounceRequest)
  | reap (config : Config F) (activeNow inactiveNow : DateTime)
  | flushHistories (event : FlushEvent F)
  | flushPeers (event : FlushEvent F)
  | flushTorrents (event : FlushEvent F)
  | flushUsers (event : FlushEvent F)

namespace Tracker

variable {F : Type}

def historyPipeline (tracker : Tracker F) : Pipeline HistoryUpdate.Index HistoryUpdate HistoryRow :=
  ⟨tracker.state.queues.histories, tracker.histories⟩

def peerPipeline (tracker : Tracker F) : Pipeline PeerUpdate.Index PeerUpdate PeerRow :=
  ⟨tracker.state.queues.peers, tracker.peers⟩

def torrentPipeline (tracker : Tracker F) : Pipeline TorrentUpdate.Index TorrentUpdate TorrentTotals :=
  ⟨tracker.state.queues.torrents, tracker.torrents⟩

def userPipeline (tracker : Tracker F) : Pipeline UserUpdate.Index UserUpdate UserTotals :=
  ⟨tracker.state.queues.users, tracker.users⟩

def step [RateField F] (tracker : Tracker F) : TrackerEvent F → Tracker F
  | .announce config env request =>
    { tracker with state := ((announce config env request).run tracker.state).1 }
  | .reap config activeNow inactiveNow =>
    { tracker with state := (reap config activeNow inactiveNow tracker.state).getD tracker.state }
  | .flushHistories event =>
    let pipeline := tracker.historyPipeline.flush event
    { tracker with state.queues.histories := pipeline.queue, histories := pipeline.writes }
  | .flushPeers event =>
    let pipeline := tracker.peerPipeline.flush event
    { tracker with state.queues.peers := pipeline.queue, peers := pipeline.writes }
  | .flushTorrents event =>
    let pipeline := tracker.torrentPipeline.flush event
    { tracker with state.queues.torrents := pipeline.queue, torrents := pipeline.writes }
  | .flushUsers event =>
    let pipeline := tracker.userPipeline.flush event
    { tracker with state.queues.users := pipeline.queue, users := pipeline.writes }

/-- Nothing is waiting and no statement is running. -/
structure Idle (tracker : Tracker F) : Prop where
  histories : tracker.state.queues.histories.records = .empty ∧ tracker.histories.running = []
  peers : tracker.state.queues.peers.records = .empty ∧ tracker.peers.running = []
  torrents : tracker.state.queues.torrents.records = .empty ∧ tracker.torrents.running = []
  users : tracker.state.queues.users.records = .empty ∧ tracker.users.running = []

end Tracker

end Unit3dAnnounce
