import Unit3dAnnounce.Model.Service
import Unit3dAnnounce.Model.Flush
import Unit3dAnnounce.Model.Statement

/-!
# The queues and the tables behind them

Sections append records to six queues, each of which is flushed to a table of its own. A flush takes what
fits into its statements, and puts back what cannot be written, while everything else goes on.
-/

namespace Unit3dAnnounce

open Machine

instance : ToString AnnounceEvent where
  toString
    | .completed => "completed"
    | .empty => ""
    | .started => "started"
    | .stopped => "stopped"

structure AnnounceRow where
  userId : UInt32
  torrentId : UInt32
  uploaded : UInt64
  downloaded : UInt64
  left : UInt64
  corrupt : UInt64
  peerId : PeerId
  port : UInt16
  numwant : UInt16
  createdAt : DateTime
  event : Text
  key : Text
deriving DecidableEq

/-- The values that are inserted for an announce, which has no `ON DUPLICATE KEY UPDATE`. -/
def AnnounceUpdate.row (update : AnnounceUpdate) : AnnounceRow where
  userId := update.userId
  torrentId := update.torrentId
  uploaded := update.uploaded
  downloaded := update.downloaded
  left := update.left
  corrupt := update.corrupt.getD 0
  peerId := update.peerId
  port := update.port
  numwant := update.numwant
  createdAt := update.createdAt
  event := ascii (toString update.event)
  key := update.key.getD (ascii "")

/-- What `push_values` binds for an announce. -/
def AnnounceUpdate.pushValues (update : AnnounceUpdate) : List Binding :=
  [.u32 update.userId, .u32 update.torrentId, .u64 update.uploaded, .u64 update.downloaded,
    .u64 update.left, .u64 (update.corrupt.getD 0), .bytes update.peerId.bytes.toList, .u16 update.port,
    .u16 update.numwant, .dateTime (some update.createdAt), .bytes (ascii (toString update.event)),
    .bytes (update.key.getD (ascii ""))]

structure UnregisteredInfoHashRow where
  createdAt : DateTime
  updatedAt : DateTime
deriving DecidableEq

instance : Flushable UnregisteredInfoHashUpdate UnregisteredInfoHashRow where
  values update := ⟨update.createdAt, update.updatedAt⟩
  onDuplicateKeyUpdate _ row update := { row with updatedAt := update.updatedAt }

inductive QueueRecord where
  | announce (update : AnnounceUpdate)
  | history (key : HistoryUpdate.Index) (update : HistoryUpdate)
  | peer (key : PeerUpdate.Index) (update : PeerUpdate)
  | torrent (key : TorrentUpdate.Index) (update : TorrentUpdate)
  | unregisteredInfoHash (key : UnregisteredInfoHashUpdate.Index) (update : UnregisteredInfoHashUpdate)
  | user (key : UserUpdate.Index) (update : UserUpdate)

def Queues.push (queues : Queues) : QueueRecord → Queues
  | .announce update => { queues with announces := queues.announces ++ [update] }
  | .history key update => { queues with histories := queues.histories.upsert key update }
  | .peer key update => { queues with peers := queues.peers.upsert key update }
  | .torrent key update => { queues with torrents := queues.torrents.upsert key update }
  | .unregisteredInfoHash key update =>
    { queues with unregisteredInfoHashes := queues.unregisteredInfoHashes.upsert key update }
  | .user key update => { queues with users := queues.users.upsert key update }

/-- The statements of announces that are still running, by their batches, and the table. -/
structure AnnounceWrites where
  running : List (List AnnounceUpdate)
  table : List AnnounceRow

/-- What a flush of the announces does between two of its awaits. -/
inductive AnnounceFlush where
  | takeBatch
  | finish (index : ℕ) (succeeded : Bool)

structure AnnouncePipeline where
  queue : List AnnounceUpdate
  writes : AnnounceWrites

def AnnouncePipeline.flush (pipeline : AnnouncePipeline) : AnnounceFlush → AnnouncePipeline
  | .takeBatch =>
    let (batch, queue) := AnnounceQueue.takeBatch pipeline.queue
    { queue := queue
      writes := { pipeline.writes with running := pipeline.writes.running ++ [batch] } }
  | .finish index succeeded =>
    match pipeline.writes.running[index]? with
    | none => pipeline
    | some batch =>
      let running := pipeline.writes.running.eraseIdx index
      if succeeded then
        { pipeline with
          writes := { running := running, table := pipeline.writes.table ++ batch.map (·.row) } }
      else
        { queue := AnnounceQueue.upsertBatch pipeline.queue batch
          writes := { pipeline.writes with running := running } }

/-- What is behind the queues. -/
structure OutboxWrites where
  announces : AnnounceWrites
  histories : Writes HistoryUpdate.Index HistoryUpdate HistoryRow
  peers : Writes PeerUpdate.Index PeerUpdate PeerRow
  torrents : Writes TorrentUpdate.Index TorrentUpdate TorrentTotals
  unregisteredInfoHashes :
    Writes UnregisteredInfoHashUpdate.Index UnregisteredInfoHashUpdate UnregisteredInfoHashRow
  users : Writes UserUpdate.Index UserUpdate UserTotals

/-- The queues with what is behind them. -/
structure Outbox where
  queues : Queues
  writes : OutboxWrites

inductive OutboxFlush (F : Type) where
  | announces (event : AnnounceFlush)
  | histories (event : FlushEvent F)
  | peers (event : FlushEvent F)
  | torrents (event : FlushEvent F)
  | unregisteredInfoHashes (event : FlushEvent F)
  | users (event : FlushEvent F)

inductive OutboxEvent (F : Type) where
  | push (record : QueueRecord)
  | flush (flush : OutboxFlush F)

namespace Outbox

variable {F : Type} (outbox : Outbox)

def announces : AnnouncePipeline := ⟨outbox.queues.announces, outbox.writes.announces⟩

def histories : Pipeline HistoryUpdate.Index HistoryUpdate HistoryRow :=
  ⟨outbox.queues.histories, outbox.writes.histories⟩

def peers : Pipeline PeerUpdate.Index PeerUpdate PeerRow := ⟨outbox.queues.peers, outbox.writes.peers⟩

def torrents : Pipeline TorrentUpdate.Index TorrentUpdate TorrentTotals :=
  ⟨outbox.queues.torrents, outbox.writes.torrents⟩

def unregisteredInfoHashes :
    Pipeline UnregisteredInfoHashUpdate.Index UnregisteredInfoHashUpdate UnregisteredInfoHashRow :=
  ⟨outbox.queues.unregisteredInfoHashes, outbox.writes.unregisteredInfoHashes⟩

def users : Pipeline UserUpdate.Index UserUpdate UserTotals := ⟨outbox.queues.users, outbox.writes.users⟩

def flush : OutboxFlush F → Outbox
  | .announces event =>
    let pipeline := outbox.announces.flush event
    ⟨{ outbox.queues with announces := pipeline.queue },
      { outbox.writes with announces := pipeline.writes }⟩
  | .histories event =>
    let pipeline := outbox.histories.flush event
    ⟨{ outbox.queues with histories := pipeline.queue },
      { outbox.writes with histories := pipeline.writes }⟩
  | .peers event =>
    let pipeline := outbox.peers.flush event
    ⟨{ outbox.queues with peers := pipeline.queue }, { outbox.writes with peers := pipeline.writes }⟩
  | .torrents event =>
    let pipeline := outbox.torrents.flush event
    ⟨{ outbox.queues with torrents := pipeline.queue },
      { outbox.writes with torrents := pipeline.writes }⟩
  | .unregisteredInfoHashes event =>
    let pipeline := outbox.unregisteredInfoHashes.flush event
    ⟨{ outbox.queues with unregisteredInfoHashes := pipeline.queue },
      { outbox.writes with unregisteredInfoHashes := pipeline.writes }⟩
  | .users event =>
    let pipeline := outbox.users.flush event
    ⟨{ outbox.queues with users := pipeline.queue }, { outbox.writes with users := pipeline.writes }⟩

def step (outbox : Outbox) : OutboxEvent F → Outbox
  | .push record => { outbox with queues := outbox.queues.push record }
  | .flush flush => outbox.flush flush

end Outbox

section Serving

variable {F ι : Type} [RateField F]

structure LiveService (calls : ι → ServiceCall F) where
  service : Service calls
  writes : OutboxWrites

inductive LiveEvent (F ι : Type) where
  | serve (event : ServiceEvent F ι)
  | flush (flush : OutboxFlush F)

namespace LiveService

variable {calls : ι → ServiceCall F}

def outbox (live : LiveService calls) : Outbox := ⟨live.service.world.state.queues, live.writes⟩

def step [DecidableEq ι] (live : LiveService calls) : LiveEvent F ι → LiveService calls
  | .serve event => { live with service := live.service.step event }
  | .flush flush =>
    let outbox := live.outbox.flush flush
    { service := { live.service with world.state.queues := outbox.queues }
      writes := outbox.writes }

end LiveService

end Serving

end Unit3dAnnounce
