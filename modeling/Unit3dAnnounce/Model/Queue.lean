import Unit3dAnnounce.Model.Store

/-!
# Queues of database updates

Updates wait in a queue per table, merged by key, until a flush takes them in batches.
-/

namespace Unit3dAnnounce

class Mergeable (V : Type) where
  /-- Merges an existing record with a new record. -/
  merge : V → V → V

structure HistoryUpdate.Index where
  userId : UInt32
  torrentId : UInt32
deriving DecidableEq, Ord

structure HistoryUpdate where
  userAgent : Text
  isActive : Bool
  isSeeder : Bool
  isImmune : Bool
  uploaded : UInt64
  downloaded : UInt64
  uploadedDelta : UInt64
  downloadedDelta : UInt64
  creditedUploadedDelta : UInt64
  creditedDownloadedDelta : UInt64
  completedAt : Option DateTime
  createdAt : DateTime
  updatedAt : DateTime
deriving DecidableEq

instance : Mergeable HistoryUpdate where
  merge self new :=
    { self with
      userAgent := new.userAgent
      isActive := new.isActive
      isSeeder := new.isSeeder
      uploaded := new.uploaded
      downloaded := new.downloaded
      uploadedDelta := self.uploadedDelta + new.uploadedDelta
      downloadedDelta := self.downloadedDelta + new.downloadedDelta
      creditedUploadedDelta := self.creditedUploadedDelta + new.creditedUploadedDelta
      creditedDownloadedDelta := self.creditedDownloadedDelta + new.creditedDownloadedDelta
      completedAt := new.completedAt
      createdAt := min self.createdAt new.createdAt
      updatedAt := max self.updatedAt new.updatedAt }

structure PeerUpdate.Index where
  userId : UInt32
  torrentId : UInt32
  peerId : PeerId
deriving DecidableEq, Ord

structure PeerUpdate where
  ip : IpAddr
  port : UInt16
  agent : Text
  uploaded : UInt64
  downloaded : UInt64
  isActive : Bool
  isSeeder : Bool
  isVisible : Bool
  left : UInt64
  createdAt : DateTime
  updatedAt : DateTime
  connectable : Bool
deriving DecidableEq

instance : Mergeable PeerUpdate where
  merge self new :=
    let self' := if self.updatedAt < new.updatedAt then { new with createdAt := self.createdAt } else self
    { self' with createdAt := min self.createdAt new.createdAt }

structure TorrentUpdate.Index where
  torrentId : UInt32
deriving DecidableEq, Ord

structure TorrentUpdate where
  seederDelta : ℤ
  leecherDelta : ℤ
  timesCompletedDelta : UInt32
  balanceDelta : ℤ
deriving DecidableEq

instance : Mergeable TorrentUpdate where
  merge self new :=
    { seederDelta := saturatingAddI32 self.seederDelta new.seederDelta
      leecherDelta := saturatingAddI32 self.leecherDelta new.leecherDelta
      timesCompletedDelta := saturatingAddU32 self.timesCompletedDelta new.timesCompletedDelta
      balanceDelta := saturatingAddI64 self.balanceDelta new.balanceDelta }

structure UnregisteredInfoHashUpdate.Index where
  infoHash : InfoHash
  userId : UInt32
deriving DecidableEq, Ord

structure UnregisteredInfoHashUpdate where
  createdAt : DateTime
  updatedAt : DateTime
deriving DecidableEq

instance : Mergeable UnregisteredInfoHashUpdate where
  merge self new :=
    { createdAt := min self.createdAt new.createdAt
      updatedAt := if self.updatedAt < new.updatedAt then new.updatedAt else self.updatedAt }

structure UserUpdate.Index where
  userId : UInt32
deriving DecidableEq, Ord

structure UserUpdate where
  uploadedDelta : UInt64
  downloadedDelta : UInt64
deriving DecidableEq

instance : Mergeable UserUpdate where
  merge self new :=
    { uploadedDelta := saturatingAddU64 self.uploadedDelta new.uploadedDelta
      downloadedDelta := saturatingAddU64 self.downloadedDelta new.downloadedDelta }

structure AnnounceUpdate where
  userId : UInt32
  torrentId : UInt32
  uploaded : UInt64
  downloaded : UInt64
  left : UInt64
  corrupt : Option UInt64
  peerId : PeerId
  port : UInt16
  numwant : UInt16
  createdAt : DateTime
  event : AnnounceEvent
  key : Option Text

structure QueueConfig where
  maxBindingsPerFlush : UInt64
  bindingsPerRecord : UInt64
  extraBindingsPerFlush : UInt64

def QueueConfig.maxBatchSize {F : Type} (config : Config F) (queue : QueueConfig) : UInt64 :=
  let maxBindings := (queue.maxBindingsPerFlush - queue.extraBindingsPerFlush) / queue.bindingsPerRecord
  match config.maxRecordsPerBatch with
  | some maxRecords => min maxBindings maxRecords
  | none => maxBindings

structure Queue (K V : Type) where
  records : IndexMap K V
  config : QueueConfig

/-- The records of a batch. They were drained from a map, so their keys are distinct. -/
abbrev Batch (K V : Type) := IndexMap K V

namespace Queue

variable {F K V : Type} [DecidableEq K]

def new (config : QueueConfig) : Queue K V := ⟨IndexMap.empty, config⟩

/-- Upserts a single update into the queue. -/
def upsert [Mergeable V] (queue : Queue K V) (key : K) (value : V) : Queue K V :=
  { queue with
    records := queue.records.upsert key (fun update => Mergeable.merge update value) value }

/-- Splits the records from the end, `size` at a time. Every round with a positive size
shortens the records, so their number bounds the rounds. -/
def splitBatches (size : ℕ) : ℕ → IndexMap K V → List (Batch K V) → List (Batch K V)
  | 0, _, batches => batches
  | rounds + 1, records, batches =>
    if records.size = 0 then batches
    else
      let pos := records.size - min records.size size
      splitBatches size rounds (records.take pos) (records.drop pos :: batches)

/-- Takes a portion of the updates from the start of the queue with a max size defined by
the buffer config. -/
def takeBatches [Ord K] (config : Config F) (queue : Queue K V) : List (Batch K V) × Queue K V :=
  let maxBatches := config.maxBatchesPerFlush
  let maxBatchSize := queue.config.maxBatchSize config
  let drained := min queue.records.size (maxBatches * maxBatchSize).toNat
  let records := (queue.records.take drained).sortByKey
  (splitBatches maxBatchSize.toNat records.size records [],
    { queue with records := queue.records.drop drained })

/-- Bulk upserts a batch into the end of the queue. -/
def upsertBatch [Mergeable V] (queue : Queue K V) (batch : Batch K V) : Queue K V :=
  batch.entries.foldl (fun queue record => queue.upsert record.1 record.2) queue

def isNotEmpty (queue : Queue K V) : Bool := decide (queue.records.size ≠ 0)

/-- A flush that nothing else happens in. The database decides which batches are written. -/
def flush [Ord K] [Mergeable V] (config : Config F) (isWritten : Batch K V → Bool)
    (queue : Queue K V) : Queue K V :=
  let (batches, queue) := queue.takeBatches config
  batches.foldl (fun queue batch => if isWritten batch then queue else queue.upsertBatch batch) queue

end Queue

namespace AnnounceQueue

/-- The max amount of announce records that can be inserted at once, with 12 columns each. -/
def announceLimit : ℕ := 65535 / 12

/-- Takes a portion of the announce updates small enough to be inserted into the database. -/
def takeBatch (queue : List AnnounceUpdate) : List AnnounceUpdate × List AnnounceUpdate :=
  let drained := min announceLimit queue.length
  (queue.take drained, queue.drop drained)

def upsertBatch (queue batch : List AnnounceUpdate) : List AnnounceUpdate := queue ++ batch

end AnnounceQueue

structure Queues where
  announces : List AnnounceUpdate
  histories : Queue HistoryUpdate.Index HistoryUpdate
  peers : Queue PeerUpdate.Index PeerUpdate
  torrents : Queue TorrentUpdate.Index TorrentUpdate
  unregisteredInfoHashes : Queue UnregisteredInfoHashUpdate.Index UnregisteredInfoHashUpdate
  users : Queue UserUpdate.Index UserUpdate

/-- Initializes new queues. One extra binding of a history flush is used to insert the TTL. -/
def Queues.new : Queues where
  announces := []
  histories := .new ⟨65535, 16, 1⟩
  peers := .new ⟨65535, 15, 0⟩
  torrents := .new ⟨65535, 15, 0⟩
  unregisteredInfoHashes := .new ⟨65535, 4, 0⟩
  users := .new ⟨65535, 9, 0⟩

structure AppState (F : Type) where
  queues : Queues
  stores : Stores F

end Unit3dAnnounce
