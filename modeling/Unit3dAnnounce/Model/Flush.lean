import Unit3dAnnounce.Model.Startup

/-!
# Flushing

A flush takes batches from a queue and writes each of them with one `INSERT ... ON DUPLICATE KEY
UPDATE` statement. Announces go on while the statements run. A batch whose statement fails is put
back into the queue. Sums in the database are exact: a statement fails rather than let one wrap.
-/

namespace Unit3dAnnounce

/-- Times are kept as the statements bind them. What a column without fractions of a second holds of one
is `storedTime`. -/
structure HistoryRow where
  agent : Text
  uploaded : ℕ
  actualUploaded : ℕ
  clientUploaded : UInt64
  downloaded : ℕ
  actualDownloaded : ℕ
  clientDownloaded : UInt64
  seeder : Bool
  active : Bool
  seedtime : ℤ
  immune : Bool
  createdAt : Option DateTime
  updatedAt : Option DateTime
  completedAt : Option DateTime

/-- The columns of a user that a flush changes. -/
structure UserTotals where
  uploaded : ℕ
  downloaded : ℕ

/-- The columns of a torrent that a flush changes, its time of change apart. -/
structure TorrentTotals where
  seeders : ℤ
  leechers : ℤ
  timesCompleted : ℤ
  balance : ℤ

/-- What a column holds of a time that is rounded to the second `second`. -/
def storedTime (second : DateTime → ℤ) (time : DateTime) : DateTime := seconds (second time)

class Flushable (V : Type) (R : outParam Type) where
  /-- The row that the statement inserts. -/
  values : V → R
  /-- `ON DUPLICATE KEY UPDATE` -/
  onDuplicateKeyUpdate : {F : Type} → Config F → R → V → R

/-- `TIMESTAMPDIFF(second, t, t')`. -/
def timestampDiffSeconds (t t' : DateTime) : ℤ := (t' - t).tdiv (seconds 1)

/-- What an update adds to the seedtime of its row, whose columns still have their old values. -/
def HistoryRow.seedtimeDelta {F : Type} (config : Config F) (row : HistoryRow)
    (update : HistoryUpdate) : ℤ :=
  match row.updatedAt with
  | none => 0
  | some updatedAt =>
    let ttl := config.activePeerTtl + config.peerExpiryInterval
    if update.updatedAt < updatedAt + seconds ttl.toNat && row.seeder && row.active &&
        update.isSeeder then
      timestampDiffSeconds updatedAt update.updatedAt
    else 0

instance : Flushable HistoryUpdate HistoryRow where
  values update :=
    { agent := update.userAgent
      uploaded := update.creditedUploadedDelta.toNat
      actualUploaded := update.uploadedDelta.toNat
      clientUploaded := update.uploaded
      downloaded := update.creditedDownloadedDelta.toNat
      actualDownloaded := update.downloadedDelta.toNat
      clientDownloaded := update.downloaded
      seeder := update.isSeeder
      active := update.isActive
      seedtime := 0
      immune := update.isImmune
      createdAt := some update.createdAt
      updatedAt := some update.updatedAt
      completedAt := update.completedAt }
  onDuplicateKeyUpdate config row update :=
    { row with
      agent := update.userAgent
      uploaded := row.uploaded + update.creditedUploadedDelta.toNat
      actualUploaded := row.actualUploaded + update.uploadedDelta.toNat
      clientUploaded := update.uploaded
      downloaded := row.downloaded + update.creditedDownloadedDelta.toNat
      actualDownloaded := row.actualDownloaded + update.downloadedDelta.toNat
      clientDownloaded := update.downloaded
      seedtime := row.seedtime + row.seedtimeDelta config update
      updatedAt := some update.updatedAt
      seeder := update.isSeeder
      active := update.isActive
      immune := row.immune && update.isImmune
      completedAt := row.completedAt.or update.completedAt }

instance : Flushable UserUpdate UserTotals where
  values update :=
    { uploaded := update.uploadedDelta.toNat
      downloaded := update.downloadedDelta.toNat }
  onDuplicateKeyUpdate _ row update :=
    { uploaded := row.uploaded + update.uploadedDelta.toNat
      downloaded := row.downloaded + update.downloadedDelta.toNat }

instance : Flushable TorrentUpdate TorrentTotals where
  values update :=
    { seeders := update.seederDelta
      leechers := update.leecherDelta
      timesCompleted := update.timesCompletedDelta.toNat
      balance := update.balanceDelta }
  onDuplicateKeyUpdate _ row update :=
    { seeders := row.seeders + update.seederDelta
      leechers := row.leechers + update.leecherDelta
      timesCompleted := row.timesCompleted + update.timesCompletedDelta.toNat
      balance := row.balance + update.balanceDelta }

instance : Flushable PeerUpdate PeerRow where
  values update :=
    { ip := some update.ip
      port := update.port
      agent := update.agent
      uploaded := update.uploaded
      downloaded := update.downloaded
      left := update.left
      active := update.isActive
      seeder := update.isSeeder
      visible := update.isVisible
      createdAt := some update.createdAt
      updatedAt := some update.updatedAt
      connectable := update.connectable }
  onDuplicateKeyUpdate _ row update :=
    { row with
      ip := some update.ip
      port := update.port
      agent := update.agent
      uploaded := update.uploaded
      downloaded := update.downloaded
      left := update.left
      active := update.isActive
      seeder := update.isSeeder
      visible := update.isVisible
      updatedAt := some update.updatedAt
      connectable := update.connectable }

/-- A row after a record was written to it, where `none` is a missing row. -/
def writeRow {F V R : Type} [Flushable V R] (config : Config F) (row : Option R) (value : V) : R :=
  row.elim (Flushable.values value) (fun row => Flushable.onDuplicateKeyUpdate config row value)

def Batch.flushToDb {F K V R : Type} [DecidableEq K] [Flushable V R] (config : Config F)
    (table : IndexMap K R) (batch : Batch K V) : IndexMap K R :=
  table.upsertAll batch (fun _ value row => writeRow config (some row) value)
    (fun _ value => writeRow config none value)

/-- The statements that are still running, by their batches, and the table they write to. -/
structure Writes (K V R : Type) where
  running : List (Batch K V)
  table : IndexMap K R

/-- A queue with what is behind it. -/
structure Pipeline (K V R : Type) where
  queue : Queue K V
  writes : Writes K V R

/-- What a flush does between two of its awaits. `finish` reports the outcome of a running statement,
counted from the oldest one. -/
inductive FlushEvent (F : Type) where
  | takeBatches (config : Config F)
  | finish (config : Config F) (index : ℕ) (succeeded : Bool)

inductive PipelineEvent (F K V : Type) where
  | upsert (key : K) (value : V)
  | flush (event : FlushEvent F)

namespace Pipeline

variable {F K V R : Type} [DecidableEq K] [Ord K] [Mergeable V] [Flushable V R]

def flush (pipeline : Pipeline K V R) : FlushEvent F → Pipeline K V R
  | .takeBatches config =>
    let (batches, queue) := pipeline.queue.takeBatches config
    { queue := queue
      writes := { pipeline.writes with running := pipeline.writes.running ++ batches } }
  | .finish config index succeeded =>
    match pipeline.writes.running[index]? with
    | none => pipeline
    | some batch =>
      let running := pipeline.writes.running.eraseIdx index
      if succeeded then
        { pipeline with
          writes := { running := running, table := batch.flushToDb config pipeline.writes.table } }
      else
        { queue := pipeline.queue.upsertBatch batch
          writes := { pipeline.writes with running := running } }

def step (pipeline : Pipeline K V R) : PipelineEvent F K V → Pipeline K V R
  | .upsert key value => { pipeline with queue := pipeline.queue.upsert key value }
  | .flush event => pipeline.flush event

end Pipeline

end Unit3dAnnounce
