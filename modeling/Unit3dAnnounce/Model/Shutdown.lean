import Unit3dAnnounce.Machine.Run
import Unit3dAnnounce.Model.Queue

/-!
# Shutting down

When no announces arrive any more, main flushes what is left in the queues and returns. Until then
the scheduler goes on with flushes of its own.
-/

namespace Unit3dAnnounce

inductive QueueKind where
  | announces
  | histories
  | peers
  | torrents
  | users
  | unregisteredInfoHashes
deriving DecidableEq

namespace QueueKind

/-- In the order in which `are_not_empty` reads them. -/
def all : List QueueKind := [announces, histories, peers, torrents, users, unregisteredInfoHashes]

def Records : QueueKind → Type
  | announces => List AnnounceUpdate
  | histories => Queue HistoryUpdate.Index HistoryUpdate
  | peers => Queue PeerUpdate.Index PeerUpdate
  | torrents => Queue TorrentUpdate.Index TorrentUpdate
  | users => Queue UserUpdate.Index UserUpdate
  | unregisteredInfoHashes => Queue UnregisteredInfoHashUpdate.Index UnregisteredInfoHashUpdate

def Taken : QueueKind → Type
  | announces => List AnnounceUpdate
  | histories => Batch HistoryUpdate.Index HistoryUpdate
  | peers => Batch PeerUpdate.Index PeerUpdate
  | torrents => Batch TorrentUpdate.Index TorrentUpdate
  | users => Batch UserUpdate.Index UserUpdate
  | unregisteredInfoHashes => Batch UnregisteredInfoHashUpdate.Index UnregisteredInfoHashUpdate

variable {F : Type}

def isNotEmpty : (kind : QueueKind) → kind.Records → Bool
  | announces, queue => !List.isEmpty queue
  | histories, queue => Queue.isNotEmpty queue
  | peers, queue => Queue.isNotEmpty queue
  | torrents, queue => Queue.isNotEmpty queue
  | users, queue => Queue.isNotEmpty queue
  | unregisteredInfoHashes, queue => Queue.isNotEmpty queue

def takeBatches (config : Config F) : (kind : QueueKind) → kind.Records → List kind.Taken × kind.Records
  | announces, queue => ([(AnnounceQueue.takeBatch queue).1], (AnnounceQueue.takeBatch queue).2)
  | histories, queue => Queue.takeBatches config queue
  | peers, queue => Queue.takeBatches config queue
  | torrents, queue => Queue.takeBatches config queue
  | users, queue => Queue.takeBatches config queue
  | unregisteredInfoHashes, queue => Queue.takeBatches config queue

def upsertBatch : (kind : QueueKind) → kind.Records → kind.Taken → kind.Records
  | announces, queue, batch => AnnounceQueue.upsertBatch queue batch
  | histories, queue, batch => Queue.upsertBatch queue batch
  | peers, queue, batch => Queue.upsertBatch queue batch
  | torrents, queue, batch => Queue.upsertBatch queue batch
  | users, queue, batch => Queue.upsertBatch queue batch
  | unregisteredInfoHashes, queue, batch => Queue.upsertBatch queue batch

/-- The number of records of a batch. -/
def len : (kind : QueueKind) → kind.Taken → ℕ
  | announces, batch => List.length batch
  | histories, batch => IndexMap.size batch
  | peers, batch => IndexMap.size batch
  | torrents, batch => IndexMap.size batch
  | users, batch => IndexMap.size batch
  | unregisteredInfoHashes, batch => IndexMap.size batch

end QueueKind

def Queues.records (queues : Queues) : (kind : QueueKind) → kind.Records
  | .announces => queues.announces
  | .histories => queues.histories
  | .peers => queues.peers
  | .torrents => queues.torrents
  | .users => queues.users
  | .unregisteredInfoHashes => queues.unregisteredInfoHashes

/-- How far the flush of a queue has come. -/
inductive Progress (B : Type) where
  | starting
  /-- Waiting for the outcomes of the statements, where `none` is still to come. -/
  | running (statements : List (B × Option Bool))
  /-- Every statement has ended, and these failed ones are still to be put back into the queue. -/
  | requeuing (failed : List B)

namespace Progress

variable {B : Type}

def done : Progress B := .requeuing []

def isDone : Progress B → Bool
  | .requeuing [] => true
  | _ => false

/-- `join_all` waits for the last statement. -/
def joinAll (statements : List (B × Option Bool)) : Progress B :=
  if statements.all fun statement => statement.2.isSome then
    .requeuing ((statements.filter fun statement => statement.2 = some false).map Prod.fst)
  else .running statements

/-- A statement for no records succeeds without being sent. -/
def start (len : B → ℕ) (batches : List B) : Progress B :=
  joinAll (batches.map fun batch => (batch, if len batch = 0 then some true else none))

/-- The database reports about a statement, which can happen once. -/
def finish (index : ℕ) (succeeded : Bool) : Progress B → Progress B
  | .running statements =>
    joinAll (statements.modify index fun statement => (statement.1, statement.2.or (some succeeded)))
  | progress => progress

/-- The batches that are neither in the queue nor in the database. -/
def held : Progress B → List B
  | .starting => []
  | .running statements =>
    (statements.filter fun statement => statement.2 ≠ some true).map Prod.fst
  | .requeuing failed => failed

end Progress

inductive Task where
  | scheduler
  | main
deriving DecidableEq

/-- Where main is in its loop. -/
inductive MainLoop where
  /-- In the loop's condition, with the queues that `are_not_empty` has still to read. -/
  | checking (flushes : ℕ) (unread : List QueueKind)
  | flushing (flushes : ℕ)
  | left (flushes : ℕ)
deriving DecidableEq

namespace MainLoop

def maxFlushes : ℕ := 1000

/-- The loop's condition, from its start. -/
def check (flushes : ℕ) : MainLoop :=
  if flushes < maxFlushes then .checking flushes QueueKind.all else .left flushes

/-- A queue was read and found empty. -/
def next (flushes : ℕ) : List QueueKind → MainLoop
  | [] => .left flushes
  | unread => .checking flushes unread

/-- Main prints that the shutdown succeeded. -/
def hasSucceeded : MainLoop → Bool
  | .left flushes => decide (flushes ≠ maxFlushes)
  | _ => false

end MainLoop

structure Shutdown where
  queues : (kind : QueueKind) → kind.Records
  progress : Task → (kind : QueueKind) → Progress kind.Taken
  mainLoop : MainLoop

/-- What one of the tasks does between two points where the other may go on. The scheduler starts a
flush when its last one is over; main's flushes start and end with its loop. -/
inductive ShutdownEvent (F : Type) where
  | schedulerFlushes
  | takeBatches (task : Task) (kind : QueueKind) (config : Config F)
  | finish (task : Task) (kind : QueueKind) (index : ℕ) (succeeded : Bool)
  | upsertBatch (task : Task) (kind : QueueKind)
  | mainReads
  | mainGoesOn

namespace Shutdown

variable {F : Type}

def setQueue (shutdown : Shutdown) (kind : QueueKind) (queue : kind.Records) : Shutdown :=
  { shutdown with queues := Function.update shutdown.queues kind queue }

def setProgress (shutdown : Shutdown) (task : Task) (kind : QueueKind)
    (progress : Progress kind.Taken) : Shutdown :=
  { shutdown with
    progress := Function.update shutdown.progress task
      (Function.update (shutdown.progress task) kind progress) }

def startFlush (shutdown : Shutdown) (task : Task) : Shutdown :=
  { shutdown with progress := Function.update shutdown.progress task fun _ => .starting }

/-- The flushes of all queues are joined. -/
def hasFlushed (shutdown : Shutdown) (task : Task) : Bool :=
  QueueKind.all.all fun kind => (shutdown.progress task kind).isDone

/-- Main arrives at its loop, wherever the scheduler is. -/
def start (queues : Queues) (scheduler : (kind : QueueKind) → Progress kind.Taken) : Shutdown where
  queues := queues.records
  progress
    | .scheduler => scheduler
    | .main => fun _ => .done
  mainLoop := .check 0

/-- A step that its task is not up to is nothing. -/
def step (shutdown : Shutdown) : ShutdownEvent F → Shutdown
  | .schedulerFlushes =>
    if shutdown.hasFlushed .scheduler then shutdown.startFlush .scheduler else shutdown
  | .takeBatches task kind config =>
    match shutdown.progress task kind with
    | .starting =>
      let (batches, queue) := kind.takeBatches config (shutdown.queues kind)
      (shutdown.setQueue kind queue).setProgress task kind (.start kind.len batches)
    | _ => shutdown
  | .finish task kind index succeeded =>
    shutdown.setProgress task kind ((shutdown.progress task kind).finish index succeeded)
  | .upsertBatch task kind =>
    match shutdown.progress task kind with
    | .requeuing (batch :: failed) =>
      (shutdown.setQueue kind (kind.upsertBatch (shutdown.queues kind) batch)).setProgress task kind
        (.requeuing failed)
    | _ => shutdown
  | .mainReads =>
    match shutdown.mainLoop with
    | .checking flushes (kind :: unread) =>
      if kind.isNotEmpty (shutdown.queues kind) then
        { shutdown.startFlush .main with mainLoop := .flushing flushes }
      else { shutdown with mainLoop := .next flushes unread }
    | _ => shutdown
  | .mainGoesOn =>
    match shutdown.mainLoop with
    | .flushing flushes =>
      if shutdown.hasFlushed .main then { shutdown with mainLoop := .check (flushes + 1) } else shutdown
    | _ => shutdown

end Shutdown

end Unit3dAnnounce
