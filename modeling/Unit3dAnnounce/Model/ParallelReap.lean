import Unit3dAnnounce.Machine.Parallel
import Unit3dAnnounce.Model.Scheduler

/-!
# Reaping in parallel

A reap holds the lock of the torrents and hands each of them to a thread of a pool. The thread owns
its torrent. It takes the lock of the users for every peer that it discharges, and the lock of the
torrents queue for its update, so the steps of the threads mix in any way between these sections.
-/

namespace Unit3dAnnounce

open Machine

variable {F : Type}

/-- Where the work on a torrent stands. -/
inductive ReapStage where
  | retain
  | peers (position : ℕ)
  | done
deriving DecidableEq

/-- A torrent with the deltas that the loop over its peers has counted so far. -/
structure ReapThread where
  torrent : Torrent
  deltas : ExpiryDeltas
  stage : ReapStage

def ReapThread.new (torrent : Torrent) : ReapThread := ⟨torrent, ⟨0, 0⟩, .retain⟩

/-- What a step does to what the threads share. -/
inductive ReapEffect where
  | nothing
  | discharge (userId : UInt32) (isSeeder : Bool)
  | enqueue (index : TorrentUpdate.Index) (update : TorrentUpdate)

def ReapEffect.apply (state : AppState F) : ReapEffect → AppState F
  | .nothing => state
  | .discharge userId isSeeder =>
    { state with stores.users := state.stores.users.modify userId (User.discharge isSeeder) }
  | .enqueue index update =>
    { state with queues.torrents := state.queues.torrents.upsert index update }

namespace ReapThread

/-- The work on the peer at a position. -/
def visit (config : Config F) (activeCutoff : DateTime) (position : ℕ) (index : Peer.Index)
    (peer : Peer) (thread : ReapThread) : ReapThread × ReapEffect :=
  let thread := { thread with stage := .peers (position + 1) }
  if peer.isExpired activeCutoff then
    let thread := { thread with
      torrent.peers := thread.torrent.peers.modify index fun peer => { peer with isActive := false } }
    if peer.isIncludedInPeerList config then
      ({ thread with deltas := thread.deltas.count config activeCutoff peer },
        .discharge index.userId peer.isSeeder)
    else (thread, .nothing)
  else (thread, .nothing)

/-- Update peer count of the torrent. -/
def finish (thread : ReapThread) : ReapThread × ReapEffect :=
  let thread := { thread with stage := .done }
  let deltas := thread.deltas
  if deltas.seederDelta ≠ 0 || deltas.leecherDelta ≠ 0 then
    ({ thread with
      torrent.seeders := saturatingAddSigned thread.torrent.seeders deltas.seederDelta
      torrent.leechers := saturatingAddSigned thread.torrent.leechers deltas.leecherDelta },
      .enqueue ⟨thread.torrent.id⟩ ⟨deltas.seederDelta, deltas.leecherDelta, 0, 0⟩)
  else (thread, .nothing)

def next (config : Config F) (activeCutoff inactiveCutoff : DateTime) (thread : ReapThread) :
    Option (ReapThread × ReapEffect) :=
  match thread.stage with
  | .retain => some ({ thread with
      torrent.peers := thread.torrent.peers.retainRecent inactiveCutoff
      stage := .peers 0 }, .nothing)
  | .peers position =>
    match thread.torrent.peers.entries[position]? with
    | some (index, peer) => some (thread.visit config activeCutoff position index peer)
    | none => some thread.finish
  | .done => none

end ReapThread

section Pool

variable (config : Config F) (activeCutoff inactiveCutoff : DateTime)

/-- The next step of a thread, for the keys that have one. -/
def reapNext (thread : Option ReapThread) : Option (Option ReapThread × ReapEffect) :=
  thread.bind fun thread => (thread.next config activeCutoff inactiveCutoff).map fun moved =>
    (some moved.1, moved.2)

/-- The threads when a reap starts. -/
def reapThreads (state : AppState F) : Threads UInt32 (Option ReapThread) (AppState F) where
  locals id := (state.stores.torrents.get? id).map ReapThread.new
  shared := state

/-- The threads after the steps of a schedule, which names the torrent of each step. -/
def runReap (state : AppState F) (schedule : List UInt32) :
    Threads UInt32 (Option ReapThread) (AppState F) :=
  run (Threads.step (reapNext config activeCutoff inactiveCutoff) ReapEffect.apply)
    (reapThreads state) schedule

/-- The state when the pool is done and the lock of the torrents is released. -/
def parallelReap (state : AppState F) (schedule : List UInt32) : AppState F :=
  let threads := runReap config activeCutoff inactiveCutoff state schedule
  { threads.shared with
    stores.torrents := state.stores.torrents.mapValues fun id torrent =>
      ((threads.locals id).map ReapThread.torrent).getD torrent }

/-- Every thread has come to its end. -/
def CompletesReap (state : AppState F) (schedule : List UInt32) : Prop :=
  (runReap config activeCutoff inactiveCutoff state schedule).IsDone
    (reapNext config activeCutoff inactiveCutoff)

end Pool

end Unit3dAnnounce
