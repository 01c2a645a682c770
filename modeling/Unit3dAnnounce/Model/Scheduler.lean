import Unit3dAnnounce.Model.Queue

/-!
# Reaping

The scheduler removes peers that have not announced for some time. The torrents are
independent of each other: the loop over a torrent changes its own peers and counters,
decrements the counters of users, and enqueues at most one update.
-/

namespace Unit3dAnnounce

variable {F : Type}

/-- The time `ttl` seconds before `now`, unless computing it panics. -/
def cutoff (now : DateTime) (ttl : UInt64) : Option DateTime :=
  if ttl.toNat ≤ (2 ^ 63 - 1) / 1000 then checkedSubSigned now (seconds ttl.toNat) else none

/-- Peers get marked as inactive if not announced since `activeCutoff`. -/
def Peer.isExpired (activeCutoff : DateTime) (peer : Peer) : Bool :=
  decide (peer.updatedAt < activeCutoff) && peer.isActive

def Peer.expire (activeCutoff : DateTime) (peer : Peer) : Peer :=
  if peer.isExpired activeCutoff then { peer with isActive := false } else peer

/-- If a peer is marked as inactive and it has not announced since `inactiveCutoff`, then it is
permanently deleted. -/
def PeerStore.retainRecent (inactiveCutoff : DateTime) (peers : PeerStore) : PeerStore :=
  peers.retain fun _ peer => decide (inactiveCutoff ≤ peer.updatedAt) || peer.isActive

section Torrents

variable (config : Config F) (activeCutoff : DateTime)

/-- The seeder and leecher deltas that the loop over the peers has counted. The source's `i32` holds them
for any torrent with no more than `2 ^ 31` peers. -/
structure ExpiryDeltas where
  seederDelta : ℤ
  leecherDelta : ℤ

def ExpiryDeltas.count (deltas : ExpiryDeltas) (peer : Peer) : ExpiryDeltas :=
  if peer.isExpired activeCutoff && peer.isIncludedInPeerList config then
    match peer.isSeeder with
    | true => { deltas with seederDelta := deltas.seederDelta - 1 }
    | false => { deltas with leecherDelta := deltas.leecherDelta - 1 }
  else deltas

def PeerStore.expiryDeltas (peers : PeerStore) : ExpiryDeltas :=
  peers.entries.foldl (fun deltas entry => deltas.count config activeCutoff entry.2) ⟨0, 0⟩

/-- One peer fewer for the user. -/
def User.discharge (isSeeder : Bool) (user : User F) : User F :=
  if isSeeder then { user with numSeeding := saturatingSubU32 user.numSeeding 1 }
  else { user with numLeeching := saturatingSubU32 user.numLeeching 1 }

/-- What one peer of the loop does to the users. -/
def UserStore.dischargePeer (users : UserStore F) (entry : Peer.Index × Peer) : UserStore F :=
  if entry.2.isExpired activeCutoff && entry.2.isIncludedInPeerList config then
    users.modify entry.1.userId (User.discharge entry.2.isSeeder)
  else users

variable (inactiveCutoff : DateTime)

/-- What the loop over the peers of a torrent does to the users. -/
def UserStore.dischargePeers (torrent : Torrent) (users : UserStore F) : UserStore F :=
  (torrent.peers.retainRecent inactiveCutoff).entries.foldl (dischargePeer config activeCutoff) users

/-- The torrent after its peers were reaped, with what they add to its counters. -/
def Torrent.reap (torrent : Torrent) : Torrent × ExpiryDeltas :=
  let peers := torrent.peers.retainRecent inactiveCutoff
  let deltas := peers.expiryDeltas config activeCutoff
  let torrent := { torrent with peers := peers.mapValues fun _ peer => peer.expire activeCutoff }
  if deltas.seederDelta ≠ 0 || deltas.leecherDelta ≠ 0 then
    ({ torrent with
      seeders := saturatingAddSigned torrent.seeders deltas.seederDelta
      leechers := saturatingAddSigned torrent.leechers deltas.leecherDelta }, deltas)
  else (torrent, deltas)

/-- Deltas that are zero may be added, too. -/
lemma Torrent.reap_eq (torrent : Torrent) :
    torrent.reap config activeCutoff inactiveCutoff =
      let deltas := (torrent.peers.retainRecent inactiveCutoff).expiryDeltas config activeCutoff
      ({ torrent with
        peers := (torrent.peers.retainRecent inactiveCutoff).mapValues fun _ peer =>
          peer.expire activeCutoff
        seeders := saturatingAddSigned torrent.seeders deltas.seederDelta
        leechers := saturatingAddSigned torrent.leechers deltas.leecherDelta }, deltas) := by
  unfold Torrent.reap
  dsimp only
  split_ifs with h
  · rfl
  · simp only [Bool.or_eq_true, decide_eq_true_eq, not_or, not_not] at h
    rw [h.1, h.2, saturatingAddSigned_zero, saturatingAddSigned_zero]

/-- The update that a torrent enqueues when peers that were counted have expired. -/
def Torrent.reapUpdate (torrent : Torrent) : Option (TorrentUpdate.Index × TorrentUpdate) :=
  let (torrent, deltas) := torrent.reap config activeCutoff inactiveCutoff
  if deltas.seederDelta ≠ 0 || deltas.leecherDelta ≠ 0 then
    some (⟨torrent.id⟩, ⟨deltas.seederDelta, deltas.leecherDelta, 0, 0⟩)
  else none

/-- The loop over all torrents. -/
def reapTorrents (state : AppState F) : AppState F where
  queues := { state.queues with
    torrents := (state.stores.torrents.entries.filterMap fun entry =>
        entry.2.reapUpdate config activeCutoff inactiveCutoff).foldl
      (fun queue record => queue.upsert record.1 record.2) state.queues.torrents }
  stores := { state.stores with
    torrents := state.stores.torrents.mapValues fun _ torrent =>
      (torrent.reap config activeCutoff inactiveCutoff).1
    users := state.stores.users |> state.stores.torrents.entries.foldl fun users entry =>
      users.dischargePeers config activeCutoff inactiveCutoff entry.2 }

end Torrents

/-- Remove peers that have not announced for some time. The clock is read twice. A panic, which
comes before any change, is `none`. -/
def reap (config : Config F) (activeNow inactiveNow : DateTime) (state : AppState F) :
    Option (AppState F) := do
  let activeCutoff ← cutoff activeNow config.activePeerTtl
  let inactiveCutoff ← cutoff inactiveNow config.inactivePeerTtl
  return reapTorrents config activeCutoff inactiveCutoff state

end Unit3dAnnounce
