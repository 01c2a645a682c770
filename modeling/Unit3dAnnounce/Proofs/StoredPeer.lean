import Unit3dAnnounce.Proofs.Tracker

/-!
# One stored peer

What the operations of the tracker do to the peer that is stored under one key.
-/

namespace Unit3dAnnounce

variable {F : Type}

/-- The peer of a user at a torrent. -/
def TorrentStore.peer? (torrents : TorrentStore) (key : PeerUpdate.Index) : Option Peer :=
  (torrents.get? key.torrentId).bind fun torrent => torrent.peers.get? ⟨key.userId, key.peerId⟩

lemma TorrentStore.peer?_of_get? {torrents : TorrentStore} {key : PeerUpdate.Index}
    {torrent : Torrent} (h : torrents.get? key.torrentId = some torrent) :
    torrents.peer? key = torrent.peers.get? ⟨key.userId, key.peerId⟩ := by
  rw [TorrentStore.peer?, h, Option.bind_some]

section Announce

variable [RateField F] {config : Config F} {env : Env F} {request : AnnounceRequest}
  {isConnectable : Bool} {state : AppState F} {torrentId : UInt32} {torrent torrent' : Torrent}
  {result : TorrentResult F} {a : Accepted F}

/-- What the torrents section makes of a peer. -/
lemma TorrentSection.announcedPeer
    (h : TorrentSection config env request isConnectable state torrentId torrent torrent' result)
    {key : PeerUpdate.Index} (hkey : key = ⟨result.userId, torrentId, request.queries.peerId⟩) :
    TorrentStore.peer? (state.stores.torrents.modify torrentId (fun _ => torrent')) key =
      announcedPeer config env.now request.queries request.clientIp isConnectable
        (hasHitDownloadSlotLimit request.queries result.user result.group)
        (state.stores.torrents.peer? key) := by
  obtain ⟨peers', hp, htorrent, -⟩ := changeTorrent_ok h.change
  have halters := changePeer_alters hp
  subst hkey
  have hold : state.stores.torrents.peer? ⟨result.userId, torrentId, request.queries.peerId⟩ =
      torrent.peers.get? ⟨result.userId, request.queries.peerId⟩ := TorrentStore.peer?_of_get? h.stored
  rw [hold, TorrentStore.peer?, IndexMap.get?_modify, if_pos rfl, h.stored, Option.map_some,
    Option.bind_some, htorrent]
  exact (halters.after _).trans (if_pos rfl)

/-- The torrents section leaves the other peers alone. -/
lemma TorrentSection.peer?_of_ne
    (h : TorrentSection config env request isConnectable state torrentId torrent torrent' result)
    {key : PeerUpdate.Index} (hkey : key ≠ ⟨result.userId, torrentId, request.queries.peerId⟩) :
    TorrentStore.peer? (state.stores.torrents.modify torrentId (fun _ => torrent')) key =
      state.stores.torrents.peer? key := by
  obtain ⟨peers', hp, htorrent, -⟩ := changeTorrent_ok h.change
  have halters := changePeer_alters hp
  unfold TorrentStore.peer?
  rw [IndexMap.get?_modify]
  by_cases hid : key.torrentId = torrentId
  · rw [if_pos hid, hid, h.stored, Option.map_some, Option.bind_some, Option.bind_some, htorrent]
    refine (halters.after _).trans (if_neg ?_)
    intro hindex
    rw [Peer.Index.mk.injEq] at hindex
    apply hkey
    cases key
    simp only [PeerUpdate.Index.mk.injEq]
    exact ⟨hindex.1, hid, hindex.2⟩
  · rw [if_neg hid]

end Announce

section Reap

variable (config : Config F) (activeCutoff inactiveCutoff : DateTime)

lemma Torrent.peers_reap (torrent : Torrent) :
    (torrent.reap config activeCutoff inactiveCutoff).1.peers =
      (torrent.peers.retainRecent inactiveCutoff).mapValues fun _ peer => peer.expire activeCutoff := by
  rw [Torrent.reap_eq]

/-- A peer that a reap keeps has at most become inactive. -/
lemma peer?_reapTorrents (state : AppState F) (key : PeerUpdate.Index) :
    (reapTorrents config activeCutoff inactiveCutoff state).stores.torrents.peer? key =
      ((state.stores.torrents.peer? key).filter fun peer =>
        decide (inactiveCutoff ≤ peer.updatedAt) || peer.isActive).map (Peer.expire activeCutoff) := by
  simp only [reapTorrents, TorrentStore.peer?, IndexMap.get?_mapValues]
  cases state.stores.torrents.get? key.torrentId with
  | none => rfl
  | some torrent =>
    simp only [Option.map_some, Option.bind_some]
    rw [Torrent.peers_reap, IndexMap.get?_mapValues, PeerStore.retainRecent, IndexMap.get?_retain]

end Reap

end Unit3dAnnounce
