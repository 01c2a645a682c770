import Unit3dAnnounce.Model.Operation

/-!
# What a complete announce does

An announce that is served on its own either fails, and then has changed nothing but the
connectivity cache and the queue of unregistered info hashes, or it is accepted, and then the new
state is the old one with one torrent changed and everything published.
-/

namespace Unit3dAnnounce

open Machine

variable {F : Type}

section Peer

variable (config : Config F) (now : DateTime) (queries : Announce) (clientIp : IpAddr)
  (isConnectable hit : Bool)

/-- What is stored for a peer after an accepted announce, from what was stored before. -/
def announcedPeer (old : Option Peer) : Option Peer :=
  if queries.event = .stopped then none
  else
    match old with
    | some peer => some (peer.renew config now queries clientIp isConnectable hit)
    | none => some (Peer.fresh now queries clientIp isConnectable hit)

variable {config now queries clientIp isConnectable hit} {userId : UInt32}
  {warnings : WarningCollection} {peers peers' : PeerStore} {change : PeerChange}

/-- A refused announce leaves the peers as they were. -/
lemma changePeer_error {e : AnnounceError}
    (h : changePeer config now queries clientIp userId isConnectable hit warnings peers =
      (peers', .error e)) :
    peers' = peers ∧ (e = .stoppedPeerDoesNotExist ∨
      e = .peersPerTorrentPerUserLimit config.maxPeersPerTorrentPerUser) := by
  unfold changePeer at h
  by_cases hs : queries.event = .stopped
  · simp only [hs, if_true, stopPeer] at h
    cases hp : peers.get? ⟨userId, queries.peerId⟩ with
    | none =>
      simp only [hp, Prod.mk.injEq, Except.error.injEq] at h
      obtain ⟨rfl, rfl⟩ := h
      exact ⟨IndexMap.ext (IndexMap.swapRemoveEntries_of_lookup_none hp), Or.inl rfl⟩
    | some peer => simp [hp] at h
  · simp only [hs, if_false] at h
    cases hp : peers.get? ⟨userId, queries.peerId⟩ with
    | none =>
      simp only [hp, insertPeer] at h
      split at h
      · simp only [Prod.mk.injEq, Except.error.injEq] at h
        obtain ⟨rfl, rfl⟩ := h
        exact ⟨IndexMap.swapRemove_insert_of_get?_none hp _, Or.inr rfl⟩
      · simp at h
    | some peer => simp [hp, renewPeer] at h

/-- What an accepted announce can do to the peers, with what it reports. -/
inductive ChangesPeer (config : Config F) (now : DateTime) (queries : Announce) (clientIp : IpAddr)
    (userId : UInt32) (isConnectable hit : Bool) (warnings : WarningCollection) (peers : PeerStore) :
    PeerStore → PeerChange → Prop
  | stops {peer : Peer} (hevent : queries.event = .stopped)
      (hpeer : peers.get? ⟨userId, queries.peerId⟩ = some peer) :
    ChangesPeer config now queries clientIp userId isConnectable hit warnings peers
      (peers.swapRemove ⟨userId, queries.peerId⟩)
      { uploadedDelta := saturatingSubU64 queries.uploaded peer.uploaded
        downloadedDelta := saturatingSubU64 queries.downloaded peer.downloaded
        seederDelta := 0 - asI32 (peer.isIncludedInSeedList config)
        leecherDelta := 0 - asI32 (peer.isIncludedInLeechList config)
        timesCompletedDelta := 0
        isVisible := false
        isActiveAfterStop := (peers.swapRemove ⟨userId, queries.peerId⟩).entries.any
          fun (index, peer) => index.userId = userId && peer.isActive
        warnings := warnings }
  | renews {peer newPeer : Peer} (hevent : queries.event ≠ .stopped)
      (hpeer : peers.get? ⟨userId, queries.peerId⟩ = some peer)
      (hnew : newPeer = peer.renew config now queries clientIp isConnectable hit) :
    ChangesPeer config now queries clientIp userId isConnectable hit warnings peers
      (peers.modify ⟨userId, queries.peerId⟩ fun _ => newPeer)
      { uploadedDelta :=
          if queries.uploaded < peer.uploaded || queries.downloaded < peer.downloaded then 0
          else queries.uploaded - peer.uploaded
        downloadedDelta :=
          if queries.uploaded < peer.uploaded || queries.downloaded < peer.downloaded then 0
          else queries.downloaded - peer.downloaded
        seederDelta := asI32 (newPeer.isIncludedInSeedList config) -
          asI32 (peer.isIncludedInSeedList config)
        leecherDelta := asI32 (newPeer.isIncludedInLeechList config) -
          asI32 (peer.isIncludedInLeechList config)
        timesCompletedDelta := if newPeer.isSeeder && !peer.isSeeder then 1 else 0
        isVisible := newPeer.isVisible
        isActiveAfterStop := false
        warnings := warnings ++ (if newPeer.isVisible then [] else [.hitDownloadSlotLimit]) ++
          (if isRateLimited config now queries peer then [.rateLimitExceeded] else []) }
  | inserts {newPeer : Peer} (hevent : queries.event ≠ .stopped)
      (hpeer : peers.get? ⟨userId, queries.peerId⟩ = none)
      (hnew : newPeer = Peer.fresh now queries clientIp isConnectable hit)
      (hlimit : exceedsPeerLimit config.maxPeersPerTorrentPerUser userId 0
        (peers.insert ⟨userId, queries.peerId⟩ newPeer).entries = false) :
    ChangesPeer config now queries clientIp userId isConnectable hit warnings peers
      (peers.insert ⟨userId, queries.peerId⟩ newPeer)
      { uploadedDelta := 0
        downloadedDelta := 0
        seederDelta := asI32 (newPeer.isIncludedInSeedList config)
        leecherDelta := asI32 (newPeer.isIncludedInLeechList config)
        timesCompletedDelta := 0
        isVisible := newPeer.isVisible
        isActiveAfterStop := false
        warnings := warnings ++ (if newPeer.isVisible then [] else [.hitDownloadSlotLimit]) }

lemma changePeer_ok
    (h : changePeer config now queries clientIp userId isConnectable hit warnings peers =
      (peers', .ok change)) :
    ChangesPeer config now queries clientIp userId isConnectable hit warnings peers peers' change := by
  unfold changePeer at h
  by_cases hevent : queries.event = .stopped
  · simp only [hevent, if_true, stopPeer] at h
    cases hpeer : peers.get? ⟨userId, queries.peerId⟩ with
    | none => simp [hpeer] at h
    | some peer =>
      simp only [hpeer, Prod.mk.injEq, Except.ok.injEq] at h
      obtain ⟨rfl, rfl⟩ := h
      exact .stops hevent hpeer
  · simp only [hevent, if_false] at h
    cases hpeer : peers.get? ⟨userId, queries.peerId⟩ with
    | none =>
      simp only [hpeer, insertPeer] at h
      split at h
      · simp at h
      · next hlimit =>
        simp only [Prod.mk.injEq, Except.ok.injEq] at h
        obtain ⟨rfl, rfl⟩ := h
        exact .inserts hevent hpeer rfl (eq_false_of_ne_true hlimit)
    | some peer =>
      simp only [hpeer, renewPeer, Prod.mk.injEq, Except.ok.injEq] at h
      obtain ⟨rfl, rfl⟩ := h
      exact .renews hevent hpeer rfl

/-- An accepted announce changes the entry of the announced peer and no other. -/
lemma changePeer_alters
    (h : changePeer config now queries clientIp userId isConnectable hit warnings peers =
      (peers', .ok change)) :
    IndexMap.Alters peers peers' ⟨userId, queries.peerId⟩ (peers.get? ⟨userId, queries.peerId⟩)
      (announcedPeer config now queries clientIp isConnectable hit
        (peers.get? ⟨userId, queries.peerId⟩)) := by
  unfold announcedPeer
  cases changePeer_ok h with
  | stops hevent hpeer =>
    rw [if_pos hevent, hpeer]
    exact IndexMap.alters_swapRemove hpeer
  | renews hevent hpeer hnew =>
    rw [if_neg hevent, hpeer, hnew]
    exact IndexMap.alters_modify hpeer _
  | inserts hevent hpeer hnew hlimit =>
    rw [if_neg hevent, hpeer, hnew]
    exact IndexMap.alters_insert hpeer _

lemma changePeer_limit
    (h : changePeer config now queries clientIp userId isConnectable hit warnings peers =
      (peers', .ok change)) (hs : queries.event ≠ .stopped)
    (hp : peers.get? ⟨userId, queries.peerId⟩ = none) :
    exceedsPeerLimit config.maxPeersPerTorrentPerUser userId 0 peers'.entries = false := by
  cases changePeer_ok h with
  | stops hevent hpeer => exact absurd hevent hs
  | renews hevent hpeer hnew => simp [hp] at hpeer
  | inserts hevent hpeer hnew hlimit => exact hlimit

end Peer

section Torrent

variable [RateField F] {config : Config F} {env : Env F} {request : AnnounceRequest}
  {isConnectable : Bool} {state state' : AppState F} {torrentId : UInt32}
  {userId : Except AnnounceError UInt32} {user : Except AnnounceError (User F)}

lemma changeTorrent_error {id : UInt32} {u : User F} {group : Group} {torrent torrent' : Torrent}
    {e : AnnounceError}
    (h : changeTorrent config env request isConnectable id u group torrent = (torrent', .error e)) :
    torrent' = torrent ∧ (e = .stoppedPeerDoesNotExist ∨
      e = .peersPerTorrentPerUserLimit config.maxPeersPerTorrentPerUser) := by
  unfold changeTorrent at h
  split at h
  · rename_i peers e' hc
    simp only [Prod.mk.injEq, Except.error.injEq] at h
    obtain ⟨rfl, rfl⟩ := h
    obtain ⟨rfl, he⟩ := changePeer_error hc
    exact ⟨rfl, he⟩
  · simp at h

omit [RateField F] in
lemma admitUser_ok {groups : IndexMap Int32 Group} {queries : Announce} {id : UInt32} {u : User F}
    {group : Group} (h : admitUser groups queries userId user = .ok (id, u, group)) :
    userId = .ok id ∧ user = .ok u ∧ groups.get? u.groupId = some group := by
  cases userId with
  | error e => simp [admitUser, bind, Except.bind] at h
  | ok id' =>
    cases user with
    | error e => simp [admitUser, bind, Except.bind] at h
    | ok u' =>
      simp only [admitUser, bind, Except.bind] at h
      split at h
      · simp at h
      · cases hg : groups.get? u'.groupId with
        | none => simp [hg] at h
        | some group' =>
          simp only [hg] at h
          split at h
          · simp at h
          · simp only [Except.ok.injEq, Prod.mk.injEq] at h
            obtain ⟨rfl, rfl, rfl⟩ := h
            exact ⟨rfl, rfl, hg⟩

omit [RateField F] in
/-- An admission fails with an error of its own only where the user was found. -/
lemma admitUser_error {groups : IndexMap Int32 Group} {queries : Announce} {e : AnnounceError}
    (h : admitUser groups queries userId user = .error e) :
    userId = .error e ∨ user = .error e ∨ (e ≠ .torrentNotFound ∧ e ≠ .userNotFound) := by
  cases userId with
  | error e' =>
    simp only [admitUser, bind, Except.bind, Except.error.injEq] at h
    exact Or.inl (by rw [h])
  | ok id =>
    cases user with
    | error e' =>
      simp only [admitUser, bind, Except.bind, Except.error.injEq] at h
      exact Or.inr (Or.inl (by rw [h]))
    | ok u =>
      refine Or.inr (Or.inr ?_)
      simp only [admitUser, bind, Except.bind] at h
      split at h
      · rw [Except.error.injEq] at h
        rw [← h]
        simp
      · cases hg : groups.get? u.groupId with
        | none =>
          simp only [hg, Except.error.injEq] at h
          rw [← h]
          simp
        | some group =>
          simp only [hg] at h
          split at h
          · rw [Except.error.injEq] at h
            rw [← h]
            simp
          · simp at h

/-- The ways through the torrents section. -/
inductive TorrentOutcome (config : Config F) (env : Env F) (request : AnnounceRequest)
    (isConnectable : Bool) (userId : Except AnnounceError UInt32)
    (user : Except AnnounceError (User F)) (torrentId : UInt32) (state : AppState F) :
    AppState F → Except AnnounceError (TorrentResult F) → Prop
  | missing (hmissing : state.stores.torrents.get? torrentId = none) :
    TorrentOutcome config env request isConnectable userId user torrentId state state
      (.error .torrentNotFound)
  | deleted {torrent : Torrent} (hstored : state.stores.torrents.get? torrentId = some torrent)
      (hdeleted : torrent.isDeleted = true) :
    TorrentOutcome config env request isConnectable userId user torrentId state
      (recordUnregistered env.now user request.queries.infoHash state) (.error .torrentIsDeleted)
  | refused {torrent : Torrent} {e : AnnounceError}
      (hstored : state.stores.torrents.get? torrentId = some torrent)
      (hrefused : torrent.status.refusal = some e) :
    TorrentOutcome config env request isConnectable userId user torrentId state state (.error e)
  | denied {torrent : Torrent} {e : AnnounceError}
      (hstored : state.stores.torrents.get? torrentId = some torrent)
      (hdenied : admitUser state.stores.groups request.queries userId user = .error e) :
    TorrentOutcome config env request isConnectable userId user torrentId state state (.error e)
  | changed {torrent torrent' : Torrent} {id : UInt32} {u : User F} {group : Group}
      {result : Except AnnounceError (TorrentResult F)}
      (hstored : state.stores.torrents.get? torrentId = some torrent)
      (hkept : torrent.isDeleted = false) (happroved : torrent.status.refusal = none)
      (hadmitted : admitUser state.stores.groups request.queries userId user = .ok (id, u, group))
      (hchange : changeTorrent config env request isConnectable id u group torrent =
        (torrent', result)) :
    TorrentOutcome config env request isConnectable userId user torrentId state
      { state with stores.torrents := state.stores.torrents.modify torrentId (fun _ => torrent') }
      result

lemma announceTorrent_outcome {result : Except AnnounceError (TorrentResult F)}
    (h : announceTorrent config env request isConnectable userId user torrentId state =
      (state', result)) :
    TorrentOutcome config env request isConnectable userId user torrentId state state' result := by
  unfold announceTorrent at h
  cases ht : state.stores.torrents.get? torrentId with
  | none =>
    simp only [ht, Prod.mk.injEq] at h
    obtain ⟨rfl, rfl⟩ := h
    exact .missing ht
  | some torrent =>
    simp only [ht] at h
    by_cases hd : torrent.isDeleted = true
    · simp only [hd, if_true, Prod.mk.injEq] at h
      obtain ⟨rfl, rfl⟩ := h
      exact .deleted ht hd
    · simp only [hd, if_false, Bool.false_eq_true] at h
      cases hr : torrent.status.refusal with
      | some e =>
        simp only [hr, Prod.mk.injEq] at h
        obtain ⟨rfl, rfl⟩ := h
        exact .refused ht hr
      | none =>
        simp only [hr] at h
        cases ha : admitUser state.stores.groups request.queries userId user with
        | error e =>
          simp only [ha, Prod.mk.injEq] at h
          obtain ⟨rfl, rfl⟩ := h
          exact .denied ht ha
        | ok admitted =>
          obtain ⟨id, u, group⟩ := admitted
          simp only [ha] at h
          generalize hc : changeTorrent config env request isConnectable id u group torrent =
            changed at h
          obtain ⟨torrent', changed⟩ := changed
          simp only [Prod.mk.injEq] at h
          obtain ⟨rfl, rfl⟩ := h
          exact .changed ht (by simpa using hd) hr ha hc

lemma announceTorrent_error {e : AnnounceError}
    (h : announceTorrent config env request isConnectable userId user torrentId state =
      (state', .error e)) :
    state' = state ∨
      (∃ torrent, state.stores.torrents.get? torrentId = some torrent ∧ torrent.isDeleted = true) ∧
        state' = recordUnregistered env.now user request.queries.infoHash state := by
  cases announceTorrent_outcome h with
  | missing => exact Or.inl rfl
  | deleted hstored hdeleted => exact Or.inr ⟨⟨_, hstored, hdeleted⟩, rfl⟩
  | refused => exact Or.inl rfl
  | denied => exact Or.inl rfl
  | changed hstored _ _ _ hchange =>
    obtain ⟨rfl, -⟩ := changeTorrent_error hchange
    rw [IndexMap.modify_const_of_get? hstored]
    exact Or.inl rfl

/-- A torrent that is stored is found, and so is a user that was found before. -/
lemma announceTorrent_error_kind {e : AnnounceError}
    (h : announceTorrent config env request isConnectable userId user torrentId state =
      (state', .error e)) :
    state.stores.torrents.get? torrentId = none ∧ e = .torrentNotFound ∨ userId = .error e ∨
      user = .error e ∨ (e ≠ .torrentNotFound ∧ e ≠ .userNotFound) := by
  cases announceTorrent_outcome h with
  | missing hmissing => exact Or.inl ⟨hmissing, rfl⟩
  | deleted => exact Or.inr (Or.inr (Or.inr (by simp)))
  | @refused torrent _ _ hrefused =>
    refine Or.inr (Or.inr (Or.inr ⟨?_, ?_⟩))
    · rintro rfl
      revert hrefused
      cases torrent.status <;> simp [TorrentStatus.refusal]
    · rintro rfl
      revert hrefused
      cases torrent.status <;> simp [TorrentStatus.refusal]
  | denied _ hdenied => exact Or.inr (admitUser_error hdenied)
  | changed _ _ _ _ hchange =>
    obtain ⟨-, rfl | rfl⟩ := changeTorrent_error hchange
    · exact Or.inr (Or.inr (Or.inr (by simp)))
    · exact Or.inr (Or.inr (Or.inr (by simp)))

/-- Everything that the torrents section has checked and done when it accepts. -/
structure TorrentSection (config : Config F) (env : Env F) (request : AnnounceRequest)
    (isConnectable : Bool) (state : AppState F) (torrentId : UInt32) (torrent torrent' : Torrent)
    (result : TorrentResult F) : Prop where
  stored : state.stores.torrents.get? torrentId = some torrent
  notDeleted : torrent.isDeleted = false
  approved : torrent.status.refusal = none
  admitted : admitUser state.stores.groups request.queries (.ok result.userId) (.ok result.user) =
    .ok (result.userId, result.user, result.group)
  change : changeTorrent config env request isConnectable result.userId result.user result.group
    torrent = (torrent', .ok result)

lemma changeTorrent_ok {id : UInt32} {u : User F} {group : Group} {torrent torrent' : Torrent}
    {result : TorrentResult F}
    (h : changeTorrent config env request isConnectable id u group torrent = (torrent', .ok result)) :
    ∃ peers', changePeer config env.now request.queries request.clientIp id isConnectable
        (hasHitDownloadSlotLimit request.queries u group)
        (connectivityWarnings config isConnectable) torrent.peers = (peers', .ok result.change) ∧
      torrent' = torrent.withChange peers' result.change ∧
      result = respond config env request id u group torrent' result.change := by
  unfold changeTorrent at h
  split at h
  · simp at h
  · rename_i peers' change hc
    simp only [Prod.mk.injEq, Except.ok.injEq] at h
    obtain ⟨rfl, rfl⟩ := h
    exact ⟨peers', hc, rfl, rfl⟩

lemma announceTorrent_ok {result : TorrentResult F}
    (h : announceTorrent config env request isConnectable userId user torrentId state =
      (state', .ok result)) :
    userId = .ok result.userId ∧ user = .ok result.user ∧ ∃ torrent torrent',
      TorrentSection config env request isConnectable state torrentId torrent torrent' result ∧
      state' = { state with
        stores.torrents := state.stores.torrents.modify torrentId (fun _ => torrent') } := by
  cases announceTorrent_outcome h with
  | changed hstored hkept happroved hadmitted hchange =>
    obtain ⟨rfl, rfl, -⟩ := admitUser_ok hadmitted
    obtain ⟨peers', -, -, hresult⟩ := changeTorrent_ok hchange
    have huserId := congrArg TorrentResult.userId hresult
    have huser := congrArg TorrentResult.user hresult
    have hgroup := congrArg TorrentResult.group hresult
    simp only [respond] at huserId huser hgroup
    subst huserId huser hgroup
    exact ⟨rfl, rfl, _, _, ⟨hstored, hkept, happroved, hadmitted, hchange⟩, rfl⟩

end Torrent

section Handler

variable {config : Config F} {env : Env F} {request : AnnounceRequest} {state : AppState F}

lemma run_validate (request : AnnounceRequest) (state : AppState F) :
    ((validate request).run state).1 = state := by
  unfold validate
  split
  · rfl
  · simp only [Handler.run_bind, Handler.run_read, Handler.run_ite]
    split_ifs
    · rfl
    · rfl
    · rfl
    · split <;> rfl

lemma validate_ok {userAgent : Text} {passkey : Passkey}
    (h : ((validate request).run state).2 = .ok (userAgent, passkey)) :
    Passkey.fromStr request.passkey = some passkey := by
  unfold validate at h
  split at h
  · simp at h
  · simp only [Handler.run_bind, Handler.run_read, Handler.run_ite] at h
    split_ifs at h
    · simp at h
    · simp at h
    · simp at h
    · split at h
      · simp at h
      · rename_i passkey' hp
        simp only [Handler.run_pure, Except.ok.injEq, Prod.mk.injEq] at h
        rw [hp, h.2]

lemma run_lookUpUserId (passkey : Passkey) (state : AppState F) :
    (lookUpUserId passkey).run state =
      (state, (state.stores.passkey2id.get? passkey).elim (.error .passkeyNotFound) .ok) := by
  simp only [lookUpUserId, Handler.run_read]
  cases state.stores.passkey2id.get? passkey <;> rfl

/-- What looking up the user of a passkey finds. -/
def userOf (state : AppState F) (userId : Except AnnounceError UInt32) :
    Except AnnounceError (User F) :=
  match userId with
  | .error _ => .error .userNotFound
  | .ok userId => (state.stores.users.get? userId).elim (.error .userNotFound) .ok

lemma run_lookUpUser (userId : Except AnnounceError UInt32) (state : AppState F) :
    (lookUpUser userId).run state = (state, userOf state userId) := by
  cases userId with
  | error e => rfl
  | ok id =>
    simp only [lookUpUser, Handler.run_read, userOf]
    cases state.stores.users.get? id <;> rfl

lemma run_lookUpTorrentId (infoHash : InfoHash) (state : AppState F) :
    (lookUpTorrentId infoHash).run state =
      (state, (state.stores.infohash2id.get? infoHash).elim (.error .infoHashNotFound) .ok) := by
  simp only [lookUpTorrentId, Handler.run_read]
  cases state.stores.infohash2id.get? infoHash <;> rfl

lemma run_checkConnectivity (config : Config F) (env : Env F) (ip : IpAddr) (port : UInt16)
    (state : AppState F) :
    ∃ ports, ((checkConnectivity config env ip port).run state).1 =
      { state with stores.connectablePorts := ports } := by
  unfold checkConnectivity
  split_ifs
  · simp only [Handler.run_bind, Handler.run_read]
    split
    · exact ⟨state.stores.connectablePorts, rfl⟩
    · exact ⟨_, rfl⟩
  · exact ⟨state.stores.connectablePorts, rfl⟩

/-- Whether the user downloads the torrent for free. -/
def AppState.isFreeleech (state : AppState F) (userId torrentId : UInt32) : Bool :=
  state.stores.personalFreeleeches.contains userId ||
    state.stores.freeleechTokens.contains ⟨userId, torrentId⟩ ||
    state.stores.featuredTorrents.contains torrentId

/-- The announce with what it is credited in a state. -/
def TorrentResult.creditedIn (result : TorrentResult F) (torrentId : UInt32) (userAgent : Text)
    (isConnectable : Bool) (state : AppState F) : Accepted F :=
  { result with
    torrentId := torrentId
    userAgent := userAgent
    isConnectable := isConnectable
    creditedUploadedDelta := creditedDelta
      (if state.stores.featuredTorrents.contains torrentId then 200 else result.uploadFactor)
      result.change.uploadedDelta
    creditedDownloadedDelta := creditedDelta
      (if state.isFreeleech result.userId torrentId then 0 else result.downloadFactor)
      result.change.downloadedDelta }

lemma run_credit (result : TorrentResult F) (torrentId : UInt32) (userAgent : Text)
    (isConnectable : Bool) (state : AppState F) :
    (credit result torrentId userAgent isConnectable).run state =
      (state, result.creditedIn torrentId userAgent isConnectable state) := by
  unfold credit
  simp only [Handler.run_bind, Handler.run_read, Handler.run_orRead, Handler.run_pure]
  rfl

variable [RateField F]

/-- The state after everything that an accepted announce publishes. -/
def Accepted.published (config : Config F) (env : Env F) (request : AnnounceRequest)
    (a : Accepted F) (state : AppState F) : AppState F where
  stores := { state.stores with
    users := if a.touchesUser then state.stores.users.modify a.userId (a.updateUser env)
      else state.stores.users }
  queues := { state.queues with
    peers := state.queues.peers.upsert ⟨a.userId, a.torrentId, request.queries.peerId⟩
      (a.peerUpdate env request)
    histories := state.queues.histories.upsert ⟨a.userId, a.torrentId⟩
      (a.historyUpdate config env request)
    users := if a.touchesUserQueue then state.queues.users.upsert ⟨a.userId⟩ a.userUpdate
      else state.queues.users
    torrents := if a.touchesTorrentQueue then
        state.queues.torrents.upsert ⟨a.torrentId⟩ a.torrentUpdate
      else state.queues.torrents
    announces := if config.isAnnounceLoggingEnabled then
        state.queues.announces ++ [a.announceUpdate env request]
      else state.queues.announces }

lemma run_publish (a : Accepted F) (state : AppState F) :
    (a.publish config env request).run state = (a.published config env request state, ()) := by
  unfold Accepted.publish Accepted.published
  simp only [Handler.run_bind, Handler.run_write, Handler.run_writeIf]
  split_ifs
  all_goals rfl

/-- The user and the torrent of an announce that gets as far as changing a peer. -/
structure Admission (F : Type) where
  userId : UInt32
  torrentId : UInt32
  user : User F
  group : Group
  torrent : Torrent

def AnnounceRequest.admission (request : AnnounceRequest) (state : AppState F) :
    Option (Admission F) :=
  match ((validate request).run state).2 with
  | .error _ => none
  | .ok (_, passkey) => do
    let userId ← state.stores.passkey2id.get? passkey
    let user ← state.stores.users.get? userId
    let torrentId ← state.stores.infohash2id.get? request.queries.infoHash
    let torrent ← state.stores.torrents.get? torrentId
    if torrent.isDeleted || torrent.status.refusal.isSome then none
    else
      match admitUser state.stores.groups request.queries (.ok userId) (.ok user) with
      | .error _ => none
      | .ok (_, _, group) => some ⟨userId, torrentId, user, group, torrent⟩

/-- Whether the passkey of a request belongs to a stored user. -/
def AnnounceRequest.UserKnown (request : AnnounceRequest) (state : AppState F) : Prop :=
  ∃ passkey userId user, Passkey.fromStr request.passkey = some passkey ∧
    state.stores.passkey2id.get? passkey = some userId ∧
    state.stores.users.get? userId = some user

/-- Whether the info hash of a request is unknown or that of a deleted torrent. -/
def AnnounceRequest.Unregistered (request : AnnounceRequest) (state : AppState F) : Prop :=
  state.stores.infohash2id.get? request.queries.infoHash = none ∨
    ∃ torrentId torrent, state.stores.infohash2id.get? request.queries.infoHash = some torrentId ∧
      state.stores.torrents.get? torrentId = some torrent ∧ torrent.isDeleted = true

/-- What a rejected announce may have changed. -/
structure AnnounceRequest.Rejected (request : AnnounceRequest) (state state' : AppState F) : Prop where
  stores : ∃ ports, state'.stores = { state.stores with connectablePorts := ports }
  queues : state'.queues = state.queues ∨
    request.UserKnown state ∧ request.Unregistered state ∧
      ∃ queue, state'.queues = { state.queues with unregisteredInfoHashes := queue }

omit [RateField F] in
lemma elim_ok {A : Type} {o : Option A} {e : AnnounceError} {a : A} :
    o.elim (.error e) .ok = (.ok a : Except AnnounceError A) ↔ o = some a := by
  cases o <;> simp

omit [RateField F] in
lemma userOf_ok {passkey : Passkey} {user : User F}
    (h : userOf state ((state.stores.passkey2id.get? passkey).elim
      (.error .passkeyNotFound) .ok) = .ok user) :
    ∃ userId, state.stores.passkey2id.get? passkey = some userId ∧
      state.stores.users.get? userId = some user := by
  cases hp : state.stores.passkey2id.get? passkey with
  | none => simp [hp, userOf] at h
  | some userId =>
    simp only [hp, Option.elim_some, userOf] at h
    exact ⟨userId, rfl, elim_ok.mp h⟩

omit [RateField F] in
/-- The queue of unregistered info hashes is all that `recordUnregistered` touches, and it does
so for known users only. -/
lemma recordUnregistered_cases (now : DateTime) (user : Except AnnounceError (User F))
    (infoHash : InfoHash) (state : AppState F) :
    recordUnregistered now user infoHash state = state ∨
      ∃ u queue, user = .ok u ∧ recordUnregistered now user infoHash state =
        { state with queues.unregisteredInfoHashes := queue } := by
  cases user with
  | error e => exact Or.inl rfl
  | ok u => exact Or.inr ⟨u, _, rfl, rfl⟩

/-- Each way in which an announce fails. -/
theorem announce_error {e : AnnounceError}
    (h : ((announce config env request).run state).2 = .error e) :
    request.Rejected state ((announce config env request).run state).1 := by
  unfold announce at h ⊢
  simp only [Handler.run_bind, run_validate] at h ⊢
  cases hv : ((validate request).run state).2 with
  | error e' => exact ⟨⟨state.stores.connectablePorts, rfl⟩, Or.inl rfl⟩
  | ok validated =>
    obtain ⟨userAgent, passkey⟩ := validated
    have hp := validate_ok hv
    simp only [hv, Handler.run_bind, run_lookUpUserId, run_lookUpUser, run_lookUpTorrentId] at h ⊢
    generalize hu : userOf state ((state.stores.passkey2id.get? passkey).elim
      (.error .passkeyNotFound) .ok) = user at h ⊢
    have known (u : User F) (hok : user = .ok u) : request.UserKnown state := by
      obtain ⟨userId, h1, h2⟩ := userOf_ok (hu.trans hok)
      exact ⟨passkey, userId, u, hp, h1, h2⟩
    cases ht : state.stores.infohash2id.get? request.queries.infoHash with
    | none =>
      simp only [Option.elim_none, Handler.run_bind, Handler.run_write, Handler.run_pure]
      rcases recordUnregistered_cases env.now user request.queries.infoHash state with
        hr | ⟨u, queue, hok, hr⟩
      · rw [hr]
        exact ⟨⟨_, rfl⟩, Or.inl rfl⟩
      · rw [hr]
        exact ⟨⟨_, rfl⟩, Or.inr ⟨known u hok, Or.inl ht, queue, rfl⟩⟩
    | some torrentId =>
      simp only [ht, Option.elim_some, Handler.run_bind, Handler.run_atomically] at h ⊢
      obtain ⟨ports, hports⟩ := run_checkConnectivity config env request.clientIp
        request.queries.port state
      generalize hc : (checkConnectivity config env request.clientIp request.queries.port).run state =
        checked at h hports ⊢
      obtain ⟨state₁, isConnectable⟩ := checked
      simp only at h hports ⊢
      generalize hs : announceTorrent config env request isConnectable _ user torrentId state₁ =
        result at h ⊢
      obtain ⟨state₂, result⟩ := result
      cases result with
      | ok result => simp [Handler.run_bind] at h
      | error e' =>
        simp only [Handler.run_pure]
        rcases announceTorrent_error hs with rfl | ⟨⟨torrent, htorrent, hdeleted⟩, rfl⟩
        · rw [hports]
          exact ⟨⟨ports, rfl⟩, Or.inl rfl⟩
        · rw [hports] at htorrent ⊢
          rcases recordUnregistered_cases env.now user request.queries.infoHash
            { state with stores.connectablePorts := ports } with hr | ⟨u, queue, hok, hr⟩
          · rw [hr]
            exact ⟨⟨ports, rfl⟩, Or.inl rfl⟩
          · rw [hr]
            exact ⟨⟨ports, rfl⟩, Or.inr ⟨known u hok,
              Or.inr ⟨torrentId, torrent, ht, htorrent, hdeleted⟩, queue, rfl⟩⟩

/-- What an announce leaves of the users and torrents if it is rejected. -/
lemma stores_of_rejected {env : Env F} {request : AnnounceRequest} {e : AnnounceError}
    (h : ((announce config env request).run state).2 = .error e) :
    ((announce config env request).run state).1.stores.users = state.stores.users ∧
      ((announce config env request).run state).1.stores.torrents = state.stores.torrents := by
  obtain ⟨ports, hs⟩ := (announce_error h).stores
  rw [hs]
  exact ⟨rfl, rfl⟩

/-- Everything that holds when an announce is accepted. -/
structure AcceptedBy (config : Config F) (env : Env F) (request : AnnounceRequest)
    (state : AppState F) (a : Accepted F) (torrent torrent' : Torrent) : Prop where
  admission : request.admission state = some ⟨a.userId, a.torrentId, a.user, a.group, torrent⟩
  user : state.stores.users.get? a.userId = some a.user
  connectable : a.isConnectable =
    ((checkConnectivity config env request.clientIp request.queries.port).run state).2
  torrents : TorrentSection config env request a.isConnectable state a.torrentId torrent torrent'
    a.toTorrentResult
  result : ((announce config env request).run state).2 = .ok a
  credited : a = a.toTorrentResult.creditedIn a.torrentId a.userAgent a.isConnectable state
  state : ∃ ports, ((announce config env request).run state).1 =
    a.published config env request { state with
      stores.connectablePorts := ports
      stores.torrents := state.stores.torrents.modify a.torrentId (fun _ => torrent') }

theorem announce_ok {a : Accepted F} (h : ((announce config env request).run state).2 = .ok a) :
    ∃ torrent torrent', AcceptedBy config env request state a torrent torrent' := by
  have hresult := h
  suffices hsuff : ∃ torrent torrent',
      request.admission state = some ⟨a.userId, a.torrentId, a.user, a.group, torrent⟩ ∧
      state.stores.users.get? a.userId = some a.user ∧
      a.isConnectable =
        ((checkConnectivity config env request.clientIp request.queries.port).run state).2 ∧
      TorrentSection config env request a.isConnectable state a.torrentId torrent torrent'
        a.toTorrentResult ∧
      a = a.toTorrentResult.creditedIn a.torrentId a.userAgent a.isConnectable state ∧
      ∃ ports, ((announce config env request).run state).1 =
      a.published config env request { state with
        stores.connectablePorts := ports
        stores.torrents := state.stores.torrents.modify a.torrentId (fun _ => torrent') } by
    obtain ⟨torrent, torrent', h1, h2, h3, h4, h5, h6⟩ := hsuff
    exact ⟨torrent, torrent', h1, h2, h3, h4, hresult, h5, h6⟩
  clear hresult
  unfold announce at h ⊢
  simp only [Handler.run_bind, run_validate] at h ⊢
  cases hv : ((validate request).run state).2 with
  | error e' => simp [hv] at h
  | ok validated =>
    obtain ⟨userAgent, passkey⟩ := validated
    simp only [hv, Handler.run_bind, run_lookUpUserId, run_lookUpUser, run_lookUpTorrentId] at h ⊢
    cases ht : state.stores.infohash2id.get? request.queries.infoHash with
    | none => simp [ht, Handler.run_bind] at h
    | some torrentId =>
      simp only [ht, Option.elim_some, Handler.run_bind, Handler.run_atomically] at h ⊢
      obtain ⟨ports, hports⟩ := run_checkConnectivity config env request.clientIp
        request.queries.port state
      generalize hc : (checkConnectivity config env request.clientIp request.queries.port).run state =
        checked at h hports ⊢
      obtain ⟨state₁, isConnectable⟩ := checked
      simp only at h hports ⊢
      generalize hs : announceTorrent config env request isConnectable _ _ torrentId state₁ =
        result at h ⊢
      obtain ⟨state₂, result⟩ := result
      cases result with
      | error e' => simp at h
      | ok result =>
        obtain ⟨hid, hu, torrent, torrent', hsection, rfl⟩ := announceTorrent_ok hs
        simp only [Handler.run_bind] at h ⊢
        simp only [run_credit, run_publish, Handler.run_pure, Except.ok.injEq] at h ⊢
        subst hports h
        have hid := elim_ok.mp hid
        obtain ⟨userId, hid', hu⟩ := userOf_ok hu
        have he : userId = result.userId := Option.some_inj.mp (hid'.symm.trans hid)
        subst he
        have hadmission : request.admission state =
            some ⟨result.userId, torrentId, result.user, result.group, torrent⟩ := by
          have hstored : state.stores.torrents.get? torrentId = some torrent := hsection.stored
          have hadmitted := hsection.admitted
          simp only at hadmitted
          simp [AnnounceRequest.admission, hv, hid, hu, ht, hstored, hsection.notDeleted,
            hsection.approved, hadmitted]
        exact ⟨torrent, torrent', hadmission, hu, rfl, ⟨hsection.stored, hsection.notDeleted,
          hsection.approved, hsection.admitted, hsection.change⟩, rfl, ports, rfl⟩

end Handler

end Unit3dAnnounce
