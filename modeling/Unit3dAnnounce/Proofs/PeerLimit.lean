import Unit3dAnnounce.Model.Sample
import Unit3dAnnounce.Proofs.Lists

/-!
# Active peers per torrent and user

The number of active peers that a user may have on a torrent is checked when a peer is inserted,
in a `u16`. It is not checked when a stored peer that a reap made inactive comes back.
-/

namespace Unit3dAnnounce

open Machine

variable {F : Type}

/-- The number of active peers of a user on a torrent. -/
def Torrent.activeOf (userId : UInt32) (torrent : Torrent) : ℕ :=
  torrent.peers.count (fun index peer => decide (index.userId = userId) && peer.isActive)

def AppState.activePeers (id userId : UInt32) (state : AppState F) : ℕ :=
  (state.stores.torrents.get? id).elim 0 (Torrent.activeOf userId)

def WithinPeerLimit (config : Config F) (id : UInt32) (state : AppState F) : Prop :=
  ∀ userId, state.activePeers id userId ≤ config.maxPeersPerTorrentPerUser.toNat

def Torrent.HasFreePlace (config : Config F) (userId : UInt32) (torrent : Torrent) : Prop :=
  torrent.activeOf userId < config.maxPeersPerTorrentPerUser.toNat

/-- An announce respects the limit if the inactive peer that it makes active again has a free place,
and, with a limit that the `u16` count cannot exceed, so has the peer that it inserts. -/
def Admission.RespectsPeerLimit (config : Config F) (queries : Announce) (admission : Admission F) :
    Prop :=
  queries.event = .stopped ∨
    match admission.torrent.peers.get? ⟨admission.userId, queries.peerId⟩ with
    | some peer => peer.isActive = true ∨ admission.torrent.HasFreePlace config admission.userId
    | none => config.maxPeersPerTorrentPerUser ≠ 65535 ∨
      admission.torrent.HasFreePlace config admission.userId

def RespectsPeerLimit (config : Config F) (id : UInt32) (state : AppState F) : Operation F → Prop
  | .announce _ request => ∀ admission ∈ request.admission state, admission.torrentId = id →
    admission.RespectsPeerLimit config request.queries
  | _ => True

/-- The loop that counts a user's active peers does not wrap below a limit of 65535. -/
lemma countP_le_of_exceedsPeerLimit {maxPeers : UInt16} {userId : UInt32} (hmax : maxPeers ≠ 65535)
    (l : List (Peer.Index × Peer)) (peerCount : UInt16) (hcount : peerCount ≤ maxPeers)
    (h : exceedsPeerLimit maxPeers userId peerCount l = false) :
    peerCount.toNat + l.countP (fun e => decide (e.1.userId = userId) && e.2.isActive) ≤
      maxPeers.toNat := by
  induction l generalizing peerCount with
  | nil => simpa using UInt16.le_iff_toNat_le.mp hcount
  | cons entry l ih =>
    obtain ⟨index, peer⟩ := entry
    rw [List.countP_cons]
    unfold exceedsPeerLimit at h
    by_cases hactive : (decide (index.userId = userId) && peer.isActive) = true
    · simp only [hactive, if_true] at h ⊢
      by_cases hlt : peerCount + 1 > maxPeers
      · simp [hlt] at h
      · simp only [hlt, if_false] at h
        have hle := ih (peerCount + 1) (UInt16.not_lt.mp hlt) h
        have hsucc : (peerCount + 1).toNat = peerCount.toNat + 1 := by
          have h1 := UInt16.le_iff_toNat_le.mp hcount
          have h2 : maxPeers.toNat ≠ 65535 := fun he => hmax (UInt16.toNat_inj.mp he)
          have h3 := maxPeers.toNat_lt
          rw [UInt16.toNat_add, UInt16.toNat_one]
          omega
        omega
    · simp only [hactive] at h ⊢
      have hle := ih peerCount hcount h
      simpa using hle

section Steps

variable {config : Config F} {state : AppState F} {id : UInt32}

/-- Changing a peer moves the number of active peers of its user, and of no one else. -/
lemma changePeer_activeOf {now : DateTime} {queries : Announce} {clientIp : IpAddr}
    {userId : UInt32} {isConnectable hit : Bool} {warnings : WarningCollection}
    {torrent : Torrent} {peers' : PeerStore} {change : PeerChange}
    (h : changePeer config now queries clientIp userId isConnectable hit warnings torrent.peers =
      (peers', .ok change))
    (hwithin : torrent.activeOf userId ≤ config.maxPeersPerTorrentPerUser.toNat)
    (hrespects : queries.event = .stopped ∨
      match torrent.peers.get? ⟨userId, queries.peerId⟩ with
      | some peer => peer.isActive = true ∨ torrent.HasFreePlace config userId
      | none => config.maxPeersPerTorrentPerUser ≠ 65535 ∨ torrent.HasFreePlace config userId) :
    (torrent.withChange peers' change).activeOf userId ≤ config.maxPeersPerTorrentPerUser.toNat := by
  have hcount := (changePeer_alters h).count
    (fun index peer => decide (index.userId = userId) && peer.isActive)
  have hbefore : torrent.activeOf userId = torrent.peers.count
    (fun index peer => decide (index.userId = userId) && peer.isActive) := rfl
  have hafter : (torrent.withChange peers' change).activeOf userId = peers'.count
    (fun index peer => decide (index.userId = userId) && peer.isActive) := rfl
  rw [hafter]
  unfold Torrent.HasFreePlace at hrespects
  by_cases hs : queries.event = .stopped
  · simp only [announcedPeer, hs, if_true, Option.elim_none] at hcount
    omega
  · have hr := hrespects.resolve_left hs
    simp only [announcedPeer, hs, if_false] at hcount
    cases hp : torrent.peers.get? ⟨userId, queries.peerId⟩ with
    | none =>
      simp only [hp] at hr hcount
      by_cases hmax : config.maxPeersPerTorrentPerUser = 65535
      · have hlt := hr.resolve_left (not_not.mpr hmax)
        simp only [Option.elim_some, Option.elim_none, Peer.fresh, decide_true, Bool.and_self,
          Bool.toNat_true] at hcount
        omega
      · have hle := countP_le_of_exceedsPeerLimit hmax peers'.entries 0 (by simp)
          (changePeer_limit h hs hp)
        rw [UInt16.toNat_zero, zero_add] at hle
        exact hle
    | some peer =>
      simp only [hp] at hr hcount
      simp only [Option.elim_some, decide_true, Bool.true_and, Peer.renew, Bool.toNat_true] at hcount
      cases hactive : peer.isActive with
      | false =>
        have hlt := hr.resolve_left (by simp [hactive])
        simp only [hactive, Bool.toNat_false] at hcount
        omega
      | true =>
        simp only [hactive, Bool.toNat_true] at hcount
        omega

lemma changePeer_activeOf_of_ne {now : DateTime} {queries : Announce} {clientIp : IpAddr}
    {userId : UInt32} {isConnectable hit : Bool} {warnings : WarningCollection}
    {torrent : Torrent} {peers' : PeerStore} {change : PeerChange}
    (h : changePeer config now queries clientIp userId isConnectable hit warnings torrent.peers =
      (peers', .ok change)) {userId' : UInt32} (hne : userId' ≠ userId) :
    (torrent.withChange peers' change).activeOf userId' = torrent.activeOf userId' := by
  have hcount := (changePeer_alters h).count
    (fun index peer => decide (index.userId = userId') && peer.isActive)
  have hne' : ¬ userId = userId' := fun he => hne he.symm
  simp only [hne', decide_false, Bool.false_and, Bool.toNat_false] at hcount
  have hafter : (torrent.withChange peers' change).activeOf userId' = peers'.count
    (fun index peer => decide (index.userId = userId') && peer.isActive) := rfl
  have hbefore : torrent.activeOf userId' = torrent.peers.count
    (fun index peer => decide (index.userId = userId') && peer.isActive) := rfl
  rw [hafter, hbefore]
  generalize announcedPeer _ _ _ _ _ _ _ = new at hcount
  generalize torrent.peers.get? _ = old at hcount
  cases old <;> cases new <;> simpa using hcount.symm

lemma Torrent.activeOf_reap_le (torrent : Torrent) (activeCutoff inactiveCutoff : DateTime)
    (userId : UInt32) :
    (torrent.reap config activeCutoff inactiveCutoff).1.activeOf userId ≤ torrent.activeOf userId := by
  have hle : ((torrent.peers.retainRecent inactiveCutoff).mapValues
      (fun _ peer => peer.expire activeCutoff)).count
        (fun index peer => decide (index.userId = userId) && peer.isActive) ≤
      torrent.activeOf userId := by
    rw [IndexMap.count_mapValues]
    refine le_trans (IndexMap.count_mono _ ?_) (IndexMap.count_retain_le _ _ _)
    intro index peer h
    unfold Peer.expire at h
    split_ifs at h
    · simp at h
    · exact h
  rw [Torrent.reap_eq]
  exact hle

/-- A step that respects the limit keeps every user within it. -/
lemma WithinPeerLimit.perform [RateField F] {op : Operation F}
    (hrespects : RespectsPeerLimit config id state op) (h : WithinPeerLimit config id state) :
    WithinPeerLimit config id (perform config state op) := by
  intro userId
  cases op with
  | announce env request =>
    simp only [Unit3dAnnounce.perform]
    cases hr : ((announce config env request).run state).2 with
    | error e =>
      unfold AppState.activePeers
      rw [(stores_of_rejected hr).2]
      exact h userId
    | ok a =>
      obtain ⟨torrent, torrent', ha⟩ := announce_ok hr
      have hrespected := hrespects _ ha.admission
      unfold AppState.activePeers
      rw [ha.torrents_eq, IndexMap.get?_modify]
      by_cases hid : id = a.torrentId
      · subst hid
        obtain ⟨peers', hp, htorrent, -⟩ := changeTorrent_ok ha.torrents.change
        rw [if_pos rfl, ha.torrents.stored, Option.map_some, Option.elim_some, htorrent]
        have hwithin (userId : UInt32) :
            torrent.activeOf userId ≤ config.maxPeersPerTorrentPerUser.toNat := by
          have hw := h userId
          simpa only [AppState.activePeers, ha.torrents.stored, Option.elim_some] using hw
        by_cases hu : userId = a.userId
        · rw [hu]
          exact changePeer_activeOf hp (hwithin a.userId) (hrespected rfl)
        · rw [changePeer_activeOf_of_ne hp hu]
          exact hwithin userId
      · rw [if_neg hid]
        exact h userId
  | reap activeNow inactiveNow =>
    simp only [Unit3dAnnounce.perform]
    cases hr : reap config activeNow inactiveNow state with
    | none => exact h userId
    | some state' =>
      obtain ⟨activeCutoff, inactiveCutoff, rfl⟩ := reap_some hr
      have hw := h userId
      simp only [AppState.activePeers, Option.getD_some, reapTorrents, IndexMap.get?_mapValues]
        at hw ⊢
      cases ht : state.stores.torrents.get? id with
      | none => simp
      | some torrent =>
        simp only [ht, Option.map_some, Option.elim_some] at hw ⊢
        exact le_trans (torrent.activeOf_reap_le activeCutoff inactiveCutoff userId) hw
  | destroyTorrent request =>
    have hw := h userId
    simp only [Unit3dAnnounce.perform, run_destroyTorrent, AppState.activePeers,
      IndexMap.get?_modify] at hw ⊢
    split_ifs
    · cases ht : state.stores.torrents.get? id with
      | none => simp
      | some torrent =>
        simp only [ht, Option.map_some, Option.elim_some] at hw ⊢
        exact hw
    · exact hw

end Steps

/-- From a torrent without peers on, as long as every announce respects the limit, no user has more
active peers than it allows. -/
theorem peer_limit_kept [RateField F] (config : Config F) (id : UInt32) (state : AppState F)
    (ops : List (Operation F))
    (hrespects : Along (perform config) (RespectsPeerLimit config id) state ops)
    (hempty : ∀ torrent, state.stores.torrents.get? id = some torrent → torrent.peers = .empty) :
    Always (perform config) (WithinPeerLimit config id) state ops := by
  refine hrespects.invariant (fun state op hr h => h.perform hr) ?_
  intro userId
  unfold AppState.activePeers
  cases ht : state.stores.torrents.get? id with
  | none => simp
  | some torrent =>
    have hzero : torrent.activeOf userId = 0 := by
      unfold Torrent.activeOf
      rw [hempty torrent ht]
      rfl
    simp [hzero]

/-- A second peer is refused while the first is active. -/
theorem peer_limit_kept_sample :
    Always (perform Sample.onePeerConfig) (WithinPeerLimit Sample.onePeerConfig 1)
      (Sample.state none [1])
      [.announce (Sample.env 0) (Sample.request 1 1 .started 5),
        .announce (Sample.env 60) (Sample.request 1 2 .started 5)] :=
  peer_limit_kept Sample.onePeerConfig 1 (Sample.state none [1])
    [.announce (Sample.env 0) (Sample.request 1 1 .started 5),
      .announce (Sample.env 60) (Sample.request 1 2 .started 5)]
    ⟨fun _ hadmission _ => Or.inr (by cases hadmission; exact Or.inl (by decide +kernel)),
      fun _ hadmission _ => Or.inr (by cases hadmission; exact Or.inl (by decide +kernel)), trivial⟩
    (fun torrent ht => by
      rw [(IndexMap.eq_of_get?_insert_empty ht).2]
      rfl)

/-- With one peer allowed, a second one is inserted after a reap has made the first inactive, and
then the first comes back. -/
theorem peer_limit_exceeded :
    ¬ ∀ ops, Always (perform Sample.onePeerConfig) (WithinPeerLimit Sample.onePeerConfig 1)
      (Sample.state none [1]) ops := by
  intro h
  have hlast := (h [.announce (Sample.env 0) (Sample.request 1 1 .started 5),
    .reap (Sample.time 7201) (Sample.time 7201),
    .announce (Sample.env 7202) (Sample.request 1 2 .started 5),
    .announce (Sample.env 7203) (Sample.request 1 1 .empty 5)]).last 1
  revert hlast
  decide +kernel

end Unit3dAnnounce
