import Unit3dAnnounce.Proofs.Announce

/-!
# Listed peers

A peer is in the seed list or in the leech list of its torrent, or in neither. Every operation
moves the number of listed peers of a torrent, and of a user, by exactly what it adds to their
counters.
-/

namespace Unit3dAnnounce

open Machine

inductive ListKind where
  | seed
  | leech
deriving DecidableEq

variable {F : Type}

def Peer.isListed (config : Config F) : ListKind → Peer → Bool
  | .seed => Peer.isIncludedInSeedList config
  | .leech => Peer.isIncludedInLeechList config

def Torrent.counter : ListKind → Torrent → UInt32
  | .seed => Torrent.seeders
  | .leech => Torrent.leechers

def User.counter : ListKind → User F → UInt32
  | .seed => User.numSeeding
  | .leech => User.numLeeching

def PeerChange.delta : ListKind → PeerChange → ℤ
  | .seed => PeerChange.seederDelta
  | .leech => PeerChange.leecherDelta

def ExpiryDeltas.delta : ListKind → ExpiryDeltas → ℤ
  | .seed => ExpiryDeltas.seederDelta
  | .leech => ExpiryDeltas.leecherDelta

section Counts

variable (config : Config F) (kind : ListKind)

/-- The number of listed peers of a torrent. -/
def Torrent.listed (torrent : Torrent) : ℕ :=
  torrent.peers.count (fun _ peer => peer.isListed config kind)

variable (userId : UInt32)

/-- The number of a user's listed peers of a torrent. -/
def Torrent.listedOf (torrent : Torrent) : ℕ :=
  torrent.peers.count (fun index peer => decide (index.userId = userId) && peer.isListed config kind)

/-- The number of a user's listed peers, over all torrents. -/
def TorrentStore.listedOf (torrents : TorrentStore) : ℕ :=
  torrents.sumOver (fun _ torrent => torrent.listedOf config kind userId)

end Counts

/-- The number of peers in memory. -/
def TorrentStore.peerCount (torrents : TorrentStore) : ℕ :=
  torrents.sumOver (fun _ torrent => torrent.peers.size)

lemma TorrentStore.listed_le_peerCount {torrents : TorrentStore} {id : UInt32} {torrent : Torrent}
    (h : torrents.get? id = some torrent) (config : Config F) (kind : ListKind) :
    torrent.listed config kind ≤ torrents.peerCount := by
  have h1 : torrent.listed config kind ≤ torrent.peers.size := IndexMap.count_le_size _ _
  have h2 : torrent.peers.size ≤ torrents.peerCount :=
    IndexMap.le_sumOver h (fun _ torrent => torrent.peers.size)
  omega

lemma TorrentStore.listedOf_le_peerCount (torrents : TorrentStore) (config : Config F)
    (kind : ListKind) (userId : UInt32) : torrents.listedOf config kind userId ≤ torrents.peerCount :=
  IndexMap.sumOver_le_sumOver torrents (fun _ _ => IndexMap.count_le_size _ _)

/-- Exchanging one torrent for another. -/
lemma TorrentStore.listedOf_modify {torrents : TorrentStore} {id : UInt32} {torrent : Torrent}
    (h : torrents.get? id = some torrent) (torrent' : Torrent) (config : Config F) (kind : ListKind)
    (userId : UInt32) :
    TorrentStore.listedOf config kind userId (torrents.modify id (fun _ => torrent')) +
      torrent.listedOf config kind userId =
      torrents.listedOf config kind userId + torrent'.listedOf config kind userId :=
  ((IndexMap.alters_modify h (fun _ => torrent')).sumOver
    (fun _ torrent => torrent.listedOf config kind userId)).symm

section Announce

variable {config : Config F}

lemma asI32_eq (b : Bool) : asI32 b = (b.toNat : ℤ) := by
  cases b <;> rfl

/-- The counter delta of an announce is what its peer is listed more than before. -/
lemma changePeer_delta {now : DateTime} {queries : Announce} {clientIp : IpAddr} {userId : UInt32}
    {isConnectable hit : Bool} {warnings : WarningCollection} {peers peers' : PeerStore}
    {change : PeerChange} (kind : ListKind)
    (h : changePeer config now queries clientIp userId isConnectable hit warnings peers =
      (peers', .ok change)) :
    change.delta kind + (peers.get? ⟨userId, queries.peerId⟩).elim 0
        (fun peer => ((peer.isListed config kind).toNat : ℤ)) =
      (announcedPeer config now queries clientIp isConnectable hit
        (peers.get? ⟨userId, queries.peerId⟩)).elim 0
        (fun peer => ((peer.isListed config kind).toNat : ℤ)) := by
  unfold announcedPeer
  cases changePeer_ok h with
  | stops hevent hpeer =>
    rw [if_pos hevent, hpeer]
    cases kind <;> simp [PeerChange.delta, Peer.isListed, asI32_eq]
  | renews hevent hpeer hnew =>
    rw [if_neg hevent, hpeer, hnew]
    cases kind <;> simp [PeerChange.delta, Peer.isListed, asI32_eq]
  | inserts hevent hpeer hnew hlimit =>
    rw [if_neg hevent, hpeer, hnew]
    cases kind <;> simp [PeerChange.delta, Peer.isListed, asI32_eq]

/-- An accepted announce moves the count of listed peers under any selection of keys. -/
lemma changePeer_count {now : DateTime} {queries : Announce} {clientIp : IpAddr} {userId : UInt32}
    {isConnectable hit : Bool} {warnings : WarningCollection} {peers peers' : PeerStore}
    {change : PeerChange} (kind : ListKind) (p : Peer.Index → Bool)
    (h : changePeer config now queries clientIp userId isConnectable hit warnings peers =
      (peers', .ok change)) :
    (peers'.count (fun index peer => p index && peer.isListed config kind) : ℤ) =
      peers.count (fun index peer => p index && peer.isListed config kind) +
        if p ⟨userId, queries.peerId⟩ then change.delta kind else 0 := by
  have hcount := (changePeer_alters h).count (fun index peer => p index && peer.isListed config kind)
  have hdelta := changePeer_delta kind h
  generalize announcedPeer _ _ _ _ _ _ _ = new at hcount hdelta
  generalize peers.get? _ = old at hcount hdelta
  cases hp : p ⟨userId, queries.peerId⟩ with
  | true =>
    simp only [hp, Bool.true_and, if_true] at hcount ⊢
    cases old <;> cases new <;> simp only [Option.elim_none, Option.elim_some] at hcount hdelta <;>
      omega
  | false =>
    simp only [hp, Bool.false_and, Bool.toNat_false] at hcount ⊢
    cases old <;> cases new <;> simp only [Option.elim_none, Option.elim_some] at hcount <;>
      simp <;> omega

variable [RateField F] {env : Env F} {request : AnnounceRequest} {isConnectable : Bool}
  {state : AppState F} {torrentId : UInt32} {torrent torrent' : Torrent} {result : TorrentResult F}

lemma TorrentSection.listed
    (h : TorrentSection config env request isConnectable state torrentId torrent torrent' result)
    (kind : ListKind) :
    (torrent'.listed config kind : ℤ) = torrent.listed config kind + result.change.delta kind := by
  obtain ⟨peers', hp, htorrent, -⟩ := changeTorrent_ok h.change
  have hcount := changePeer_count kind (fun _ => true) hp
  simp only [Bool.true_and, if_true] at hcount
  rw [htorrent]
  exact hcount

lemma TorrentSection.listedOf
    (h : TorrentSection config env request isConnectable state torrentId torrent torrent' result)
    (kind : ListKind) (userId : UInt32) :
    (torrent'.listedOf config kind userId : ℤ) = torrent.listedOf config kind userId +
      if result.userId = userId then result.change.delta kind else 0 := by
  obtain ⟨peers', hp, htorrent, -⟩ := changeTorrent_ok h.change
  have hcount := changePeer_count kind (fun index => decide (index.userId = userId)) hp
  simp only [decide_eq_true_eq] at hcount
  rw [htorrent]
  exact hcount

lemma TorrentSection.counter
    (h : TorrentSection config env request isConnectable state torrentId torrent torrent' result)
    (kind : ListKind) :
    torrent'.counter kind = saturatingAddSigned (torrent.counter kind) (result.change.delta kind) := by
  obtain ⟨peers', -, htorrent, -⟩ := changeTorrent_ok h.change
  rw [htorrent]
  cases kind <;> rfl

lemma TorrentSection.storeListedOf
    (h : TorrentSection config env request isConnectable state torrentId torrent torrent' result)
    (kind : ListKind) (userId : UInt32) :
    (TorrentStore.listedOf config kind userId
        (state.stores.torrents.modify torrentId (fun _ => torrent')) : ℤ) =
      state.stores.torrents.listedOf config kind userId +
        if result.userId = userId then result.change.delta kind else 0 := by
  have hmodify := TorrentStore.listedOf_modify h.stored torrent' config kind userId
  have hone := h.listedOf kind userId
  omega

variable {a : Accepted F} {state' : AppState F}

/-- The torrents after an accepted announce. -/
lemma AcceptedBy.torrents_eq (h : AcceptedBy config env request state a torrent torrent') :
    ((announce config env request).run state).1.stores.torrents =
      state.stores.torrents.modify a.torrentId (fun _ => torrent') := by
  obtain ⟨ports, hs⟩ := h.state
  rw [hs]
  rfl

lemma AcceptedBy.storeListedOf (h : AcceptedBy config env request state a torrent torrent')
    (kind : ListKind) (userId : UInt32) :
    (((announce config env request).run state).1.stores.torrents.listedOf config kind userId : ℤ) =
      state.stores.torrents.listedOf config kind userId +
        if a.userId = userId then a.change.delta kind else 0 := by
  rw [h.torrents_eq]
  exact h.torrents.storeListedOf kind userId

/-- An accepted announce adjusts the counters of its own user only, and keeps groups. -/
lemma AcceptedBy.user_of_get? (h : AcceptedBy config env request state a torrent torrent')
    {userId : UInt32} {user' : User F}
    (hu : ((announce config env request).run state).1.stores.users.get? userId = some user') :
    ∃ user, state.stores.users.get? userId = some user ∧ user'.groupId = user.groupId ∧
      ∀ kind, user'.counter kind = saturatingAddSigned (user.counter kind)
        (if a.userId = userId then a.change.delta kind else 0) := by
  obtain ⟨ports, hs⟩ := h.state
  rw [hs] at hu
  by_cases ht : a.touchesUser = true
  · simp only [Accepted.published, ht, if_true, IndexMap.get?_modify] at hu
    by_cases hid : userId = a.userId
    · subst hid
      simp only [if_true, Option.map_eq_some_iff] at hu
      obtain ⟨user, hu, rfl⟩ := hu
      refine ⟨user, hu, rfl, ?_⟩
      intro kind
      rw [if_pos rfl]
      cases kind <;> rfl
    · have hid' : ¬ a.userId = userId := fun he => hid he.symm
      simp only [hid, if_false] at hu
      refine ⟨user', hu, rfl, ?_⟩
      intro kind
      rw [if_neg hid', saturatingAddSigned_zero]
  · simp only [Accepted.published, ht] at hu
    refine ⟨user', hu, rfl, ?_⟩
    intro kind
    simp only [Accepted.touchesUser, Bool.or_eq_true, decide_eq_true_eq, not_or, not_not] at ht
    have hdelta : a.change.delta kind = 0 := by
      cases kind
      · exact ht.1.1.1
      · exact ht.1.1.2
    rw [hdelta, ite_self, saturatingAddSigned_zero]

end Announce

section Reap

variable (config : Config F) (activeCutoff inactiveCutoff : DateTime)

/-- The peers of a list that a reap takes out of it. -/
def Peer.isDropped (kind : ListKind) (peer : Peer) : Bool :=
  peer.isListed config kind && peer.isExpired activeCutoff

/-- How many listed peers of a torrent a reap drops. -/
def Torrent.dropped (kind : ListKind) (torrent : Torrent) : ℕ :=
  torrent.peers.count (fun _ peer => peer.isDropped config activeCutoff kind)

/-- How many listed peers of a user, in one torrent, a reap drops. -/
def Torrent.droppedOf (kind : ListKind) (userId : UInt32) (torrent : Torrent) : ℕ :=
  torrent.peers.count
    (fun index peer => decide (index.userId = userId) && peer.isDropped config activeCutoff kind)

def TorrentStore.droppedOf (kind : ListKind) (userId : UInt32) (torrents : TorrentStore) : ℕ :=
  torrents.sumOver (fun _ torrent => torrent.droppedOf config activeCutoff kind userId)

/-- A user with so many peers fewer. -/
def User.less (n : ListKind → ℕ) (user : User F) : User F :=
  { user with
    numSeeding := UInt32.ofNat (user.numSeeding.toNat - n .seed)
    numLeeching := UInt32.ofNat (user.numLeeching.toNat - n .leech) }

variable {config activeCutoff inactiveCutoff}

lemma Peer.isActive_of_isListed {kind : ListKind} {peer : Peer} (h : peer.isListed config kind = true) :
    peer.isActive = true := by
  cases kind <;>
    simp only [Peer.isListed, Peer.isIncludedInSeedList, Peer.isIncludedInLeechList,
      Peer.isIncludedInPeerList] at h <;> split at h <;> simp_all

lemma Peer.isListed_expire (kind : ListKind) (peer : Peer) :
    (peer.expire activeCutoff).isListed config kind =
      (peer.isListed config kind && !peer.isExpired activeCutoff) := by
  unfold Peer.expire
  cases he : peer.isExpired activeCutoff with
  | false => simp
  | true =>
    cases kind <;>
      simp [Peer.isListed, Peer.isIncludedInSeedList, Peer.isIncludedInLeechList,
        Peer.isIncludedInPeerList]

variable (config activeCutoff inactiveCutoff)

/-- What a reap leaves of the peers under any selection of keys. -/
lemma retainRecent_count (peers : PeerStore) (kind : ListKind) (p : Peer.Index → Bool) :
    ((peers.retainRecent inactiveCutoff).mapValues (fun _ peer => peer.expire activeCutoff)).count
        (fun index peer => p index && peer.isListed config kind) +
      peers.count (fun index peer => p index && peer.isDropped config activeCutoff kind) =
      peers.count (fun index peer => p index && peer.isListed config kind) := by
  have hkept : (peers.retainRecent inactiveCutoff).count
      (fun index peer => p index && (peer.isListed config kind && !peer.isExpired activeCutoff)) =
      peers.count
        (fun index peer => p index && (peer.isListed config kind && !peer.isExpired activeCutoff)) := by
    apply IndexMap.count_retain
    intro index peer h
    simp only [Bool.and_eq_true] at h
    simp [Peer.isActive_of_isListed h.2.1]
  have hsplit := IndexMap.count_and_add_count_and_not peers
    (fun index peer => p index && peer.isListed config kind)
    (fun _ peer => peer.isExpired activeCutoff)
  simp only [Bool.and_assoc] at hsplit
  simp only [IndexMap.count_mapValues, Peer.isListed_expire, hkept, Peer.isDropped]
  omega

lemma Torrent.listed_reap (torrent : Torrent) (kind : ListKind) :
    (torrent.reap config activeCutoff inactiveCutoff).1.listed config kind +
      torrent.dropped config activeCutoff kind = torrent.listed config kind := by
  have hcount := retainRecent_count config activeCutoff inactiveCutoff torrent.peers kind
    (fun _ => true)
  simp only [Bool.true_and] at hcount
  rw [Torrent.reap_eq]
  exact hcount

lemma Torrent.listedOf_reap (torrent : Torrent) (kind : ListKind) (userId : UInt32) :
    (torrent.reap config activeCutoff inactiveCutoff).1.listedOf config kind userId +
      torrent.droppedOf config activeCutoff kind userId = torrent.listedOf config kind userId := by
  have hcount := retainRecent_count config activeCutoff inactiveCutoff torrent.peers kind
    (fun index => decide (index.userId = userId))
  rw [Torrent.reap_eq]
  exact hcount

lemma retainRecent_count_dropped (peers : PeerStore) (kind : ListKind) (p : Peer.Index → Bool) :
    (peers.retainRecent inactiveCutoff).count
        (fun index peer => p index && peer.isDropped config activeCutoff kind) =
      peers.count (fun index peer => p index && peer.isDropped config activeCutoff kind) := by
  apply IndexMap.count_retain
  intro index peer h
  simp only [Peer.isDropped, Bool.and_eq_true] at h
  simp [Peer.isActive_of_isListed h.2.1]

lemma ExpiryDeltas.delta_count (deltas : ExpiryDeltas) (peer : Peer) (kind : ListKind) :
    (deltas.count config activeCutoff peer).delta kind =
      deltas.delta kind - ((peer.isDropped config activeCutoff kind).toNat : ℤ) := by
  unfold ExpiryDeltas.count
  cases he : peer.isExpired activeCutoff <;> cases hl : peer.isIncludedInPeerList config <;>
    cases hs : peer.isSeeder <;> cases kind <;>
    simp [ExpiryDeltas.delta, Peer.isDropped, Peer.isListed, Peer.isIncludedInSeedList,
      Peer.isIncludedInLeechList, he, hl, hs]

/-- What the loop has counted after some of the peers. -/
def ExpiryDeltas.after (l : List (Peer.Index × Peer)) : ExpiryDeltas :=
  l.foldl (fun deltas entry => deltas.count config activeCutoff entry.2) ⟨0, 0⟩

lemma ExpiryDeltas.delta_after (l : List (Peer.Index × Peer)) (kind : ListKind) :
    (ExpiryDeltas.after config activeCutoff l).delta kind =
      -(l.countP (fun entry => entry.2.isDropped config activeCutoff kind) : ℤ) := by
  induction l using List.reverseRecOn with
  | nil => cases kind <;> rfl
  | append_singleton l entry ih =>
    rw [after, List.foldl_concat, ExpiryDeltas.delta_count, ← after, ih, List.countP_append,
      List.countP_singleton]
    cases entry.2.isDropped config activeCutoff kind
    · simp
    · simp only [Bool.toNat_true, if_true]
      omega

/-- The loop over the peers counts what it drops. -/
lemma PeerStore.delta_expiryDeltas (peers : PeerStore) (kind : ListKind) :
    (peers.expiryDeltas config activeCutoff).delta kind =
      -(peers.count (fun _ peer => peer.isDropped config activeCutoff kind) : ℤ) :=
  ExpiryDeltas.delta_after config activeCutoff peers.entries kind

/-- In a store with no more peers than that, an `i32` counts them without wrapping at any point of the
loop. -/
lemma PeerStore.expiryDeltas_inRange {peers : PeerStore} (hsize : peers.size ≤ 2 ^ 31)
    {before : List (Peer.Index × Peer)} (hbefore : before <+: peers.entries) (kind : ListKind) :
    -2 ^ 31 ≤ (ExpiryDeltas.after config activeCutoff before).delta kind ∧
      (ExpiryDeltas.after config activeCutoff before).delta kind ≤ 0 := by
  rw [ExpiryDeltas.delta_after]
  have hcount := List.countP_le_length (p := fun entry : Peer.Index × Peer =>
    entry.2.isDropped config activeCutoff kind) (l := before)
  have hlength := hbefore.length_le
  rw [IndexMap.size] at hsize
  omega

lemma Torrent.delta_reap (torrent : Torrent) (kind : ListKind) :
    (torrent.reap config activeCutoff inactiveCutoff).2.delta kind =
      -(torrent.dropped config activeCutoff kind : ℤ) := by
  have hdelta := PeerStore.delta_expiryDeltas config activeCutoff
    (torrent.peers.retainRecent inactiveCutoff) kind
  have hkept := retainRecent_count_dropped config activeCutoff inactiveCutoff torrent.peers kind
    (fun _ => true)
  simp only [Bool.true_and] at hkept
  rw [hkept] at hdelta
  rw [Torrent.reap_eq]
  exact hdelta

lemma Torrent.counter_reap (torrent : Torrent) (kind : ListKind) :
    (torrent.reap config activeCutoff inactiveCutoff).1.counter kind =
      saturatingAddSigned (torrent.counter kind) (-(torrent.dropped config activeCutoff kind : ℤ)) := by
  rw [← Torrent.delta_reap config activeCutoff inactiveCutoff]
  rw [Torrent.reap_eq]
  cases kind with
  | seed => rfl
  | leech => rfl

lemma User.less_zero (user : User F) : user.less (fun _ => 0) = user := by
  simp [User.less]

lemma User.toNat_counter_less (user : User F) (n : ListKind → ℕ) (kind : ListKind) :
    ((user.less n).counter kind).toNat = (user.counter kind).toNat - n kind := by
  have h1 := user.numSeeding.toNat_lt
  have h2 := user.numLeeching.toNat_lt
  have hsize : UInt32.size = 2 ^ 32 := rfl
  cases kind
  · exact UInt32.toNat_ofNat_of_lt' (by omega)
  · exact UInt32.toNat_ofNat_of_lt' (by omega)

lemma User.less_less (user : User F) (m n : ListKind → ℕ) :
    (user.less m).less n = user.less (fun kind => m kind + n kind) := by
  have h1 := User.toNat_counter_less user m .seed
  have h2 := User.toNat_counter_less user m .leech
  simp only [User.counter] at h1 h2
  unfold User.less at *
  simp only [h1, h2, Nat.sub_sub]

/-- What one peer of the loop takes off a user. -/
def droppedEntry (config : Config F) (activeCutoff : DateTime) (userId : UInt32)
    (entry : Peer.Index × Peer) (kind : ListKind) : Bool :=
  decide (entry.1.userId = userId) && entry.2.isDropped config activeCutoff kind

lemma saturatingSubU32_one (x : UInt32) : saturatingSubU32 x 1 = UInt32.ofNat (x.toNat - 1) := by
  have h := toNat_saturatingSubU32 x 1
  rw [UInt32.toNat_one] at h
  rw [← h, UInt32.ofNat_toNat]

lemma UserStore.dischargePeer_eq (users : UserStore F) (entry : Peer.Index × Peer) :
    users.dischargePeer config activeCutoff entry = users.mapValues (fun userId user =>
      user.less (fun kind => (droppedEntry config activeCutoff userId entry kind).toNat)) := by
  obtain ⟨index, peer⟩ := entry
  unfold UserStore.dischargePeer
  split_ifs with h
  · rw [IndexMap.modify_eq_mapValues]
    congr 1
    funext userId user
    simp only [Bool.and_eq_true] at h
    by_cases hid : userId = index.userId
    · subst hid
      cases hs : peer.isSeeder <;>
        simp [User.discharge, User.less, droppedEntry, Peer.isDropped, Peer.isListed,
          Peer.isIncludedInSeedList, Peer.isIncludedInLeechList, h.1, h.2, hs,
          saturatingSubU32_one]
    · have hid' : ¬ index.userId = userId := fun he => hid he.symm
      simp [hid, hid', droppedEntry, User.less_zero]
  · refine (IndexMap.mapValues_eq_self users ?_).symm
    intro userId user
    have hd (kind : ListKind) : peer.isDropped config activeCutoff kind = false := by
      simp only [Bool.and_eq_true, not_and, Bool.not_eq_true] at h
      cases he : peer.isExpired activeCutoff with
      | false => simp [Peer.isDropped, he]
      | true =>
        cases kind <;> simp [Peer.isDropped, Peer.isListed, Peer.isIncludedInSeedList,
          Peer.isIncludedInLeechList, h he]
    simp [droppedEntry, hd, User.less_zero]

/-- The loop over peers takes from each user as many as it drops, in whatever order they come. -/
lemma UserStore.foldl_dischargePeer (users : UserStore F) (l : List (Peer.Index × Peer)) :
    l.foldl (UserStore.dischargePeer config activeCutoff) users = users.mapValues (fun userId user =>
      user.less (fun kind =>
        l.countP (fun entry => droppedEntry config activeCutoff userId entry kind))) := by
  induction l generalizing users with
  | nil => exact (IndexMap.mapValues_eq_self users (fun _ user => user.less_zero)).symm
  | cons entry l ih =>
    rw [List.foldl_cons, ih, UserStore.dischargePeer_eq, IndexMap.mapValues_mapValues]
    congr 1
    funext userId user
    rw [User.less_less]
    congr 1
    funext kind
    rw [List.countP_cons, Nat.add_comm]
    cases droppedEntry config activeCutoff userId entry kind <;> rfl

variable {config} in
lemma reap_some {activeNow inactiveNow : DateTime} {state state' : AppState F}
    (h : reap config activeNow inactiveNow state = some state') :
    ∃ activeCutoff inactiveCutoff, state' = reapTorrents config activeCutoff inactiveCutoff state := by
  simp only [reap, Option.bind_eq_bind, Option.bind_eq_some_iff, Option.pure_def,
    Option.some_inj] at h
  obtain ⟨activeCutoff, -, inactiveCutoff, -, rfl⟩ := h
  exact ⟨activeCutoff, inactiveCutoff, rfl⟩

/-- The peers that the loops of a reap visit. -/
def TorrentStore.reapedPeers (inactiveCutoff : DateTime) (torrents : TorrentStore) :
    List (Peer.Index × Peer) :=
  torrents.entries.flatMap (fun entry => (entry.2.peers.retainRecent inactiveCutoff).entries)

lemma TorrentStore.countP_reapedPeers (torrents : TorrentStore) (kind : ListKind) (userId : UInt32) :
    (torrents.reapedPeers inactiveCutoff).countP
        (fun entry => droppedEntry config activeCutoff userId entry kind) =
      torrents.droppedOf config activeCutoff kind userId := by
  rw [TorrentStore.reapedPeers, List.countP_flatMap]
  unfold TorrentStore.droppedOf IndexMap.sumOver
  congr 1
  apply List.map_congr_left
  intro entry _
  exact retainRecent_count_dropped config activeCutoff inactiveCutoff entry.2.peers kind
    (fun index => decide (index.userId = userId))

lemma users_reapTorrents (state : AppState F) :
    (reapTorrents config activeCutoff inactiveCutoff state).stores.users =
      state.stores.users.mapValues (fun userId user =>
        user.less (fun kind => state.stores.torrents.droppedOf config activeCutoff kind userId)) := by
  have hfold : (reapTorrents config activeCutoff inactiveCutoff state).stores.users =
      (state.stores.torrents.reapedPeers inactiveCutoff).foldl
        (UserStore.dischargePeer config activeCutoff) state.stores.users := by
    rw [TorrentStore.reapedPeers, List.foldl_flatMap]
    rfl
  rw [hfold, UserStore.foldl_dischargePeer]
  simp only [TorrentStore.countP_reapedPeers]

lemma storeListedOf_reapTorrents (state : AppState F) (kind : ListKind) (userId : UInt32) :
    (reapTorrents config activeCutoff inactiveCutoff state).stores.torrents.listedOf config kind userId +
      state.stores.torrents.droppedOf config activeCutoff kind userId =
      state.stores.torrents.listedOf config kind userId := by
  simp only [reapTorrents, TorrentStore.listedOf, TorrentStore.droppedOf, IndexMap.sumOver_mapValues]
  rw [← IndexMap.sumOver_add]
  apply IndexMap.sumOver_congr
  intro entry _
  exact entry.2.listedOf_reap config activeCutoff inactiveCutoff kind userId

end Reap

lemma run_destroyTorrent (request : APIRemoveTorrent) (state : AppState F) :
    ((destroyTorrent request).run state).1 = { state with
      stores.torrents := state.stores.torrents.modify request.id
        (fun torrent => { torrent with isDeleted := true }) } := by
  simp only [destroyTorrent, Handler.run_atomically]
  cases hc : state.stores.torrents.contains request.id with
  | true => rfl
  | false =>
    rw [IndexMap.modify_of_get?_none (IndexMap.contains_eq_false.mp hc)]
    rfl

lemma storeListedOf_delete (torrents : TorrentStore) (id : UInt32) (config : Config F)
    (kind : ListKind) (userId : UInt32) :
    TorrentStore.listedOf config kind userId
        (torrents.modify id (fun torrent => { torrent with isDeleted := true })) =
      torrents.listedOf config kind userId := by
  rw [IndexMap.modify_eq_mapValues, TorrentStore.listedOf, IndexMap.sumOver_mapValues]
  apply IndexMap.sumOver_congr
  intro entry _
  by_cases h : entry.1 = id
  · rw [if_pos h]
    rfl
  · rw [if_neg h]

end Unit3dAnnounce
