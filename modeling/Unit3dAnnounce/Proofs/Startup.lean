import Unit3dAnnounce.Model.Startup
import Unit3dAnnounce.Proofs.Counters

/-!
# The counters at startup

The stores that are loaded count the rows of the peers table. A torrent counts what its list
holds. A user counts every active and visible row of theirs, so the counts agree only where each
of these rows is loaded and listed.
-/

namespace Unit3dAnnounce

variable {F : Type}

/-- The rows on one side of `seeder`, as the aggregate over the users sums them up. -/
def PeerRow.isOf : ListKind → PeerRow → Bool
  | .seed, row => row.seeder
  | .leech, row => !row.seeder

lemma PeerRow.isListed_toPeer {row : PeerRow} {peer : Peer} (h : row.toPeer = some peer)
    (config : Config F) (kind : ListKind) :
    peer.isListed config kind = (row.isOf kind && row.isCounted config) := by
  unfold PeerRow.toPeer at h
  simp only [Option.bind_eq_bind, Option.bind_eq_some_iff, Option.pure_def, Option.some_inj] at h
  obtain ⟨ipAddress, -, updatedAt, -, rfl⟩ := h
  cases kind <;>
    simp only [Peer.isListed, Peer.isIncludedInSeedList, Peer.isIncludedInLeechList,
      Peer.isIncludedInPeerList, PeerRow.isOf, PeerRow.isCounted] <;>
    cases config.requirePeerConnectivity <;> simp

section LoadPeers

/-- The torrent of a peer, if it is stored, does not have the peer yet. -/
def TorrentStore.Lacks (store : TorrentStore) (key : PeerUpdate.Index) : Prop :=
  ∀ torrent, store.get? key.torrentId = some torrent →
    torrent.peers.get? ⟨key.userId, key.peerId⟩ = none

/-- What a row adds to the listed peers under a selection of keys. -/
def selects (config : Config F) (kind : ListKind) (p : Peer.Index → Bool)
    (key : PeerUpdate.Index) (row : PeerRow) : Bool :=
  p ⟨key.userId, key.peerId⟩ && (row.isOf kind && row.isCounted config)

variable {store store' : TorrentStore} {row : PeerUpdate.Index × PeerRow}

lemma TorrentStore.loadPeer_some (h : store.loadPeer row = some store') :
    store.contains row.1.torrentId = false ∧ store' = store ∨
      ∃ peer torrent, row.2.toPeer = some peer ∧ store.get? row.1.torrentId = some torrent ∧
        store' = store.modify row.1.torrentId (fun torrent =>
          { torrent with peers := torrent.peers.insert ⟨row.1.userId, row.1.peerId⟩ peer }) := by
  unfold TorrentStore.loadPeer at h
  cases hc : store.contains row.1.torrentId with
  | false =>
    simp only [hc, Bool.false_eq_true, if_false, Option.some_inj] at h
    exact Or.inl ⟨rfl, h.symm⟩
  | true =>
    simp only [hc, if_true, Option.map_eq_some_iff] at h
    obtain ⟨peer, hpeer, rfl⟩ := h
    obtain ⟨torrent, htorrent⟩ := IndexMap.contains_eq_true.mp hc
    exact Or.inr ⟨peer, torrent, hpeer, htorrent, rfl⟩

variable (config : Config F)

lemma PeerStore.count_insert_toPeer {peers : PeerStore} {index : Peer.Index} {row : PeerRow}
    {peer : Peer} (hnone : peers.get? index = none) (hpeer : row.toPeer = some peer) (kind : ListKind)
    (p : Peer.Index → Bool) :
    (peers.insert index peer).count (fun index peer => p index && peer.isListed config kind) =
      peers.count (fun index peer => p index && peer.isListed config kind) +
        (p index && (row.isOf kind && row.isCounted config)).toNat := by
  have hcount := (IndexMap.alters_insert hnone peer).count
    (fun index peer => p index && peer.isListed config kind)
  rw [Option.elim_some, Option.elim_none, PeerRow.isListed_toPeer hpeer] at hcount
  omega

/-- Where its torrent is stored, a new row is one more peer of it. Nothing else changes. -/
lemma TorrentStore.get?_loadPeer (h : store.loadPeer row = some store') (hlacks : store.Lacks row.1)
    (kind : ListKind) (p : Peer.Index → Bool) {id : UInt32} {torrent : Torrent}
    (ht : store.get? id = some torrent) :
    ∃ peers, store'.get? id = some { torrent with peers := peers } ∧
      peers.count (fun index peer => p index && peer.isListed config kind) =
        torrent.peers.count (fun index peer => p index && peer.isListed config kind) +
          (decide (row.1.torrentId = id) && selects config kind p row.1 row.2).toNat := by
  rcases TorrentStore.loadPeer_some h with ⟨hc, rfl⟩ | ⟨peer, torrent', hpeer, -, rfl⟩
  · have hne : row.1.torrentId ≠ id := by
      rintro rfl
      rw [IndexMap.contains_eq_false.mp hc] at ht
      simp at ht
    exact ⟨torrent.peers, ht, by simp [hne]⟩
  · rw [IndexMap.get?_modify]
    by_cases hid : id = row.1.torrentId
    · subst hid
      rw [if_pos rfl, ht, Option.map_some]
      refine ⟨_, rfl, ?_⟩
      rw [PeerStore.count_insert_toPeer config (hlacks torrent ht) hpeer]
      simp [selects]
    · have hne : ¬ row.1.torrentId = id := fun he => hid he.symm
      rw [if_neg hid]
      exact ⟨torrent.peers, ht, by simp [hne]⟩

lemma TorrentStore.sumOver_loadPeer (h : store.loadPeer row = some store')
    (hlacks : store.Lacks row.1) (kind : ListKind) (p : Peer.Index → Bool) :
    store'.sumOver (fun _ torrent =>
        torrent.peers.count (fun index peer => p index && peer.isListed config kind)) =
      store.sumOver (fun _ torrent =>
        torrent.peers.count (fun index peer => p index && peer.isListed config kind)) +
        (store.contains row.1.torrentId && selects config kind p row.1 row.2).toNat := by
  rcases TorrentStore.loadPeer_some h with ⟨hc, rfl⟩ | ⟨peer, torrent, hpeer, ht, rfl⟩
  · simp [hc]
  · have hsum := (IndexMap.alters_modify ht (fun torrent =>
      { torrent with peers := torrent.peers.insert ⟨row.1.userId, row.1.peerId⟩ peer })).sumOver
      (fun _ torrent =>
        torrent.peers.count (fun index peer => p index && peer.isListed config kind))
    have hinsert := PeerStore.count_insert_toPeer config (hlacks torrent ht) hpeer kind p
    have hc : store.contains row.1.torrentId = true := IndexMap.contains_eq_true.mpr ⟨torrent, ht⟩
    simp only [Option.elim_some] at hsum
    rw [hc, Bool.true_and, selects]
    omega

lemma TorrentStore.contains_loadPeer (h : store.loadPeer row = some store') (id : UInt32) :
    store'.contains id = store.contains id := by
  rcases TorrentStore.loadPeer_some h with ⟨-, rfl⟩ | ⟨peer, torrent, -, -, rfl⟩
  · rfl
  · unfold IndexMap.contains
    rw [IndexMap.get?_modify]
    by_cases hid : id = row.1.torrentId <;> simp [hid]

lemma TorrentStore.Lacks.loadPeer {key : PeerUpdate.Index} (hlacks : store.Lacks key)
    (h : store.loadPeer row = some store') (hne : key ≠ row.1) : store'.Lacks key := by
  intro torrent ht
  rcases TorrentStore.loadPeer_some h with ⟨-, rfl⟩ | ⟨peer, torrent', -, ht', rfl⟩
  · exact hlacks torrent ht
  · rw [IndexMap.get?_modify] at ht
    by_cases hid : key.torrentId = row.1.torrentId
    · rw [if_pos hid, hid, ht', Option.map_some, Option.some_inj] at ht
      subst ht
      have hindex : (⟨key.userId, key.peerId⟩ : Peer.Index) ≠ ⟨row.1.userId, row.1.peerId⟩ := by
        intro he
        simp only [Peer.Index.mk.injEq] at he
        apply hne
        obtain ⟨⟨tid, uid, pid⟩, r⟩ := row
        obtain ⟨tid', uid', pid'⟩ := key
        simp only at hid he
        rw [hid, he.1, he.2]
      rw [IndexMap.get?_insert, if_neg hindex]
      exact hlacks torrent' (hid ▸ ht')
    · rw [if_neg hid] at ht
      exact hlacks torrent ht

/-- What loading a list of new rows makes of the stored torrents. -/
structure Loaded (config : Config F) (rows : List (PeerUpdate.Index × PeerRow))
    (store store' : TorrentStore) : Prop where
  contains : ∀ id, store'.contains id = store.contains id
  torrent : ∀ kind p id torrent, store.get? id = some torrent →
    ∃ peers, store'.get? id = some { torrent with peers := peers } ∧
      peers.count (fun index peer => p index && peer.isListed config kind) =
        torrent.peers.count (fun index peer => p index && peer.isListed config kind) +
          rows.countP (fun row => decide (row.1.torrentId = id) && selects config kind p row.1 row.2)
  total : ∀ kind p, store'.sumOver (fun _ torrent =>
      torrent.peers.count (fun index peer => p index && peer.isListed config kind)) =
    store.sumOver (fun _ torrent =>
      torrent.peers.count (fun index peer => p index && peer.isListed config kind)) +
      rows.countP (fun row => store.contains row.1.torrentId && selects config kind p row.1 row.2)

lemma Loaded.nil (config : Config F) (store : TorrentStore) : Loaded config [] store store :=
  ⟨fun _ => rfl, fun _ _ _ torrent ht => ⟨torrent.peers, ht, rfl⟩, fun _ _ => rfl⟩

/-- One row, and then the others. -/
lemma Loaded.cons {store'' : TorrentStore} {rows : List (PeerUpdate.Index × PeerRow)}
    (h : store.loadPeer row = some store') (hlacks : store.Lacks row.1)
    (hrest : Loaded config rows store' store'') : Loaded config (row :: rows) store store'' := by
  have hcontains := TorrentStore.contains_loadPeer h
  constructor
  · intro id
    rw [hrest.contains, hcontains]
  · intro kind p id torrent ht
    obtain ⟨peers', ht', hcount'⟩ := TorrentStore.get?_loadPeer config h hlacks kind p ht
    obtain ⟨peers'', ht'', hcount''⟩ := hrest.torrent kind p id _ ht'
    refine ⟨peers'', ht'', ?_⟩
    rw [hcount'', hcount', List.countP_cons]
    cases decide (row.1.torrentId = id) && selects config kind p row.1 row.2 <;> simp
    omega
  · intro kind p
    have hstep := TorrentStore.sumOver_loadPeer config h hlacks kind p
    rw [hrest.total kind p, hstep, List.countP_cons]
    simp only [hcontains]
    cases store.contains row.1.torrentId && selects config kind p row.1 row.2 <;> simp
    omega

lemma loaded_of_foldlM {rows : List (PeerUpdate.Index × PeerRow)} (hnodup : (rows.map Prod.fst).Nodup)
    (h : rows.foldlM TorrentStore.loadPeer store = some store')
    (hlacks : ∀ row ∈ rows, store.Lacks row.1) : Loaded config rows store store' := by
  induction rows generalizing store with
  | nil =>
    simp only [List.foldlM_nil, Option.pure_def, Option.some_inj] at h
    rw [h]
    exact Loaded.nil config store'
  | cons row rows ih =>
    rw [List.map_cons, List.nodup_cons] at hnodup
    rw [List.foldlM_cons, Option.bind_eq_bind, Option.bind_eq_some_iff] at h
    obtain ⟨store₁, hstep, hrest⟩ := h
    refine Loaded.cons config hstep (hlacks row List.mem_cons_self) (ih hnodup.2 hrest ?_)
    intro row' hrow'
    have hne : row'.1 ≠ row.1 := fun he => hnodup.1 (he ▸ List.mem_map_of_mem hrow')
    exact (hlacks row' (List.mem_cons_of_mem _ hrow')).loadPeer hstep hne

end LoadPeers

section LoadTorrents

variable {config : Config F} {db : Database}

lemma toNat_of_readInt {n : ℕ} {x : UInt32} (h : readInt n = some x) : x.toNat = n := by
  unfold readInt at h
  split_ifs at h with hn
  rw [Option.some_inj] at h
  rw [← h, UInt32.ofInt]
  have hlt : n < 2 ^ 32 := by omega
  have hmod : ((n : ℤ) % 2 ^ 32).toNat = n := by omega
  rw [hmod, UInt32.toNat_ofNat_of_lt' hlt]

lemma toNat_of_readCount {n : ℕ} {x : UInt32} (h : readCount n = some x) : x.toNat = n := by
  unfold readCount at h
  split_ifs at h with hn
  rw [Option.some_inj] at h
  rw [← h, UInt32.toNat_ofNat_of_lt' hn]

/-- The peers are seeders exactly where nothing is left. -/
def Database.SeedersHaveNoneLeft (db : Database) : Prop :=
  ∀ key row, db.peers.get? key = some row → row.seeder = decide (row.left = 0)

def TorrentRow.count : ListKind → TorrentRow → ℤ
  | .seed => TorrentRow.seeders
  | .leech => TorrentRow.leechers

lemma Database.minId_sync (db : Database) (infoHash : InfoHash) {p : TorrentRow → Bool}
    (hp : ∀ row seeders leechers, p { row with seeders := seeders, leechers := leechers } = p row) :
    (syncPeerCountAggregates config db).minId infoHash p = db.minId infoHash p := by
  unfold Database.minId
  simp only [syncPeerCountAggregates, IndexMap.mapValues, List.filter_map, List.map_map]
  have hfilter : ((fun e : UInt32 × TorrentRow => decide (e.2.infoHash = infoHash) && p e.2) ∘
      fun e : UInt32 × TorrentRow => (e.1, TorrentRow.syncPeerCounts config db e.1 e.2)) =
      fun e : UInt32 × TorrentRow => decide (e.2.infoHash = infoHash) && p e.2 := by
    funext e
    simp only [Function.comp_apply, TorrentRow.syncPeerCounts]
    split
    · rw [hp]
    · rfl
  rw [hfilter]
  rfl

/-- The synchronization does not change which torrents are loaded. -/
lemma Database.distinctTorrent_sync (db : Database) (infoHash : InfoHash) :
    (syncPeerCountAggregates config db).distinctTorrent infoHash = db.distinctTorrent infoHash := by
  unfold Database.distinctTorrent
  rw [db.minId_sync infoHash (fun _ _ _ => rfl), db.minId_sync infoHash (fun _ _ _ => rfl),
    db.minId_sync infoHash (fun _ _ _ => rfl)]

lemma Database.get?_distinctTorrents_sync (db : Database) (id : UInt32) :
    (syncPeerCountAggregates config db).distinctTorrents.get? id =
      (db.distinctTorrents.get? id).map (TorrentRow.syncPeerCounts config db id) := by
  unfold Database.distinctTorrents
  rw [IndexMap.get?_retain, IndexMap.get?_retain]
  have hget : (syncPeerCountAggregates config db).torrents.get? id =
      (db.torrents.get? id).map (TorrentRow.syncPeerCounts config db id) :=
    IndexMap.get?_mapValues _ _ _
  rw [hget, Option.filter_map]
  congr 1
  have hinfo (row : TorrentRow) :
      (TorrentRow.syncPeerCounts config db id row).infoHash = row.infoHash := by
    unfold TorrentRow.syncPeerCounts
    split <;> rfl
  simp only [Function.comp_def, hinfo, db.distinctTorrent_sync]

lemma TorrentRow.toTorrent_some {id : UInt32} {row : TorrentRow} {torrent : Torrent}
    (h : row.toTorrent id = some torrent) :
    torrent.peers = .empty ∧ torrent.isDeleted = row.deletedAt.isSome ∧
      ∀ kind, readInt (row.count kind) = some (torrent.counter kind) := by
  unfold TorrentRow.toTorrent at h
  simp only [Option.bind_eq_bind, Option.bind_eq_some_iff, Option.pure_def, Option.some_inj] at h
  obtain ⟨seeders, hseeders, leechers, hleechers, timesCompleted, -, rfl⟩ := h
  refine ⟨rfl, rfl, ?_⟩
  intro kind
  cases kind with
  | seed => exact hseeders
  | leech => exact hleechers

lemma Database.countPeers_congr (db : Database) {p q : PeerUpdate.Index → PeerRow → Bool}
    (h : ∀ key row, db.peers.get? key = some row → p key row = q key row) :
    db.countPeers p = db.countPeers q :=
  IndexMap.count_congr h

/-- A synchronized count is the number of rows that are listed. -/
lemma TorrentRow.count_syncPeerCounts (hdb : db.SeedersHaveNoneLeft) (kind : ListKind) (id : UInt32)
    {row : TorrentRow} (hrow : row.deletedAt = none) :
    (row.syncPeerCounts config db id).count kind = (db.countPeers fun key row =>
      decide (key.torrentId = id) && selects config kind (fun _ => true) key row : ℕ) := by
  unfold TorrentRow.syncPeerCounts
  rw [hrow, Option.isNone_none, if_pos rfl]
  cases kind with
  | seed =>
    simp only [TorrentRow.count, Nat.cast_inj]
    apply db.countPeers_congr
    intro key row hget
    simp only [selects, PeerRow.isOf, hdb key row hget, Bool.true_and]
    cases decide (row.left = 0) <;> simp
  | leech =>
    simp only [TorrentRow.count, Nat.cast_inj]
    apply db.countPeers_congr
    intro key row hget
    have hleft : decide (row.left > 0) = !decide (row.left = 0) := by
      by_cases h0 : row.left = 0
      · simp [h0]
      · simp [h0, UInt64.pos_iff_ne_zero]
    simp only [selects, PeerRow.isOf, hdb key row hget, hleft, Bool.true_and]
    cases decide (row.left = 0) <;> simp

end LoadTorrents

section Startup

variable {config : Config F} {db : Database} {stores : Stores F}

lemma Stores.new_some (h : Stores.new config db = some stores) :
    (∃ loaded, (syncPeerCountAggregates config db).distinctTorrents.collect TorrentRow.toTorrent =
        some loaded ∧ Loaded config db.peers.entries loaded stores.torrents) ∧
      db.undeletedUsers.collect (UserRow.toUser config (syncPeerCountAggregates config db)) =
        some stores.users := by
  unfold Stores.new at h
  simp only [Option.bind_eq_bind, Option.bind_eq_some_iff, Option.pure_def, Option.some_inj] at h
  obtain ⟨torrents, htorrents, users, husers, connectablePorts, -, rfl⟩ := h
  refine ⟨?_, husers⟩
  unfold TorrentStore.fromDb at htorrents
  rw [Option.bind_eq_bind, Option.bind_eq_some_iff] at htorrents
  obtain ⟨loaded, hloaded, hpeers⟩ := htorrents
  refine ⟨loaded, hloaded, loaded_of_foldlM config db.peers.nodup hpeers ?_⟩
  intro row _ torrent ht
  rw [IndexMap.get?_collect hloaded, Option.bind_eq_some_iff] at ht
  obtain ⟨torrentRow, -, htorrent⟩ := ht
  rw [(TorrentRow.toTorrent_some htorrent).1]
  rfl

/-- The counters of a loaded torrent that is not deleted. -/
lemma Stores.new_torrent (h : Stores.new config db = some stores) (hdb : db.SeedersHaveNoneLeft)
    (kind : ListKind) {id : UInt32} {torrent : Torrent} (ht : stores.torrents.get? id = some torrent)
    (hdeleted : torrent.isDeleted = false) :
    (torrent.counter kind).toNat = torrent.listed config kind := by
  obtain ⟨⟨loaded, hcollect, hloaded⟩, -⟩ := Stores.new_some h
  have hcontains : loaded.contains id = true := by
    rw [← hloaded.contains]
    exact IndexMap.contains_eq_true.mpr ⟨torrent, ht⟩
  obtain ⟨torrent₀, ht₀⟩ := IndexMap.contains_eq_true.mp hcontains
  obtain ⟨peers, hpeers, hcount⟩ := hloaded.torrent kind (fun _ => true) id torrent₀ ht₀
  rw [hpeers, Option.some_inj] at ht
  subst ht
  rw [IndexMap.get?_collect hcollect, db.get?_distinctTorrents_sync, Option.bind_eq_some_iff] at ht₀
  obtain ⟨row', hrow', hrow⟩ := ht₀
  obtain ⟨row, -, rfl⟩ := Option.map_eq_some_iff.mp hrow'
  obtain ⟨hempty, hisDeleted, hcounter⟩ := TorrentRow.toTorrent_some hrow
  have hnone : row.deletedAt = none := by
    unfold TorrentRow.syncPeerCounts at hisDeleted
    cases hd : row.deletedAt with
    | none => rfl
    | some deletedAt =>
      rw [hd] at hisDeleted
      simp only [Option.isNone_some, Bool.false_eq_true, if_false] at hisDeleted
      simp [hisDeleted, hd] at hdeleted
  have hread := hcounter kind
  rw [TorrentRow.count_syncPeerCounts hdb kind id hnone] at hread
  have hlisted : Torrent.listed config kind { torrent₀ with peers := peers } =
      db.countPeers fun key row =>
        decide (key.torrentId = id) && selects config kind (fun _ => true) key row := by
    simp only [Bool.true_and, hempty] at hcount
    rw [Torrent.listed, hcount]
    exact Nat.zero_add _
  rw [hlisted, ← toNat_of_readInt hread]
  cases kind <;> rfl

/-- The listed peers of a user are the rows of a loaded torrent that the lists include. -/
lemma Stores.new_listedOf (h : Stores.new config db = some stores) (kind : ListKind)
    (userId : UInt32) : stores.torrents.listedOf config kind userId =
      db.countPeers fun key row => db.distinctTorrents.contains key.torrentId &&
        selects config kind (fun index => decide (index.userId = userId)) key row := by
  obtain ⟨⟨loaded, hcollect, hloaded⟩, -⟩ := Stores.new_some h
  have htotal := hloaded.total kind (fun index => decide (index.userId = userId))
  have hempty : loaded.sumOver (fun _ torrent => torrent.peers.count
      (fun index peer => decide (index.userId = userId) && peer.isListed config kind)) = 0 := by
    apply List.sum_eq_zero
    intro n hn
    obtain ⟨⟨id, torrent⟩, hmem, rfl⟩ := List.mem_map.mp hn
    have ht := IndexMap.get?_eq_some.mpr hmem
    rw [IndexMap.get?_collect hcollect, Option.bind_eq_some_iff] at ht
    obtain ⟨row, -, hrow⟩ := ht
    simp only [(TorrentRow.toTorrent_some hrow).1]
    rfl
  have hcontains (id : UInt32) : loaded.contains id = db.distinctTorrents.contains id := by
    rw [IndexMap.contains_collect hcollect, IndexMap.contains, db.get?_distinctTorrents_sync,
      Option.isSome_map]
    rfl
  rw [hempty, Nat.zero_add] at htotal
  simp only [hcontains] at htotal
  exact htotal

/-- The counter of a loaded user is the number of their active and visible rows. -/
lemma Stores.new_user (h : Stores.new config db = some stores) (kind : ListKind) {userId : UInt32}
    {user : User F} (hu : stores.users.get? userId = some user) :
    (user.counter kind).toNat = db.countPeers fun key row => decide (key.userId = userId) &&
      (row.isOf kind && row.active && row.visible) := by
  obtain ⟨-, husers⟩ := Stores.new_some h
  rw [IndexMap.get?_collect husers, Option.bind_eq_some_iff] at hu
  obtain ⟨row, -, hrow⟩ := hu
  unfold UserRow.toUser at hrow
  simp only [Option.bind_eq_bind, Option.bind_eq_some_iff, Option.pure_def, Option.some_inj] at hrow
  obtain ⟨numSeeding, hseeding, numLeeching, hleeching, rfl⟩ := hrow
  cases kind with
  | seed => exact toNat_of_readCount hseeding
  | leech => exact toNat_of_readCount hleeching

/-- The counters agree, those of deleted torrents apart. -/
structure CountersAgreeAtStartup (config : Config F) (stores : Stores F) : Prop where
  torrents : ∀ kind id torrent, stores.torrents.get? id = some torrent → torrent.isDeleted = false →
    (torrent.counter kind).toNat = torrent.listed config kind
  users : ∀ kind userId, UserAgrees config kind userId stores

/-- Every active and visible peer of a user is loaded, and connectable where that is required. -/
def Database.ListsUserPeers (config : Config F) (db : Database) : Prop :=
  ∀ key row, db.peers.get? key = some row → row.active = true → row.visible = true →
    db.undeletedUsers.contains key.userId = true →
      db.distinctTorrents.contains key.torrentId = true ∧
        (config.requirePeerConnectivity = true → row.connectable = true)

/-- A user is counted right in one list exactly when that list includes all of their active and
visible peers of its kind. -/
lemma Stores.new_userAgrees_iff (h : Stores.new config db = some stores) (kind : ListKind)
    {userId : UInt32} (hu : stores.users.contains userId = true) :
    UserAgrees config kind userId stores ↔ ∀ key row, db.peers.get? key = some row →
      (decide (key.userId = userId) && (row.isOf kind && row.active && row.visible)) = true →
        (db.distinctTorrents.contains key.torrentId &&
          (!config.requirePeerConnectivity || row.connectable)) = true := by
  have hlisted : stores.torrents.listedOf config kind userId = db.countPeers fun key row =>
      (decide (key.userId = userId) && (row.isOf kind && row.active && row.visible)) &&
        (db.distinctTorrents.contains key.torrentId &&
          (!config.requirePeerConnectivity || row.connectable)) := by
    rw [Stores.new_listedOf h kind userId]
    apply db.countPeers_congr
    intro key row _
    simp only [selects, PeerRow.isCounted]
    cases db.distinctTorrents.contains key.torrentId <;> cases config.requirePeerConnectivity <;>
      cases row.connectable <;> simp [Bool.and_assoc]
  rw [← IndexMap.count_and_eq_count_iff]
  obtain ⟨user, huser⟩ := IndexMap.contains_eq_true.mp hu
  have hcounter := Stores.new_user h kind huser
  unfold Database.countPeers at hlisted hcounter
  rw [← hlisted, ← hcounter]
  constructor
  · intro hagrees
    exact (hagrees user huser).symm
  · intro heq user' huser'
    rw [huser, Option.some_inj] at huser'
    rw [← huser', heq]

/-- At startup, the torrents count their listed peers. The users count theirs exactly when every
active and visible peer of a loaded user is of a loaded torrent and, where that is required,
connectable. -/
theorem counters_agree_at_startup_iff (config : Config F) (db : Database) (stores : Stores F)
    (hload : Stores.new config db = some stores) (hdb : db.SeedersHaveNoneLeft) :
    CountersAgreeAtStartup config stores ↔ db.ListsUserPeers config := by
  have hcontains (userId : UInt32) :
      stores.users.contains userId = db.undeletedUsers.contains userId :=
    IndexMap.contains_collect (Stores.new_some hload).2 userId
  constructor
  · intro hagree key row hget hactive hvisible huser
    have hkind : ∃ kind, row.isOf kind = true := by
      cases hs : row.seeder with
      | true => exact ⟨.seed, hs⟩
      | false => exact ⟨.leech, by simp [PeerRow.isOf, hs]⟩
    obtain ⟨kind, hkind⟩ := hkind
    have hu : stores.users.contains key.userId = true := (hcontains key.userId).trans huser
    have hrow := (Stores.new_userAgrees_iff hload kind hu).mp (hagree.users kind key.userId)
      key row hget (by simp [hkind, hactive, hvisible])
    simp only [Bool.and_eq_true, Bool.or_eq_true, Bool.not_eq_true'] at hrow
    refine ⟨hrow.1, fun hrequired => ?_⟩
    exact hrow.2.resolve_left (by simp [hrequired])
  · intro hlists
    refine ⟨fun kind id torrent ht hdeleted => Stores.new_torrent hload hdb kind ht hdeleted, ?_⟩
    intro kind userId user hu
    have hu' : stores.users.contains userId = true := IndexMap.contains_eq_true.mpr ⟨user, hu⟩
    apply (Stores.new_userAgrees_iff hload kind hu').mpr _ user hu
    intro key row hget hof
    simp only [Bool.and_eq_true, decide_eq_true_eq] at hof
    obtain ⟨hid, ⟨-, hactive⟩, hvisible⟩ := hof
    obtain ⟨htorrent, hconnectable⟩ := hlists key row hget hactive hvisible
      (by rw [hid, ← hcontains, hu'])
    rw [htorrent, Bool.true_and]
    cases hrequired : config.requirePeerConnectivity with
    | true => simp [hconnectable hrequired]
    | false => rfl

end Startup

/-- The default ports, which are all different. -/
def BlacklistedPortStore.ports : List UInt16 :=
  [8080, 8081, 1214, 3389, 4662, 6346, 6347, 6699] ++ (List.range 1024).map UInt16.ofNat

lemma UInt16.nodup_map_ofNat_range {n : ℕ} (h : n ≤ 2 ^ 16) :
    ((List.range n).map UInt16.ofNat).Nodup := by
  refine List.Nodup.map_on (fun i hi j hj heq => ?_) List.nodup_range
  rw [List.mem_range] at hi hj
  have hnat := congrArg UInt16.toNat heq
  rwa [UInt16.toNat_ofNat', UInt16.toNat_ofNat', Nat.mod_eq_of_lt (by omega),
    Nat.mod_eq_of_lt (by omega)] at hnat

lemma UInt16.toNat_lt_of_mem_range {n : ℕ} {port : UInt16}
    (h : port ∈ (List.range n).map UInt16.ofNat) : port.toNat < n := by
  obtain ⟨i, hi, rfl⟩ := List.mem_map.mp h
  rw [List.mem_range] at hi
  rw [UInt16.toNat_ofNat']
  exact (Nat.mod_le _ _).trans_lt hi

lemma BlacklistedPortStore.nodup_ports : BlacklistedPortStore.ports.Nodup := by
  unfold BlacklistedPortStore.ports
  rw [List.nodup_append]
  refine ⟨by decide, UInt16.nodup_map_ofNat_range (by norm_num), ?_⟩
  intro port hport reserved hreserved heq
  have hlt := UInt16.toNat_lt_of_mem_range hreserved
  have hlarge : ∀ port ∈ ([8080, 8081, 1214, 3389, 4662, 6346, 6347, 6699] : List UInt16),
      1024 ≤ port.toNat := by simp
  rw [← heq] at hlt
  exact absurd hlt (not_lt.mpr (hlarge port hport))

lemma BlacklistedPortStore.default_eq : BlacklistedPortStore.default =
    ⟨BlacklistedPortStore.ports.map fun port => (port, ()), by
      rw [List.map_map]
      exact BlacklistedPortStore.nodup_ports.map fun _ _ h => h⟩ := by
  apply IndexMap.ext
  have hnodup : ((IndexMap.empty : IndexMap UInt16 Unit).entries.map Prod.fst ++
      BlacklistedPortStore.ports).Nodup := BlacklistedPortStore.nodup_ports
  exact IndexMap.entries_foldl_insert () hnodup

lemma seedersHaveNoneLeft_sample (connectable : Bool) :
    (Sample.database connectable).SeedersHaveNoneLeft := by
  intro key row hget
  rw [(IndexMap.eq_of_get?_insert_empty hget).2]
  rfl

/-- The one peer is connectable. -/
theorem counters_agree_at_startup_iff_sample :
    ∃ stores, Stores.new Sample.connectableConfig (Sample.database true) = some stores ∧
      (CountersAgreeAtStartup Sample.connectableConfig stores ↔
        (Sample.database true).ListsUserPeers Sample.connectableConfig) := by
  have hsome : (Stores.new Sample.connectableConfig (Sample.database true)).isSome = true := by
    decide +kernel
  obtain ⟨stores, hload⟩ := Option.isSome_iff_exists.mp hsome
  exact ⟨stores, hload, counters_agree_at_startup_iff Sample.connectableConfig (Sample.database true)
    stores hload (seedersHaveNoneLeft_sample true)⟩

/-- A seeder that is not connectable is in no list, but its user counts it. -/
theorem counters_disagree_at_startup :
    ¬ ∀ (config : Config ℝ) (db : Database) (stores : Stores ℝ), Stores.new config db = some stores →
      db.SeedersHaveNoneLeft → CountersAgreeAtStartup config stores := by
  intro h
  have hsome : (Stores.new Sample.connectableConfig (Sample.database false)).isSome = true := by
    decide +kernel
  obtain ⟨stores, hload⟩ := Option.isSome_iff_exists.mp hsome
  have hagree := h _ _ stores hload (seedersHaveNoneLeft_sample false)
  have hseeding : (Stores.new Sample.connectableConfig (Sample.database false)).map (fun stores =>
      (stores.users.get? 1).map fun user => user.numSeeding.toNat) = some (some 1) := by
    decide +kernel
  have hlisted : (Stores.new Sample.connectableConfig (Sample.database false)).map (fun stores =>
      stores.torrents.listedOf Sample.connectableConfig .seed 1) = some 0 := by
    decide +kernel
  rw [hload, Option.map_some, Option.some_inj] at hseeding hlisted
  obtain ⟨user, huser, hone⟩ := Option.map_eq_some_iff.mp hseeding
  have hcounter := hagree.users .seed 1 user huser
  rw [hlisted] at hcounter
  rw [show (user.counter .seed).toNat = 1 from hone] at hcounter
  exact absurd hcounter (by decide)

end Unit3dAnnounce
