import Unit3dAnnounce.Model.Restart
import Unit3dAnnounce.Proofs.Counters
import Unit3dAnnounce.Proofs.PeerRows
import Unit3dAnnounce.Proofs.Startup

/-!
# Nothing is lost by a restart

The rows of the peers, once the queues are flushed, tell which peers are active. A tracker that starts
from them holds the same peers and counts the same numbers as the one before it, apart from peers that
a reap of that one has made inactive. The next reap does so again. The times of the peers are rounded
as the column is.
-/

namespace Unit3dAnnounce

open Machine WriteBehind

variable {F : Type}

lemma TorrentStore.peer?_modify (store : TorrentStore) (id : UInt32) (f : Torrent → Torrent)
    (key : PeerUpdate.Index) :
    TorrentStore.peer? (store.modify id f) key = if key.torrentId = id then
      ((store.get? id).map f).bind fun torrent => torrent.peers.get? ⟨key.userId, key.peerId⟩
    else store.peer? key := by
  unfold TorrentStore.peer?
  rw [IndexMap.get?_modify]
  split_ifs with hid
  · rw [hid]
  · rfl

/-- One row is loaded. -/
lemma TorrentStore.peer?_loadPeer {store store' : TorrentStore} {row : PeerUpdate.Index × PeerRow}
    (h : store.loadPeer row = some store') (key : PeerUpdate.Index) :
    store'.peer? key =
      if key = row.1 ∧ store.contains key.torrentId = true then row.2.toPeer else store.peer? key := by
  rcases TorrentStore.loadPeer_some h with ⟨hmissing, rfl⟩ | ⟨peer, torrent, hpeer, htorrent, rfl⟩
  · rw [if_neg]
    rintro ⟨rfl, hcontains⟩
    rw [hmissing] at hcontains
    cases hcontains
  · have hcontains : store.contains row.1.torrentId = true :=
      IndexMap.contains_eq_true.mpr ⟨torrent, htorrent⟩
    rw [TorrentStore.peer?_modify, htorrent, Option.map_some, Option.bind_some, IndexMap.get?_insert]
    by_cases hkey : key = row.1
    · subst hkey
      rw [if_pos rfl, if_pos rfl, if_pos ⟨rfl, hcontains⟩, hpeer]
    · rw [if_neg fun hc : key = row.1 ∧ _ => hkey hc.1]
      by_cases hid : key.torrentId = row.1.torrentId
      · rw [if_pos hid, if_neg, TorrentStore.peer?, hid, htorrent, Option.bind_some]
        intro hindex
        rw [Peer.Index.mk.injEq] at hindex
        apply hkey
        cases key
        simp_all
      · rw [if_neg hid]

/-- The rows are loaded one after the other. -/
lemma TorrentStore.peer?_foldlM_loadPeer {rows : List (PeerUpdate.Index × PeerRow)}
    (hnodup : (rows.map Prod.fst).Nodup) {store store' : TorrentStore}
    (h : rows.foldlM TorrentStore.loadPeer store = some store') (key : PeerUpdate.Index) :
    store'.peer? key =
      match rows.lookup key with
      | some row => if store.contains key.torrentId = true then row.toPeer else store.peer? key
      | none => store.peer? key := by
  induction rows generalizing store with
  | nil =>
    simp only [List.foldlM_nil, Option.pure_def, Option.some_inj] at h
    rw [h]
    rfl
  | cons row rows ih =>
    rw [List.foldlM_cons, Option.bind_eq_bind, Option.bind_eq_some_iff] at h
    obtain ⟨store₁, hload, hrest⟩ := h
    rw [List.map_cons, List.nodup_cons] at hnodup
    have hrows := ih hnodup.2 hrest
    rw [TorrentStore.contains_loadPeer hload, TorrentStore.peer?_loadPeer hload] at hrows
    rw [hrows, List.lookup_cons]
    by_cases hkey : key = row.1
    · subst hkey
      rw [IndexMap.lookup_eq_none_iff_notMem rows row.1 |>.mpr hnodup.1, beq_self_eq_true]
      simp only [true_and]
    · rw [beq_false_of_ne hkey]
      simp only [hkey, false_and, if_false]

section Loading

variable {config : Config F} {db : Database} {stores : Stores F}

/-- A row of a loaded torrent is a peer, and there are no others. -/
lemma Stores.new_peer? (h : Stores.new config db = some stores) (key : PeerUpdate.Index) :
    stores.torrents.peer? key =
      if db.distinctTorrents.contains key.torrentId = true then
        (db.peers.get? key).bind PeerRow.toPeer
      else none := by
  unfold Stores.new at h
  simp only [Option.bind_eq_bind, Option.bind_eq_some_iff, Option.pure_def, Option.some_inj] at h
  obtain ⟨torrents, htorrents, users, -, connectablePorts, -, rfl⟩ := h
  unfold TorrentStore.fromDb at htorrents
  rw [Option.bind_eq_bind, Option.bind_eq_some_iff] at htorrents
  obtain ⟨loaded, hloaded, hpeers⟩ := htorrents
  have hcontains : loaded.contains key.torrentId = db.distinctTorrents.contains key.torrentId := by
    rw [IndexMap.contains_collect hloaded, IndexMap.contains, db.get?_distinctTorrents_sync,
      Option.isSome_map, IndexMap.contains]
  have hnone : TorrentStore.peer? loaded key = none := by
    unfold TorrentStore.peer?
    rw [IndexMap.get?_collect hloaded, Option.bind_assoc]
    refine Option.bind_eq_none_iff.mpr fun row hrow => Option.bind_eq_none_iff.mpr fun torrent ht => ?_
    rw [(TorrentRow.toTorrent_some ht).1]
    rfl
  rw [TorrentStore.peer?_foldlM_loadPeer db.peers.nodup hpeers key, hcontains, hnone]
  have hget : db.peers.get? key = db.peers.entries.lookup key := rfl
  rw [hget]
  cases db.peers.entries.lookup key with
  | none => simp
  | some row => rfl

lemma Stores.new_contains (h : Stores.new config db = some stores) (id : UInt32) :
    stores.torrents.contains id = db.distinctTorrents.contains id := by
  obtain ⟨⟨loaded, hcollect, hloaded⟩, -⟩ := Stores.new_some h
  rw [hloaded.contains, IndexMap.contains_collect hcollect, IndexMap.contains,
    db.get?_distinctTorrents_sync, Option.isSome_map, IndexMap.contains]

end Loading

variable {isReaped : DateTime → Prop} {restored stored : Option Peer}

section Runs

variable [RateField F]

namespace Tracker

variable {tracker : Tracker F} {events : List (TrackerEvent F)}

/-- Only seeders are stored with nothing left. -/
lemma seedersHaveNoneLeft_run {second : DateTime → ℤ} {db : Database} (hdb : db.SeedersHaveNoneLeft)
    (htable : tracker.peers.table = db.peers)
    (hqueue : tracker.state.queues.peers.records = .empty)
    (hrunning : tracker.peers.running = []) (hturn : Along step FlushesInTurn tracker events)
    (hsorted : ∀ key, (log step (peerUpdates key) tracker events).Pairwise
      fun update update' => update.updatedAt < update'.updatedAt)
    (hqueue' : (run step tracker events).state.queues.peers.records = .empty)
    (hrunning' : (run step tracker events).peers.running = []) :
    ((run step tracker events).database second db).SeedersHaveNoneLeft := by
  intro key stored hget
  have hstored : ((run step tracker events).peers.table.mapValues
      fun _ => PeerRow.stored second).get? key = some stored := hget
  rw [IndexMap.get?_mapValues, Option.map_eq_some_iff] at hstored
  obtain ⟨row, htable', rfl⟩ := hstored
  change row.seeder = decide (row.left = 0)
  have hrow := row_run (followsUpdates_run hqueue hrunning hturn (hsorted key)) hqueue' hrunning'
  cases hlast : (log step (peerUpdates key) tracker events).getLast? with
  | none =>
    rw [hlast] at hrow
    refine hdb key row ?_
    rw [← htable, ← hrow]
    exact htable'
  | some last =>
    rw [hlast] at hrow
    obtain ⟨row', hget', hcontent⟩ := hrow
    obtain ⟨a, env, request, rfl⟩ := exists_announce_of_mem_log (List.mem_of_getLast? hlast)
    rw [htable', Option.some_inj] at hget'
    rw [hget', PeerRow.eq_of_content hcontent]
    rfl

end Tracker

/-- The counters of the torrents that are not deleted count their listed peers. -/
def CountsUndeleted (config : Config F) (torrents : TorrentStore) : Prop :=
  ∀ kind id torrent, torrents.get? id = some torrent → torrent.isDeleted = false →
    (torrent.counter kind).toNat = torrent.listed config kind

/-- Nothing but an upsert or a removal changes which torrents there are and which are deleted. -/
lemma isDeleted_perform {config : Config F} {state : AppState F} {op : Operation F}
    (hop : ∀ torrent, op ≠ .destroyTorrent torrent) (id : UInt32) :
    ((perform config state op).stores.torrents.get? id).map Torrent.isDeleted =
      (state.stores.torrents.get? id).map Torrent.isDeleted := by
  cases op with
  | announce env request =>
    simp only [perform]
    cases hr : ((announce config env request).run state).2 with
    | error e => rw [(stores_of_rejected hr).2]
    | ok a =>
      obtain ⟨torrent, torrent', ha⟩ := announce_ok hr
      obtain ⟨peers', -, htorrent', -⟩ := changeTorrent_ok ha.torrents.change
      rw [ha.torrents_eq, IndexMap.get?_modify]
      split_ifs with hid
      · rw [hid, ha.torrents.stored, Option.map_some, Option.map_some, Option.map_some, htorrent']
        rfl
      · rfl
  | reap activeNow inactiveNow =>
    simp only [perform]
    cases hr : reap config activeNow inactiveNow state with
    | none => rfl
    | some state' =>
      obtain ⟨activeCutoff, inactiveCutoff, -, -, rfl⟩ := reap_eq_some.mp hr
      simp only [Option.getD_some, reapTorrents, IndexMap.get?_mapValues, Option.map_map]
      congr 1
      funext torrent
      simp only [Function.comp, Torrent.reap_eq]
  | destroyTorrent torrent => exact absurd rfl (hop torrent)

lemma CountsUndeleted.perform {config : Config F} {state : AppState F} {op : Operation F}
    (h : CountsUndeleted config state.stores.torrents) (hop : ∀ torrent, op ≠ .destroyTorrent torrent)
    (hpeers : (perform config state op).stores.torrents.peerCount < 2 ^ 31) :
    CountsUndeleted config (perform config state op).stores.torrents := by
  intro kind id torrent' ht hdeleted
  obtain ⟨torrent, htorrent, hstep⟩ := perform_torrent op ht
  have hsame := @isDeleted_perform F _ config state op hop id
  rw [ht, htorrent, Option.map_some, Option.map_some, Option.some_inj, hdeleted] at hsame
  have hle := TorrentStore.listed_le_peerCount ht config kind
  exact hstep kind (h kind id torrent htorrent hsame.symm) (by omega)

namespace Tracker

/-- The events of the torrents happen under this configuration. -/
def IsUnder (config : Config F) : TrackerEvent F → Prop
  | .announce config' _ _ | .reap config' _ _ => config' = config
  | _ => True

/-- The operation that an event is, unless it is one of a flush. -/
def operation? : TrackerEvent F → Option (Operation F)
  | .announce _ env request => some (.announce env request)
  | .reap _ activeNow inactiveNow => some (.reap activeNow inactiveNow)
  | _ => none

lemma stores_step {config : Config F} (tracker : Tracker F) {event : TrackerEvent F}
    (h : IsUnder config event) :
    (tracker.step event).state.stores =
      ((operation? event).elim tracker.state (perform config tracker.state)).stores := by
  cases event with
  | announce config' env request => rw [show config' = config from h]; rfl
  | reap config' activeNow inactiveNow => rw [show config' = config from h]; rfl
  | flushHistories event => rfl
  | flushPeers event => rfl
  | flushTorrents event => rfl
  | flushUsers event => rfl

/-- What a run keeps of the torrents. -/
lemma torrents_run {config : Config F} {tracker : Tracker F} {events : List (TrackerEvent F)}
    (hunder : ∀ event ∈ events, IsUnder config event)
    (hpeers : Always step (fun tracker => tracker.state.stores.torrents.peerCount < 2 ^ 31) tracker
      events)
    (h : CountsUndeleted config tracker.state.stores.torrents) :
    CountsUndeleted config (run step tracker events).state.stores.torrents ∧
      ∀ id, ((run step tracker events).state.stores.torrents.get? id).map Torrent.isDeleted =
        (tracker.state.stores.torrents.get? id).map Torrent.isDeleted := by
  have halong := hpeers.along.and
    (Along.of_forall_mem (fun event hmem _ => hunder event hmem) tracker)
  refine (halong.invariant (P := fun tracker' => CountsUndeleted config tracker'.state.stores.torrents ∧
      ∀ id, (tracker'.state.stores.torrents.get? id).map Torrent.isDeleted =
        (tracker.state.stores.torrents.get? id).map Torrent.isDeleted) ?_ ⟨h, fun _ => rfl⟩).last
  rintro tracker' event ⟨⟨-, hbound⟩, hconfig⟩ ⟨hcounts, hdeleted⟩
  rw [tracker'.stores_step hconfig] at hbound ⊢
  cases hop : operation? event with
  | none => exact ⟨hcounts, hdeleted⟩
  | some op =>
    have hne : ∀ torrent, op ≠ .destroyTorrent torrent := by
      rintro torrent rfl
      cases event <;> cases hop
    rw [hop] at hbound
    exact ⟨hcounts.perform hne hbound, fun id => (isDeleted_perform hne id).trans (hdeleted id)⟩

end Tracker

end Runs

/-- The columns of a torrent that a flush does not write. -/
structure TorrentRow.SameIdentity (row row' : TorrentRow) : Prop where
  status : row'.status = row.status
  infoHash : row'.infoHash = row.infoHash
  deletedAt : row'.deletedAt = row.deletedAt

lemma TorrentRow.sameIdentity_withTotals (row : TorrentRow) (totals : Option TorrentTotals) :
    row.SameIdentity (row.withTotals totals) := by
  cases totals <;> exact ⟨rfl, rfl, rfl⟩

section Identity

variable (db : Database) {f : UInt32 → TorrentRow → TorrentRow}
  (hf : ∀ id (row : TorrentRow), row.SameIdentity (f id row))

include hf

/-- Which torrents are loaded depends on their identities alone. -/
lemma Database.distinctTorrent_mapValues (infoHash : InfoHash) :
    Database.distinctTorrent { db with torrents := db.torrents.mapValues f } infoHash =
      db.distinctTorrent infoHash := by
  have hmin : ∀ p : TorrentRow → Bool, (∀ id row, p (f id row) = p row) →
      Database.minId { db with torrents := db.torrents.mapValues f } infoHash p =
        db.minId infoHash p := by
    intro p hp
    simp only [Database.minId, IndexMap.mapValues, List.filter_map, List.map_map, Function.comp_def,
      hp, (hf _ _).infoHash]
  unfold Database.distinctTorrent
  rw [hmin, hmin, hmin]
  · exact fun id row => by rw [(hf id row).deletedAt]
  · exact fun id row => by rw [(hf id row).deletedAt, (hf id row).status]
  · exact fun id row => by rw [(hf id row).deletedAt, (hf id row).status]

lemma Database.get?_distinctTorrents_mapValues (id : UInt32) :
    (Database.distinctTorrents { db with torrents := db.torrents.mapValues f }).get? id =
      (db.distinctTorrents.get? id).map (f id) := by
  unfold Database.distinctTorrents
  rw [IndexMap.get?_retain, IndexMap.get?_retain, IndexMap.get?_mapValues, Option.filter_map]
  simp only [Function.comp_def, (hf _ _).infoHash, db.distinctTorrent_mapValues hf]

end Identity

section Reload

variable {config : Config F} {db : Database} {stores : Stores F}

lemma Stores.new_isDeleted (h : Stores.new config db = some stores) (id : UInt32) :
    (stores.torrents.get? id).map Torrent.isDeleted =
      (db.distinctTorrents.get? id).map fun row => row.deletedAt.isSome := by
  obtain ⟨⟨loaded, hcollect, hloaded⟩, -⟩ := Stores.new_some h
  have hloadedDeleted : (loaded.get? id).map Torrent.isDeleted =
      (db.distinctTorrents.get? id).map fun row => row.deletedAt.isSome := by
    have hcontains := IndexMap.contains_collect hcollect id
    rw [IndexMap.get?_collect hcollect, db.get?_distinctTorrents_sync]
    rw [IndexMap.contains, IndexMap.get?_collect hcollect, IndexMap.contains,
      db.get?_distinctTorrents_sync] at hcontains
    cases hrow : db.distinctTorrents.get? id with
    | none => rfl
    | some row =>
      rw [hrow, Option.map_some, Option.bind_some, Option.isSome_some, Option.isSome_iff_exists]
        at hcontains
      obtain ⟨torrent, htorrent⟩ := hcontains
      rw [Option.map_some, Option.bind_some, htorrent, Option.map_some, Option.map_some,
        (TorrentRow.toTorrent_some htorrent).2.1, TorrentRow.syncPeerCounts]
      split_ifs <;> rfl
  rw [← hloadedDeleted]
  cases htorrent : loaded.get? id with
  | none =>
    have hmissing := hloaded.contains id
    rw [IndexMap.contains, IndexMap.contains, htorrent, Option.isSome_none,
      Option.isSome_eq_false_iff, Option.isNone_iff_eq_none] at hmissing
    rw [hmissing]
  | some torrent =>
    obtain ⟨peers, hpeers, -⟩ := hloaded.torrent .seed (fun _ => true) id torrent htorrent
    rw [hpeers, Option.map_some]
    rfl

/-- A restart loads the same torrents. -/
lemma Tracker.get?_distinctTorrents_database (tracker : Tracker F) (second : DateTime → ℤ)
    (db : Database) (id : UInt32) :
    ((tracker.database second db).distinctTorrents.get? id).map (fun row => row.deletedAt.isSome) =
      (db.distinctTorrents.get? id).map fun row => row.deletedAt.isSome := by
  have hget := db.get?_distinctTorrents_mapValues
    (f := fun id row => row.withTotals (tracker.torrents.table.get? ⟨id⟩))
    (fun _ row => row.sameIdentity_withTotals _) id
  have hsame : (tracker.database second db).distinctTorrents.get? id = _ := hget
  rw [hsame, Option.map_map]
  congr 1
  funext row
  simp only [Function.comp, (row.sameIdentity_withTotals _).deletedAt]

lemma Tracker.contains_distinctTorrents_database (tracker : Tracker F) (second : DateTime → ℤ)
    (db : Database) (id : UInt32) :
    (tracker.database second db).distinctTorrents.contains id = db.distinctTorrents.contains id := by
  have hsame := congrArg Option.isSome (tracker.get?_distinctTorrents_database second db id)
  rwa [Option.isSome_map, Option.isSome_map] at hsame

end Reload

/-- The same torrents with the same active peers and the same counters, where nobody looks at those of
deleted torrents. Whether a peer has sent a completed event is forgotten, and its time is rounded. -/
structure SameSwarms (second : DateTime → ℤ) (torrents torrents' : TorrentStore) : Prop where
  deleted : ∀ id, (torrents'.get? id).map Torrent.isDeleted = (torrents.get? id).map Torrent.isDeleted
  peers : ∀ key, (torrents'.peer? key).filter Peer.isActive =
    ((torrents.peer? key).filter Peer.isActive).map fun peer => peer.persisted.rounded second
  counters : ∀ id torrent torrent', torrents.get? id = some torrent → torrents'.get? id = some torrent' →
    torrent.isDeleted = false →
      torrent'.seeders = torrent.seeders ∧ torrent'.leechers = torrent.leechers

/-- Peers that are active alike are listed alike. -/
lemma any_isListed_of_active {config : Config F} {kind : ListKind} {second : DateTime → ℤ}
    {peer peer' : Option Peer} (h : peer'.filter Peer.isActive =
      (peer.filter Peer.isActive).map fun peer => peer.persisted.rounded second) :
    peer'.any (Peer.isListed config kind) = peer.any (Peer.isListed config kind) := by
  have hactive : ∀ o : Option Peer, o.any (Peer.isListed config kind) =
      (o.filter Peer.isActive).any (Peer.isListed config kind) := by
    intro o
    cases o with
    | none => rfl
    | some p =>
      rw [Option.filter_some]
      split_ifs with hp
      · rfl
      · have hinactive : p.isActive = false := by simpa using hp
        cases kind <;>
          simp [Peer.isListed, Peer.isIncludedInSeedList, Peer.isIncludedInLeechList,
            Peer.isIncludedInPeerList, hinactive]
  rw [hactive peer', hactive peer, h, Option.any_map]
  cases kind <;> rfl

lemma sameSwarms_of_active {config : Config F} {second : DateTime → ℤ}
    {torrents torrents' : TorrentStore} (h : CountsUndeleted config torrents)
    (h' : CountsUndeleted config torrents')
    (hdeleted : ∀ id,
      (torrents'.get? id).map Torrent.isDeleted = (torrents.get? id).map Torrent.isDeleted)
    (hpeers : ∀ key, (torrents'.peer? key).filter Peer.isActive =
      ((torrents.peer? key).filter Peer.isActive).map fun peer => peer.persisted.rounded second) :
    SameSwarms second torrents torrents' := by
  refine ⟨hdeleted, hpeers, fun id torrent torrent' ht ht' hnot => ?_⟩
  have hnot' : torrent'.isDeleted = false := by
    have hsame := hdeleted id
    rw [ht, ht', Option.map_some, Option.map_some, Option.some_inj] at hsame
    rw [hsame, hnot]
  have hcounter : ∀ kind, torrent'.counter kind = torrent.counter kind := by
    intro kind
    apply UInt32.toNat_inj.mp
    rw [h kind id torrent ht hnot, h' kind id torrent' ht' hnot', Torrent.listed, Torrent.listed]
    refine IndexMap.count_eq_of_get? fun index => ?_
    have hkey := hpeers ⟨index.userId, id, index.peerId⟩
    rw [TorrentStore.peer?_of_get? ht', TorrentStore.peer?_of_get? ht] at hkey
    exact any_isListed_of_active hkey
  exact ⟨hcounter .seed, hcounter .leech⟩

/-- The peers that a reap leaves active. -/
lemma active_reap (peer : Option Peer) (activeCutoff inactiveCutoff : DateTime) :
    ((peer.filter fun peer => decide (inactiveCutoff ≤ peer.updatedAt) || peer.isActive).map
        (Peer.expire activeCutoff)).filter Peer.isActive =
      peer.filter fun peer => peer.isActive && decide (activeCutoff ≤ peer.updatedAt) := by
  cases peer with
  | none => rfl
  | some peer =>
    rw [Option.filter_some, Option.filter_some]
    cases hactive : peer.isActive with
    | true =>
      by_cases hold : peer.updatedAt < activeCutoff
      · simp [Option.filter_some, Peer.expire, Peer.isExpired, hold, hactive, not_le.mpr hold]
      · simp [Peer.expire, Peer.isExpired, hactive, hold, not_lt.mp hold]
    | false =>
      by_cases hkept : inactiveCutoff ≤ peer.updatedAt
      · simp [Peer.expire, Peer.isExpired, hkept, hactive]
      · simp [hkept]

/-- What was reaped before a time is not active after a reap of that time, so that a peer and what is
read back of it are active alike. -/
lemma Restores.active_reap (h : Restores isReaped restored stored) {activeCutoff : DateTime}
    (hreaped : ∀ t, isReaped t → t < activeCutoff) :
    restored.filter (fun peer => peer.isActive && decide (activeCutoff ≤ peer.updatedAt)) =
      (stored.filter fun peer => peer.isActive && decide (activeCutoff ≤ peer.updatedAt)).map
        Peer.persisted := by
  apply Option.ext
  intro peer
  rw [Option.filter_eq_some_iff, Option.map_eq_some_iff]
  simp only [Option.filter_eq_some_iff, Bool.and_eq_true, decide_eq_true_eq]
  constructor
  · rintro ⟨hrestored, hactive, hrecent⟩
    rcases h.origin peer hrestored hactive with ⟨peer', hstored, hactive', rfl⟩ | hreaped'
    · exact ⟨peer', ⟨hstored, hactive', hrecent⟩, rfl⟩
    · exact absurd (hreaped peer.updatedAt hreaped') (not_lt.mpr hrecent)
  · rintro ⟨peer', ⟨hstored, hactive, hrecent⟩, rfl⟩
    exact ⟨h.keeps peer' hstored hactive, hactive, hrecent⟩

/-- Where there was no reap, they are so anyway. -/
lemma Restores.active (h : Restores (fun _ => False) restored stored) :
    restored.filter Peer.isActive = (stored.filter Peer.isActive).map Peer.persisted := by
  apply Option.ext
  intro peer
  rw [Option.filter_eq_some_iff, Option.map_eq_some_iff]
  simp only [Option.filter_eq_some_iff]
  constructor
  · rintro ⟨hrestored, hactive⟩
    rcases h.origin peer hrestored hactive with ⟨peer', hstored, hactive', rfl⟩ | hreaped
    · exact ⟨peer', ⟨hstored, hactive'⟩, rfl⟩
    · exact hreaped.elim
  · rintro ⟨peer', ⟨hstored, hactive⟩, rfl⟩
    exact ⟨h.keeps peer' hstored hactive, hactive⟩

/-- Rounding does not matter to a filter that only looks at what is not rounded, or that the rounding does
not cross. -/
lemma filter_map_rounded {second : DateTime → ℤ} {peer : Option Peer} {p : Peer → Bool}
    (h : ∀ q ∈ peer, p (q.rounded second) = p q) :
    (peer.map (Peer.rounded second)).filter p = (peer.filter p).map (Peer.rounded second) := by
  cases peer with
  | none => rfl
  | some q =>
    rw [Option.map_some, Option.filter_some, Option.filter_some, h q rfl]
    split_ifs <;> rfl

lemma CountsUndeleted.reap {config : Config F} {state : AppState F}
    (h : CountsUndeleted config state.stores.torrents) (activeCutoff inactiveCutoff : DateTime) :
    CountsUndeleted config
      (reapTorrents config activeCutoff inactiveCutoff state).stores.torrents := by
  intro kind id torrent' ht hdeleted
  simp only [reapTorrents, IndexMap.get?_mapValues, Option.map_eq_some_iff] at ht
  obtain ⟨torrent, htorrent, rfl⟩ := ht
  have hnot : torrent.isDeleted = false := by
    rw [Torrent.reap_eq] at hdeleted
    exact hdeleted
  have hagree := h kind id torrent htorrent hnot
  have hlisted := torrent.listed_reap config activeCutoff inactiveCutoff kind
  have hlt := (torrent.counter kind).toNat_lt
  rw [Torrent.counter_reap]
  exact toNat_saturatingAddSigned_of_fits (by omega) (by omega)

section Restart

variable [RateField F] {config : Config F} {db : Database} {stores stores' : Stores F}
  {histories : IndexMap HistoryUpdate.Index HistoryRow}
  {torrents : IndexMap TorrentUpdate.Index TorrentTotals}
  {users : IndexMap UserUpdate.Index UserTotals} {tracker : Tracker F}
  {events : List (TrackerEvent F)}

omit [RateField F] in
/-- A row of a loaded torrent is read back with its time rounded. -/
lemma peer?_reload {second : DateTime → ℤ}
    (hreload : Stores.new config (tracker.database second db) = some stores')
    (key : PeerUpdate.Index) :
    stores'.torrents.peer? key = (if db.distinctTorrents.contains key.torrentId = true then
      (tracker.peers.table.get? key).bind PeerRow.toPeer else none).map (Peer.rounded second) := by
  rw [Stores.new_peer? hreload, tracker.contains_distinctTorrents_database]
  split_ifs
  · have hget : (tracker.database second db).peers.get? key =
        (tracker.peers.table.get? key).map (PeerRow.stored second) := IndexMap.get?_mapValues _ _ _
    rw [hget]
    cases tracker.peers.table.get? key with
    | none => rfl
    | some row =>
      rw [Option.map_some, Option.bind_some, Option.bind_some]
      simp only [PeerRow.toPeer, PeerRow.stored]
      cases row.ip <;> cases row.updatedAt <;> rfl
  · rfl

/-- After a run that has flushed its peers, a tracker that starts from the database has the active
peers and the counters of the one before, once both have reaped, or at once if there was no reap. The
rounding of the times must not cross the cutoff of that reap. -/
theorem restart_keeps_swarms {second : DateTime → ℤ} (hload : Stores.new config db = some stores)
    (hdb : db.SeedersHaveNoneLeft)
    (hstart : tracker = .atStartup stores db histories torrents users)
    (hunder : ∀ event ∈ events, Tracker.IsUnder config event)
    (hpeers : Always Tracker.step (fun tracker => tracker.state.stores.torrents.peerCount < 2 ^ 31)
      tracker events)
    (hturn : Along Tracker.step Tracker.FlushesInTurn tracker events)
    (hsorted : ∀ key, (log Tracker.step (Tracker.peerUpdates key) tracker events).Pairwise
      fun update update' => update.updatedAt < update'.updatedAt)
    (hqueue : (run Tracker.step tracker events).state.queues.peers.records = .empty)
    (hrunning : (run Tracker.step tracker events).peers.running = [])
    (hreload : Stores.new config ((run Tracker.step tracker events).database second db) =
      some stores') :
    ((∀ event ∈ events, event.activeCutoff? = none) →
      SameSwarms second (run Tracker.step tracker events).state.stores.torrents stores'.torrents) ∧
    ∀ activeNow inactiveNow activeCutoff inactiveCutoff,
      cutoff activeNow config.activePeerTtl = some activeCutoff →
      cutoff inactiveNow config.inactivePeerTtl = some inactiveCutoff →
      (∀ event ∈ events, ∀ earlier ∈ event.activeCutoff?, earlier ≤ activeCutoff) →
      (∀ key row time, (run Tracker.step tracker events).peers.table.get? key = some row →
        row.updatedAt = some time → (storedTime second time < activeCutoff ↔ time < activeCutoff)) →
      SameSwarms second
        (perform config (run Tracker.step tracker events).state
          (.reap activeNow inactiveNow)).stores.torrents
        (perform config ⟨Queues.new, stores'⟩ (.reap activeNow inactiveNow)).stores.torrents := by
  have hpeersStart : tracker.peers = ⟨[], db.peers⟩ := by rw [hstart]; rfl
  have hstoresStart : tracker.state.stores = stores := by rw [hstart]; rfl
  have hqueueStart : tracker.state.queues.peers.records = .empty := by rw [hstart]; rfl
  have hrunningStart : tracker.peers.running = [] := by rw [hpeersStart]
  have htable : tracker.peers.table = db.peers := by rw [hpeersStart]
  -- the torrents of the run, and those of the restart
  have hcountsStart : CountsUndeleted config tracker.state.stores.torrents := by
    rw [hstoresStart]
    exact fun kind id torrent ht hnot => Stores.new_torrent hload hdb kind ht hnot
  obtain ⟨hcounts, hdeletedRun⟩ := Tracker.torrents_run hunder hpeers hcountsStart
  have hdb' : ((run Tracker.step tracker events).database second db).SeedersHaveNoneLeft :=
    Tracker.seedersHaveNoneLeft_run hdb htable hqueueStart hrunningStart hturn hsorted hqueue hrunning
  have hcounts' : CountsUndeleted config stores'.torrents :=
    fun kind id torrent ht hnot => Stores.new_torrent hreload hdb' kind ht hnot
  have hdeleted : ∀ id, (stores'.torrents.get? id).map Torrent.isDeleted =
      ((run Tracker.step tracker events).state.stores.torrents.get? id).map Torrent.isDeleted := by
    intro id
    rw [hdeletedRun, hstoresStart, Stores.new_isDeleted hreload, Stores.new_isDeleted hload,
      Tracker.get?_distinctTorrents_database]
  -- the peers of a torrent that is loaded
  have hrestores : ∀ isReaped : DateTime → Prop,
      (∀ event ∈ events, ∀ earlier ∈ event.activeCutoff?, ∀ t < earlier, isReaped t) →
      ∀ key, Restores isReaped (if db.distinctTorrents.contains key.torrentId = true then
          ((run Tracker.step tracker events).peers.table.get? key).bind PeerRow.toPeer else none)
        ((run Tracker.step tracker events).state.stores.torrents.peer? key) := by
    intro isReaped hreaped key
    by_cases hcontains : db.distinctTorrents.contains key.torrentId = true
    · rw [if_pos hcontains]
      refine Tracker.restores_run hqueueStart hrunningStart hturn (hsorted key) hreaped ?_ hqueue
        hrunning
      rw [htable, hstoresStart, Stores.new_peer? hload, if_pos hcontains]
      exact restores_toPeer _
    · have hmissing : (run Tracker.step tracker events).state.stores.torrents.get? key.torrentId =
          none := by
        rw [← Option.map_eq_none_iff (f := Torrent.isDeleted), hdeletedRun, hstoresStart,
          Option.map_eq_none_iff, ← IndexMap.contains_eq_false, Stores.new_contains hload]
        exact Bool.eq_false_of_not_eq_true hcontains
      rw [if_neg hcontains, TorrentStore.peer?, hmissing]
      exact ⟨fun _ h => absurd h (by simp), fun _ h => absurd h (by simp)⟩
  constructor
  · intro hnone
    refine sameSwarms_of_active hcounts hcounts' hdeleted fun key => ?_
    rw [peer?_reload hreload, filter_map_rounded fun _ _ => rfl, (hrestores _ ?_ key).active,
      Option.map_map]
    · rfl
    · intro event hmem earlier hearlier
      rw [hnone event hmem] at hearlier
      cases hearlier
  · intro activeNow inactiveNow activeCutoff inactiveCutoff hactive hinactive hlater hrounding
    have hperform : ∀ state : AppState F, perform config state (.reap activeNow inactiveNow) =
        reapTorrents config activeCutoff inactiveCutoff state := by
      intro state
      rw [perform, reap_eq_some.mpr ⟨activeCutoff, inactiveCutoff, hactive, hinactive, rfl⟩]
      rfl
    have hop : ∀ torrent, (.reap activeNow inactiveNow : Operation F) ≠ .destroyTorrent torrent :=
      fun torrent h => by cases h
    have hreaped := hcounts.reap activeCutoff inactiveCutoff
    have hreaped' := @CountsUndeleted.reap F config ⟨Queues.new, stores'⟩ hcounts' activeCutoff
      inactiveCutoff
    rw [← hperform] at hreaped hreaped'
    refine sameSwarms_of_active hreaped hreaped' (fun id => ?_) fun key => ?_
    · rw [isDeleted_perform hop, isDeleted_perform hop]
      exact hdeleted id
    · have hrestored := hrestores (fun t => t < activeCutoff) (fun event hmem earlier hearlier t ht =>
        ht.trans_le (hlater event hmem earlier hearlier)) key
      rw [hperform, hperform, peer?_reapTorrents, peer?_reapTorrents, active_reap, active_reap,
        peer?_reload hreload, filter_map_rounded, hrestored.active_reap fun _ h => h, Option.map_map]
      · rfl
      · intro peer hpeer
        obtain ⟨row, hrow, htime⟩ : ∃ row, (run Tracker.step tracker events).peers.table.get? key =
            some row ∧ row.updatedAt = some peer.updatedAt := by
          split_ifs at hpeer
          · exact PeerRow.updatedAt_of_toPeer hpeer
          · cases hpeer
        have hsame : activeCutoff ≤ storedTime second peer.updatedAt ↔ activeCutoff ≤ peer.updatedAt := by
          rw [← not_lt, ← not_lt, hrounding key row peer.updatedAt hrow htime]
        exact congrArg (peer.isActive && ·) (decide_eq_decide.mpr hsame)

end Restart

namespace Sample

/-- A second client of the user starts to seed, a reap finds the first one too old, and the peers are
flushed. -/
def seederReplaced : List (TrackerEvent ℝ) :=
  [.announce connectableConfig (env 3600) (request 1 2 .started 0),
    .reap connectableConfig (time 7300) (time 7300), .flushPeers (.takeBatches connectableConfig),
    .flushPeers (.finish connectableConfig 0 true)]

end Sample

/-- The row of the first client still calls it active. -/
theorem restart_keeps_swarms_sample :
    ∃ stores stores' : Stores ℝ,
      Stores.new Sample.connectableConfig Sample.databaseWithGroup = some stores ∧
      Stores.new Sample.connectableConfig ((run Tracker.step
        (.atStartup stores Sample.databaseWithGroup .empty .empty .empty)
        Sample.seederReplaced).database Sample.truncated Sample.databaseWithGroup) = some stores' ∧
      SameSwarms Sample.truncated
        (perform Sample.connectableConfig (run Tracker.step
          (.atStartup stores Sample.databaseWithGroup .empty .empty .empty)
          Sample.seederReplaced).state (.reap (Sample.time 7400) (Sample.time 7400))).stores.torrents
        (perform Sample.connectableConfig ⟨Queues.new, stores'⟩
          (.reap (Sample.time 7400) (Sample.time 7400))).stores.torrents := by
  have hloads : (Stores.new Sample.connectableConfig Sample.databaseWithGroup).any (fun stores =>
      let tracker : Tracker ℝ := .atStartup stores Sample.databaseWithGroup .empty .empty .empty
      let final := run Tracker.step tracker Sample.seederReplaced
      decide (Always Tracker.step (fun tracker => tracker.state.stores.torrents.peerCount < 2 ^ 31)
        tracker Sample.seederReplaced) &&
      final.state.queues.peers.records.entries.isEmpty && final.peers.running.isEmpty &&
      final.peers.table.entries.all (fun entry => entry.2.updatedAt.all fun time =>
        decide (storedTime Sample.truncated time < Sample.time 200 ↔ time < Sample.time 200)) &&
      (Stores.new Sample.connectableConfig
        (final.database Sample.truncated Sample.databaseWithGroup)).isSome) = true := by
    simp only [Stores.new, BlacklistedPortStore.default_eq]
    decide +kernel
  obtain ⟨stores, hload, hchecks⟩ := (Option.any_eq_true _ _).mp hloads
  simp only [Bool.and_eq_true, decide_eq_true_eq, List.isEmpty_iff] at hchecks
  obtain ⟨⟨⟨⟨hpeers, hqueue⟩, hrunning⟩, hrounding⟩, hreload⟩ := hchecks
  obtain ⟨stores', hreload⟩ := Option.isSome_iff_exists.mp hreload
  refine ⟨stores, stores', hload, hreload, ?_⟩
  refine (restart_keeps_swarms hload (seedersHaveNoneLeft_sample true) rfl ?_ hpeers ?_ (fun key => ?_)
    (IndexMap.ext hqueue) hrunning hreload).2 _ _ (Sample.time 200) (Sample.time (-1807000))
    (by decide +kernel) (by decide +kernel) ?_ fun key row time hrow htime => ?_
  · intro event hmem
    simp only [Sample.seederReplaced, List.mem_cons, List.not_mem_nil, or_false] at hmem
    rcases hmem with rfl | rfl | rfl | rfl
    · rfl
    · rfl
    · trivial
    · trivial
  · refine ⟨fun _ h => ?_, fun _ h => ?_, fun _ _ => rfl, fun _ h => ?_, trivial⟩
    · cases h
    · cases h
    · cases h
  · simp only [Sample.seederReplaced, log, Tracker.peerUpdates_reap, Tracker.peerUpdates_flushPeers,
      List.append_nil]
    exact Tracker.pairwise_peerUpdates _ _ _ _
  · intro event hmem earlier hearlier
    simp only [Sample.seederReplaced, List.mem_cons, List.not_mem_nil, or_false] at hmem
    rcases hmem with rfl | rfl | rfl | rfl
    · cases hearlier
    · have hcutoff : cutoff (Sample.time 7300) Sample.connectableConfig.activePeerTtl =
          some (Sample.time 100) := by decide +kernel
      rw [← Option.some_inj.mp (hcutoff.symm.trans hearlier)]
      decide +kernel
    · cases hearlier
    · cases hearlier
  · have hentry := List.all_eq_true.mp hrounding _ (IndexMap.get?_eq_some.mp hrow)
    rw [htime, Option.all_some, decide_eq_true_eq] at hentry
    exact hentry

end Unit3dAnnounce
