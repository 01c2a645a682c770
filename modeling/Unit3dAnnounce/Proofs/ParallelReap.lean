import Unit3dAnnounce.Model.ParallelReap
import Unit3dAnnounce.Proofs.MergeOrder
import Unit3dAnnounce.Proofs.StoredPeer
import Unit3dAnnounce.Proofs.Torrents

/-!
# Reaping in any order

Each torrent is reaped by its own thread, which does the same under every schedule. What it does to
the users and to the torrents queue may change places with what the other threads do there. So every
schedule leaves the maps that the loop over the torrents leaves, and from this loop it can be read
which peers, counters and updates they are.
-/

namespace Unit3dAnnounce

open Machine Threads

variable {F : Type}

section Traces

variable (config : Config F) (activeCutoff inactiveCutoff : DateTime)

def ReapEffect.ofPeer (entry : Peer.Index × Peer) : ReapEffect :=
  if entry.2.isExpired activeCutoff && entry.2.isIncludedInPeerList config then
    .discharge entry.1.userId entry.2.isSeeder
  else .nothing

def ReapEffect.ofUpdate : Option (TorrentUpdate.Index × TorrentUpdate) → ReapEffect
  | some record => .enqueue record.1 record.2
  | none => .nothing

/-- What the thread of a torrent does to the shared state. -/
def Torrent.reapEffects (torrent : Torrent) : List ReapEffect :=
  .nothing :: ((torrent.peers.retainRecent inactiveCutoff).entries.map
    (ReapEffect.ofPeer config activeCutoff) ++
      [.ofUpdate (torrent.reapUpdate config activeCutoff inactiveCutoff)])

/-- The thread of a torrent at its end. -/
def Torrent.reapThread (torrent : Torrent) : ReapThread :=
  ⟨(torrent.reap config activeCutoff inactiveCutoff).1,
    (torrent.reap config activeCutoff inactiveCutoff).2, .done⟩

variable {config activeCutoff inactiveCutoff}

lemma ExpiryDeltas.count_of_not {deltas : ExpiryDeltas} {peer : Peer}
    (h : (peer.isExpired activeCutoff && peer.isIncludedInPeerList config) = false) :
    deltas.count config activeCutoff peer = deltas := by
  unfold count
  rw [h]
  rfl

variable (config activeCutoff) in
/-- A step of the loop: the peer at the position has expired, if it was due, and was counted and
discharged, if it was listed. -/
lemma ReapThread.visit_eq {thread : ReapThread} {before after : List (Peer.Index × Peer)}
    {entry : Peer.Index × Peer} (h : thread.torrent.peers.entries = before ++ entry :: after) :
    ∃ peers : PeerStore,
      peers.entries = before ++ (entry.1, entry.2.expire activeCutoff) :: after ∧
      thread.visit config activeCutoff before.length entry.1 entry.2 =
        (⟨{ thread.torrent with peers := peers }, thread.deltas.count config activeCutoff entry.2,
          .peers (before.length + 1)⟩, .ofPeer config activeCutoff entry) := by
  obtain ⟨index, peer⟩ := entry
  have hnodup := thread.torrent.peers.nodup
  rw [h, List.map_append, List.map_cons, List.nodup_middle, List.nodup_cons, List.mem_append,
    not_or] at hnodup
  unfold visit ReapEffect.ofPeer Peer.expire
  cases he : peer.isExpired activeCutoff with
  | false =>
    refine ⟨thread.torrent.peers, h, ?_⟩
    rw [ExpiryDeltas.count_of_not (by simp [he])]
    rfl
  | true =>
    refine ⟨thread.torrent.peers.modify index fun peer => { peer with isActive := false }, ?_, ?_⟩
    · simp only [IndexMap.modify, h, if_true]
      exact @IndexMap.map_modify_eq Peer.Index Peer _ before after index peer hnodup.1.1 hnodup.1.2
        fun peer => { peer with isActive := false }
    · cases hl : peer.isIncludedInPeerList config with
      | false =>
        rw [ExpiryDeltas.count_of_not (by simp [hl])]
        rfl
      | true => rfl

/-- The last step of a thread, behind its last peer. -/
lemma trace_finish {thread : ReapThread}
    (hstage : thread.stage = .peers thread.torrent.peers.entries.length) :
    Trace (reapNext config activeCutoff inactiveCutoff) (some thread) [thread.finish.2]
      (some thread.finish.1) := by
  have hend : thread.torrent.peers.entries[thread.torrent.peers.entries.length]? = none :=
    List.getElem?_eq_none le_rfl
  have hnext : reapNext config activeCutoff inactiveCutoff (some thread) =
      some (some thread.finish.1, thread.finish.2) := by
    simp only [reapNext, Option.bind_some, ReapThread.next, hstage, hend, Option.map_some]
  have hdone : reapNext config activeCutoff inactiveCutoff (some thread.finish.1) = none := by
    simp only [reapNext, Option.bind_some, ReapThread.next, ReapThread.finish]
    split_ifs
    · rfl
    · rfl
  exact .step hnext (.done hdone)

/-- The loop from a position on. -/
lemma trace_peers {before after : List (Peer.Index × Peer)} {thread : ReapThread}
    (hstage : thread.stage = .peers before.length)
    (hentries : thread.torrent.peers.entries = before ++ after) :
    ∃ peers : PeerStore,
      peers.entries = before ++ after.map (fun entry => (entry.1, entry.2.expire activeCutoff)) ∧
      let last : ReapThread := ⟨{ thread.torrent with peers := peers },
        after.foldl (fun deltas entry => deltas.count config activeCutoff entry.2) thread.deltas,
        .peers (before ++ after).length⟩
      Trace (reapNext config activeCutoff inactiveCutoff) (some thread)
        (after.map (.ofPeer config activeCutoff) ++ [last.finish.2]) (some last.finish.1) := by
  induction after generalizing before thread with
  | nil =>
    refine ⟨thread.torrent.peers, hentries, ?_⟩
    rw [← hentries]
    have hend : thread.stage = .peers thread.torrent.peers.entries.length := by
      rw [hstage, hentries, List.append_nil]
    dsimp only [List.map_nil, List.nil_append, List.foldl_nil]
    rw [← hend]
    exact trace_finish hend
  | cons entry after ih =>
    obtain ⟨peers, hpeers, hvisit⟩ := thread.visit_eq config activeCutoff hentries
    have hget : thread.torrent.peers.entries[before.length]? = some entry := by
      rw [hentries, List.getElem?_append_right le_rfl, Nat.sub_self, List.getElem?_cons_zero]
    let moved : ReapThread := ⟨{ thread.torrent with peers := peers },
      thread.deltas.count config activeCutoff entry.2, .peers (before.length + 1)⟩
    have hnext : reapNext config activeCutoff inactiveCutoff (some thread) =
        some (some moved, .ofPeer config activeCutoff entry) := by
      simp only [reapNext, Option.bind_some, ReapThread.next, hstage, hget, Option.map_some, hvisit,
        moved]
    have hconcat : before ++ (entry.1, entry.2.expire activeCutoff) :: after =
        (before ++ [(entry.1, entry.2.expire activeCutoff)]) ++ after := by
      rw [List.append_assoc, List.singleton_append]
    have hmoved : moved.stage = .peers (before ++ [(entry.1, entry.2.expire activeCutoff)]).length := by
      rw [List.length_append, List.length_singleton]
    rw [hconcat] at hpeers
    obtain ⟨peers', hpeers', htrace⟩ := ih hmoved hpeers
    refine ⟨peers', ?_, .step hnext ?_⟩
    · rw [hpeers', List.append_assoc, List.singleton_append, List.map_cons]
    · have hlength : ((before ++ [(entry.1, entry.2.expire activeCutoff)]) ++ after).length =
          (before ++ entry :: after).length := by
        simp only [List.length_append, List.length_cons, List.length_nil]
        omega
      rw [hlength] at htrace
      exact htrace

/-- After the loop, a thread adds its deltas to the counters and enqueues them. -/
lemma finish_reapThread (torrent : Torrent) (position : ℕ) :
    ReapThread.finish ⟨{ torrent with
        peers := (torrent.peers.retainRecent inactiveCutoff).mapValues fun _ peer =>
          peer.expire activeCutoff },
      (torrent.peers.retainRecent inactiveCutoff).expiryDeltas config activeCutoff, .peers position⟩ =
      (torrent.reapThread config activeCutoff inactiveCutoff,
        .ofUpdate (torrent.reapUpdate config activeCutoff inactiveCutoff)) := by
  unfold ReapThread.finish Torrent.reapThread Torrent.reapUpdate Torrent.reap
  dsimp only
  split_ifs
  · rfl
  · rfl

/-- The thread of a torrent does what the loop over the torrents does for it. -/
lemma trace_reapThread (torrent : Torrent) :
    Trace (reapNext config activeCutoff inactiveCutoff) (some (.new torrent))
      (torrent.reapEffects config activeCutoff inactiveCutoff)
      (some (torrent.reapThread config activeCutoff inactiveCutoff)) := by
  let retained : ReapThread := ⟨{ torrent with peers := torrent.peers.retainRecent inactiveCutoff },
    ⟨0, 0⟩, .peers 0⟩
  have hnext : reapNext config activeCutoff inactiveCutoff (some (.new torrent)) =
      some (some retained, .nothing) := rfl
  obtain ⟨peers, hpeers, htrace⟩ := @trace_peers F config activeCutoff inactiveCutoff []
    retained.torrent.peers.entries retained rfl rfl
  have hexpired : peers = retained.torrent.peers.mapValues fun _ peer => peer.expire activeCutoff :=
    IndexMap.ext hpeers
  subst hexpired
  let last : ReapThread := ⟨{ torrent with
      peers := (torrent.peers.retainRecent inactiveCutoff).mapValues fun _ peer =>
        peer.expire activeCutoff },
    (torrent.peers.retainRecent inactiveCutoff).expiryDeltas config activeCutoff,
    .peers (torrent.peers.retainRecent inactiveCutoff).entries.length⟩
  have htrace : Trace (reapNext config activeCutoff inactiveCutoff) (some retained)
      ((torrent.peers.retainRecent inactiveCutoff).entries.map (.ofPeer config activeCutoff) ++
        [last.finish.2]) (some last.finish.1) := htrace
  have hfinish : last.finish = (torrent.reapThread config activeCutoff inactiveCutoff,
      .ofUpdate (torrent.reapUpdate config activeCutoff inactiveCutoff)) := finish_reapThread torrent _
  rw [hfinish] at htrace
  exact .step hnext htrace

end Traces

/-- The state with its torrents queue as a map. -/
structure QueueView (F : Type) where
  state : AppState F
  torrents : TorrentUpdate.Index → Option TorrentUpdate

def queueView (state : AppState F) : QueueView F :=
  ⟨{ state with queues.torrents.records := IndexMap.empty }, state.queues.torrents.records.get?⟩

namespace QueueView

def merge (view : QueueView F) (index : TorrentUpdate.Index) (update : Option TorrentUpdate) :
    QueueView F :=
  { view with torrents := Function.update view.torrents index (mergeRecord (view.torrents index) update) }

def mergeAll (view : QueueView F) (records : List (TorrentUpdate.Index × TorrentUpdate)) : QueueView F :=
  records.foldl (fun view record => view.merge record.1 (some record.2)) view

def withUsers (view : QueueView F) (users : UserStore F) : QueueView F :=
  { view with state.stores.users := users }

def withTorrents (view : QueueView F) (torrents : TorrentStore) : QueueView F :=
  { view with state.stores.torrents := torrents }

def apply (view : QueueView F) : ReapEffect → QueueView F
  | .nothing => view
  | .discharge userId isSeeder =>
    view.withUsers (view.state.stores.users.modify userId (User.discharge isSeeder))
  | .enqueue index update => view.merge index (some update)

end QueueView

lemma queueView_upsert (state : AppState F) (index : TorrentUpdate.Index) (update : TorrentUpdate) :
    queueView { state with queues.torrents := state.queues.torrents.upsert index update } =
      (queueView state).merge index (some update) := by
  have hget : (state.queues.torrents.upsert index update).records.get? =
      Function.update state.queues.torrents.records.get? index
        (mergeRecord (state.queues.torrents.records.get? index) (some update)) := by
    funext key
    rw [Queue.upsert, IndexMap.get?_upsert, Function.update_apply]
    by_cases hkey : key = index
    · subst hkey
      rw [if_pos rfl, if_pos rfl]
      cases state.queues.torrents.records.get? key <;> rfl
    · rw [if_neg hkey, if_neg hkey]
  unfold queueView QueueView.merge
  rw [← hget]
  rfl

lemma queueView_apply (state : AppState F) (effect : ReapEffect) :
    queueView (effect.apply state) = (queueView state).apply effect := by
  cases effect with
  | nothing => rfl
  | discharge userId isSeeder => rfl
  | enqueue index update => exact queueView_upsert state index update

/-- An update of a reap takes seeders and leechers away. -/
structure TorrentUpdate.IsReduction (update : TorrentUpdate) : Prop where
  seederDelta : update.seederDelta ≤ 0
  leecherDelta : update.leecherDelta ≤ 0
  timesCompletedDelta : update.timesCompletedDelta = 0
  balanceDelta : update.balanceDelta = 0

def ReapEffect.IsReduction : ReapEffect → Prop
  | .enqueue _ update => update.IsReduction
  | _ => True

/-- The waiting deltas are at most the largest value of `i32`. -/
def QueueView.IsBounded (view : QueueView F) : Prop :=
  ∀ index update, view.torrents index = some update →
    update.seederDelta ≤ 2 ^ 31 - 1 ∧ update.leecherDelta ≤ 2 ^ 31 - 1

lemma saturatingAddI32_le (x y : ℤ) : saturatingAddI32 x y ≤ 2 ^ 31 - 1 := by
  unfold saturatingAddI32
  omega

lemma saturatingAddI32_right_comm {x y z : ℤ} (hx : x ≤ 2 ^ 31 - 1) (hy : y ≤ 0) (hz : z ≤ 0) :
    saturatingAddI32 (saturatingAddI32 x y) z = saturatingAddI32 (saturatingAddI32 x z) y := by
  unfold saturatingAddI32
  omega

lemma TorrentUpdate.merge_right_comm {waiting update update' : TorrentUpdate}
    (hseeder : waiting.seederDelta ≤ 2 ^ 31 - 1) (hleecher : waiting.leecherDelta ≤ 2 ^ 31 - 1)
    (h : update.IsReduction) (h' : update'.IsReduction) :
    Mergeable.merge (Mergeable.merge waiting update) update' =
      Mergeable.merge (Mergeable.merge waiting update') update := by
  simp only [Mergeable.merge, h.timesCompletedDelta, h'.timesCompletedDelta, h.balanceDelta,
    h'.balanceDelta, saturatingAddI32_right_comm hseeder h.seederDelta h'.seederDelta,
    saturatingAddI32_right_comm hleecher h.leecherDelta h'.leecherDelta]

lemma TorrentUpdate.merge_comm {update update' : TorrentUpdate} :
    Mergeable.merge update update' = Mergeable.merge update' update := by
  simp only [Mergeable.merge, saturatingAddI32, saturatingAddI64,
    saturatingAddU32_comm update.timesCompletedDelta, add_comm update.seederDelta,
    add_comm update.leecherDelta, add_comm update.balanceDelta]

/-- Updates of a reap may be merged into a waiting record in either order. -/
lemma mergeRecord_right_comm {waiting : Option TorrentUpdate} {update update' : TorrentUpdate}
    (hwaiting : ∀ record, waiting = some record →
      record.seederDelta ≤ 2 ^ 31 - 1 ∧ record.leecherDelta ≤ 2 ^ 31 - 1)
    (h : update.IsReduction) (h' : update'.IsReduction) :
    mergeRecord (mergeRecord waiting (some update)) (some update') =
      mergeRecord (mergeRecord waiting (some update')) (some update) := by
  cases waiting with
  | none => exact congrArg some TorrentUpdate.merge_comm
  | some record =>
    obtain ⟨hseeder, hleecher⟩ := hwaiting record rfl
    exact congrArg some (TorrentUpdate.merge_right_comm hseeder hleecher h h')

lemma User.discharge_comm (isSeeder isSeeder' : Bool) (user : User F) :
    (user.discharge isSeeder).discharge isSeeder' = (user.discharge isSeeder').discharge isSeeder := by
  cases isSeeder <;> cases isSeeder' <;> rfl

lemma UserStore.modify_discharge_comm (users : UserStore F) (userId userId' : UInt32)
    (isSeeder isSeeder' : Bool) :
    (users.modify userId (User.discharge isSeeder)).modify userId' (User.discharge isSeeder') =
      (users.modify userId' (User.discharge isSeeder')).modify userId (User.discharge isSeeder) := by
  simp only [IndexMap.modify_eq_mapValues, IndexMap.mapValues_mapValues]
  congr 1
  funext id user
  by_cases h : id = userId
  · by_cases h' : id = userId'
    · simp only [if_pos h, if_pos h', User.discharge_comm]
    · simp only [if_pos h, if_neg h']
  · by_cases h' : id = userId'
    · simp only [if_neg h, if_pos h']
    · simp only [if_neg h, if_neg h']

lemma QueueView.isBounded_merge {view : QueueView F} (hview : view.IsBounded)
    (index : TorrentUpdate.Index) {update : TorrentUpdate} (h : update.IsReduction) :
    (view.merge index (some update)).IsBounded := by
  intro key record hrecord
  simp only [merge, Function.update_apply] at hrecord
  split_ifs at hrecord
  · cases hwaiting : view.torrents index with
    | none =>
      rw [hwaiting] at hrecord
      obtain rfl : update = record := Option.some_inj.mp hrecord
      exact ⟨h.seederDelta.trans (by norm_num), h.leecherDelta.trans (by norm_num)⟩
    | some waiting =>
      rw [hwaiting] at hrecord
      obtain rfl : Mergeable.merge waiting update = record := Option.some_inj.mp hrecord
      exact ⟨saturatingAddI32_le _ _, saturatingAddI32_le _ _⟩
  · exact hview key record hrecord

lemma QueueView.merge_comm {view : QueueView F} (hview : view.IsBounded)
    {index index' : TorrentUpdate.Index} {update update' : TorrentUpdate} (h : update.IsReduction)
    (h' : update'.IsReduction) :
    (view.merge index (some update)).merge index' (some update') =
      (view.merge index' (some update')).merge index (some update) := by
  unfold merge
  congr 1
  by_cases hindex : index' = index
  · subst hindex
    simp only [Function.update_self, Function.update_idem]
    rw [mergeRecord_right_comm (fun record => hview index' record) h h']
  · simp only [Function.update_of_ne hindex, Function.update_of_ne (Ne.symm hindex)]
    exact Function.update_comm (Ne.symm hindex) _ _ _

/-- The effects of all threads may change places. -/
lemma commuting_apply :
    Commuting (@QueueView.apply F) ReapEffect.IsReduction QueueView.IsBounded where
  keep view effect heffect hview := by
    cases effect with
    | nothing => exact hview
    | discharge userId isSeeder => exact hview
    | enqueue index update => exact QueueView.isBounded_merge hview index heffect
  comm view effect effect' heffect heffect' hview := by
    cases effect with
    | nothing => rfl
    | discharge userId isSeeder =>
      cases effect' with
      | nothing => rfl
      | discharge userId' isSeeder' =>
        exact congrArg view.withUsers (UserStore.modify_discharge_comm _ _ _ _ _)
      | enqueue index' update' => rfl
    | enqueue index update =>
      cases effect' with
      | nothing => rfl
      | discharge userId' isSeeder' => rfl
      | enqueue index' update' => exact QueueView.merge_comm hview heffect heffect'

section Serial

variable (config : Config F) (activeCutoff inactiveCutoff : DateTime)

/-- What the threads do, torrent by torrent. -/
def TorrentStore.serialEffects (torrents : TorrentStore) : List (UInt32 × ReapEffect) :=
  torrents.entries.flatMap fun entry =>
    (entry.2.reapEffects config activeCutoff inactiveCutoff).map (Prod.mk entry.1)

lemma TorrentStore.actionsOf_serialEffects (torrents : TorrentStore) (id : UInt32) :
    actionsOf id (torrents.serialEffects config activeCutoff inactiveCutoff) =
      (torrents.get? id).elim [] fun torrent =>
        torrent.reapEffects config activeCutoff inactiveCutoff := by
  have hnodup := torrents.nodup
  unfold serialEffects IndexMap.get?
  generalize torrents.entries = entries at hnodup ⊢
  induction entries with
  | nil => rfl
  | cons entry entries ih =>
    obtain ⟨id', torrent⟩ := entry
    rw [List.map_cons, List.nodup_cons] at hnodup
    rw [List.flatMap_cons, actionsOf_append, ih hnodup.2]
    by_cases hid : id' = id
    · subst hid
      rw [actionsOf_map_mk, List.lookup_cons_self,
        (IndexMap.lookup_eq_none_iff_notMem entries id').mpr hnodup.1]
      exact List.append_nil _
    · have hlookup : ((id', torrent) :: entries).lookup id = entries.lookup id := by
        rw [List.lookup_cons, beq_eq_false_iff_ne.mpr (Ne.symm hid)]
      rw [actionsOf_map_mk_of_ne hid, hlookup, List.nil_append]

variable {config activeCutoff inactiveCutoff}

lemma QueueView.foldl_ofPeer (view : QueueView F) (peers : List (Peer.Index × Peer)) :
    (peers.map (.ofPeer config activeCutoff)).foldl apply view =
      view.withUsers
        (peers.foldl (UserStore.dischargePeer config activeCutoff) view.state.stores.users) := by
  induction peers generalizing view with
  | nil => rfl
  | cons entry peers ih =>
    have hstep : view.apply (.ofPeer config activeCutoff entry) =
        view.withUsers (view.state.stores.users.dischargePeer config activeCutoff entry) := by
      unfold ReapEffect.ofPeer UserStore.dischargePeer
      split_ifs
      · rfl
      · rfl
    rw [List.map_cons, List.foldl_cons, List.foldl_cons, ih, hstep]
    rfl

/-- What one thread does. -/
lemma QueueView.foldl_reapEffects (view : QueueView F) (torrent : Torrent) :
    (torrent.reapEffects config activeCutoff inactiveCutoff).foldl apply view =
      (view.withUsers
        (view.state.stores.users.dischargePeers config activeCutoff inactiveCutoff torrent)).mergeAll
          (torrent.reapUpdate config activeCutoff inactiveCutoff).toList := by
  rw [Torrent.reapEffects, List.foldl_cons, List.foldl_append]
  simp only [apply]
  rw [foldl_ofPeer]
  cases torrent.reapUpdate config activeCutoff inactiveCutoff with
  | none => rfl
  | some record => rfl

lemma QueueView.withUsers_mergeAll (view : QueueView F) (users : UserStore F)
    (records : List (TorrentUpdate.Index × TorrentUpdate)) :
    (view.mergeAll records).withUsers users = (view.withUsers users).mergeAll records := by
  induction records generalizing view with
  | nil => rfl
  | cons record records ih => exact ih (view.merge record.1 (some record.2))

lemma QueueView.withTorrents_mergeAll (view : QueueView F) (torrents : TorrentStore)
    (records : List (TorrentUpdate.Index × TorrentUpdate)) :
    (view.mergeAll records).withTorrents torrents = (view.withTorrents torrents).mergeAll records := by
  induction records generalizing view with
  | nil => rfl
  | cons record records ih => exact ih (view.merge record.1 (some record.2))

lemma QueueView.state_mergeAll (view : QueueView F)
    (records : List (TorrentUpdate.Index × TorrentUpdate)) :
    (view.mergeAll records).state = view.state := by
  induction records generalizing view with
  | nil => rfl
  | cons record records ih => exact ih (view.merge record.1 (some record.2))

/-- What all threads do, one after the other. -/
lemma QueueView.foldl_entries (view : QueueView F) (entries : List (UInt32 × Torrent)) :
    (entries.flatMap fun entry => entry.2.reapEffects config activeCutoff inactiveCutoff).foldl apply view =
      (view.withUsers (entries.foldl
        (fun users entry => users.dischargePeers config activeCutoff inactiveCutoff entry.2)
        view.state.stores.users)).mergeAll
          (entries.filterMap fun entry => entry.2.reapUpdate config activeCutoff inactiveCutoff) := by
  induction entries generalizing view with
  | nil => rfl
  | cons entry entries ih =>
    rw [List.flatMap_cons, List.foldl_append, foldl_reapEffects, ih, state_mergeAll,
      withUsers_mergeAll, List.foldl_cons, List.filterMap_cons]
    cases entry.2.reapUpdate config activeCutoff inactiveCutoff with
    | none => rfl
    | some record => rfl

/-- An enqueued update takes seeders and leechers away. -/
lemma Torrent.isReduction_reapEffects (torrent : Torrent) :
    ∀ effect ∈ torrent.reapEffects config activeCutoff inactiveCutoff, effect.IsReduction := by
  have hseed := torrent.delta_reap config activeCutoff inactiveCutoff .seed
  have hleech := torrent.delta_reap config activeCutoff inactiveCutoff .leech
  simp only [ExpiryDeltas.delta] at hseed hleech
  simp only [reapEffects, List.forall_mem_cons, List.forall_mem_append, List.forall_mem_map,
    List.not_mem_nil, false_implies, implies_true, and_true]
  refine ⟨trivial, ?_, ?_⟩
  · intro entry _
    unfold ReapEffect.ofPeer
    split_ifs
    · trivial
    · trivial
  · cases hupdate : torrent.reapUpdate config activeCutoff inactiveCutoff with
    | none => trivial
    | some record =>
      rw [Torrent.reapUpdate_some hupdate]
      exact ⟨by dsimp only; omega, by dsimp only; omega, rfl, rfl⟩

/-- Enqueuing records and merging them into the view is the same. -/
lemma queueView_foldl_upsert (state : AppState F) (records : List (TorrentUpdate.Index × TorrentUpdate)) :
    queueView { state with
        queues.torrents := records.foldl (fun queue record => queue.upsert record.1 record.2)
          state.queues.torrents } = (queueView state).mergeAll records := by
  induction records generalizing state with
  | nil => rfl
  | cons record records ih =>
    rw [QueueView.mergeAll, List.foldl_cons, List.foldl_cons, ← queueView_upsert, ← QueueView.mergeAll,
      ← ih]

end Serial

section Schedules

variable {config : Config F} {activeCutoff inactiveCutoff : DateTime} {state : AppState F}

lemma trace_reapThreads (id : UInt32) :
    Trace (reapNext config activeCutoff inactiveCutoff) ((reapThreads state).locals id)
      ((state.stores.torrents.get? id).elim [] fun torrent =>
        torrent.reapEffects config activeCutoff inactiveCutoff)
      ((state.stores.torrents.get? id).map fun torrent =>
        torrent.reapThread config activeCutoff inactiveCutoff) := by
  have hlocals : (reapThreads state).locals id =
      (state.stores.torrents.get? id).map ReapThread.new := rfl
  rw [hlocals]
  cases state.stores.torrents.get? id with
  | none => exact .done rfl
  | some torrent => exact trace_reapThread torrent

lemma queueView_reapTorrents :
    queueView (reapTorrents config activeCutoff inactiveCutoff state) =
      (((queueView state).withUsers
        (reapTorrents config activeCutoff inactiveCutoff state).stores.users).withTorrents
          (reapTorrents config activeCutoff inactiveCutoff state).stores.torrents).mergeAll
            (state.stores.torrents.reapRecords config activeCutoff inactiveCutoff) :=
  queueView_foldl_upsert
    { state with stores := (reapTorrents config activeCutoff inactiveCutoff state).stores } _

lemma map_snd_serialEffects (torrents : TorrentStore) :
    (torrents.serialEffects config activeCutoff inactiveCutoff).map Prod.snd =
      torrents.entries.flatMap fun entry => entry.2.reapEffects config activeCutoff inactiveCutoff := by
  simp [TorrentStore.serialEffects, List.map_flatMap, Function.comp_def]

/-- The torrents of the threads at their ends are those of the loop. -/
lemma torrents_parallelReap {schedule : List UInt32}
    (hlocals : (runReap config activeCutoff inactiveCutoff state schedule).locals = fun id =>
      (state.stores.torrents.get? id).map fun torrent =>
        torrent.reapThread config activeCutoff inactiveCutoff) :
    (parallelReap config activeCutoff inactiveCutoff state schedule).stores.torrents =
      (reapTorrents config activeCutoff inactiveCutoff state).stores.torrents := by
  apply IndexMap.ext
  apply List.map_congr_left
  rintro ⟨id, torrent⟩ hmem
  have hget : state.stores.torrents.get? id = some torrent := IndexMap.get?_eq_some.mpr hmem
  have hlocal := congrFun hlocals id
  rw [hget, Option.map_some] at hlocal
  dsimp only
  rw [hlocal]
  rfl

/-- Whatever the schedule, the pool leaves what the loop over the torrents leaves. -/
theorem queueView_parallelReap (hqueue : (queueView state).IsBounded) {schedule : List UInt32}
    (hdone : CompletesReap config activeCutoff inactiveCutoff state schedule) :
    queueView (parallelReap config activeCutoff inactiveCutoff state schedule) =
      queueView (reapTorrents config activeCutoff inactiveCutoff state) := by
  have hP : ∀ id, ∀ effect ∈ (state.stores.torrents.get? id).elim [] fun torrent =>
      torrent.reapEffects config activeCutoff inactiveCutoff, effect.IsReduction := by
    intro id
    cases state.stores.torrents.get? id with
    | none => simp
    | some torrent => exact torrent.isReduction_reapEffects
  obtain ⟨hlocals, hshared⟩ := run_of_isDone queueView_apply commuting_apply trace_reapThreads hP hqueue
    (state.stores.torrents.actionsOf_serialEffects config activeCutoff inactiveCutoff) hdone
  rw [map_snd_serialEffects, QueueView.foldl_entries] at hshared
  have htorrents : (parallelReap config activeCutoff inactiveCutoff state schedule).stores.torrents =
      (reapTorrents config activeCutoff inactiveCutoff state).stores.torrents :=
    torrents_parallelReap hlocals
  calc queueView (parallelReap config activeCutoff inactiveCutoff state schedule)
      = (queueView (runReap config activeCutoff inactiveCutoff state schedule).shared).withTorrents
          (parallelReap config activeCutoff inactiveCutoff state schedule).stores.torrents := rfl
    _ = (((queueView state).withUsers
          (reapTorrents config activeCutoff inactiveCutoff state).stores.users).mergeAll
            (state.stores.torrents.reapRecords config activeCutoff inactiveCutoff)).withTorrents
          (reapTorrents config activeCutoff inactiveCutoff state).stores.torrents := by
      rw [htorrents]
      exact congrArg (fun view : QueueView F => view.withTorrents _) hshared
    _ = queueView (reapTorrents config activeCutoff inactiveCutoff state) := by
      rw [QueueView.withTorrents_mergeAll, queueView_reapTorrents]

/-- Some schedule completes: the pool cannot get stuck. -/
theorem exists_completesReap (config : Config F) (activeCutoff inactiveCutoff : DateTime)
    (state : AppState F) : ∃ schedule, CompletesReap config activeCutoff inactiveCutoff state schedule := by
  apply exists_isDone trace_reapThreads (state.stores.torrents.entries.map Prod.fst)
  intro id hid
  have hlocals : (reapThreads state).locals id = none := by
    simp [reapThreads, IndexMap.get?_eq_none.mpr hid]
  rw [hlocals]
  rfl

end Schedules

section Exact

variable (config : Config F) (activeCutoff inactiveCutoff : DateTime)

/-- A torrent before and after a reap. -/
structure Torrent.ReapsTo (torrent torrent' : Torrent) : Prop where
  /-- Peers that were inactive before are erased when they are old, and the others at most become
  inactive. -/
  peers : ∀ index, torrent'.peers.get? index = (torrent.peers.get? index).bind fun peer =>
    if peer.isActive = false ∧ peer.updatedAt < inactiveCutoff then none
    else if peer.updatedAt < activeCutoff then some { peer with isActive := false }
    else some peer
  counters : ∀ kind, (torrent'.counter kind).toNat =
    (torrent.counter kind).toNat - torrent.dropped config activeCutoff kind
  rest : torrent' = { torrent with
    peers := torrent'.peers
    seeders := torrent'.seeders
    leechers := torrent'.leechers }

/-- The update that takes away what a torrent has lost. -/
def Torrent.reduction? (torrent : Torrent) : Option (TorrentUpdate.Index × TorrentUpdate) :=
  if torrent.dropped config activeCutoff .seed = 0 ∧ torrent.dropped config activeCutoff .leech = 0
  then none
  else some (⟨torrent.id⟩, ⟨-(torrent.dropped config activeCutoff .seed : ℤ),
    -(torrent.dropped config activeCutoff .leech : ℤ), 0, 0⟩)

/-- A state before and after a reap. -/
structure ReapsTo (state state' : AppState F) : Prop where
  torrents : ∀ id, Option.Rel (Torrent.ReapsTo config activeCutoff inactiveCutoff)
    (state.stores.torrents.get? id) (state'.stores.torrents.get? id)
  users : ∀ userId, state'.stores.users.get? userId = (state.stores.users.get? userId).map fun user =>
    user.less fun kind => state.stores.torrents.droppedOf config activeCutoff kind userId
  queue : ∀ index, state'.queues.torrents.records.get? index =
    (valuesOf index (state.stores.torrents.entries.filterMap fun entry =>
      entry.2.reduction? config activeCutoff)).foldl
        (fun waiting update => mergeRecord waiting (some update))
        (state.queues.torrents.records.get? index)
  rest : state' = { state with
    queues.torrents.records := state'.queues.torrents.records
    stores.torrents := state'.stores.torrents
    stores.users := state'.stores.users }

variable {config activeCutoff inactiveCutoff}

/-- What a reap does to one peer. -/
lemma Peer.expire_eq (peer : Peer) :
    (if inactiveCutoff ≤ peer.updatedAt ∨ peer.isActive then some (peer.expire activeCutoff) else none) =
      if peer.isActive = false ∧ peer.updatedAt < inactiveCutoff then none
      else if peer.updatedAt < activeCutoff then some { peer with isActive := false }
      else some peer := by
  obtain ⟨ipAddress, port, isSeeder, isActive, isVisible, isConnectable, hasSentCompleted, updatedAt,
    uploaded, downloaded⟩ := peer
  unfold Peer.expire Peer.isExpired
  cases isActive with
  | true => by_cases hdue : updatedAt < activeCutoff <;> simp [hdue]
  | false => by_cases hold : updatedAt < inactiveCutoff <;> simp [hold]

lemma Torrent.reapsTo_reap (torrent : Torrent) :
    torrent.ReapsTo config activeCutoff inactiveCutoff
      (torrent.reap config activeCutoff inactiveCutoff).1 where
  peers index := by
    rw [Torrent.peers_reap, IndexMap.get?_mapValues, PeerStore.retainRecent, IndexMap.get?_retain]
    cases torrent.peers.get? index with
    | none => rfl
    | some peer =>
      rw [Option.bind_some, ← Peer.expire_eq, Option.filter_some]
      simp only [Bool.or_eq_true, decide_eq_true_eq]
      split_ifs
      · rfl
      · rfl
  counters kind := by
    have hlt := (torrent.counter kind).toNat_lt
    rw [Torrent.counter_reap, toNat_saturatingAddSigned]
    omega
  rest := by
    rw [Torrent.reap_eq]

lemma Torrent.reapUpdate_eq (torrent : Torrent) :
    torrent.reapUpdate config activeCutoff inactiveCutoff = torrent.reduction? config activeCutoff := by
  have hseed := torrent.delta_reap config activeCutoff inactiveCutoff .seed
  have hleech := torrent.delta_reap config activeCutoff inactiveCutoff .leech
  simp only [ExpiryDeltas.delta] at hseed hleech
  have hid : (torrent.reap config activeCutoff inactiveCutoff).1.id = torrent.id :=
    Torrent.id_reap torrent
  unfold Torrent.reapUpdate Torrent.reduction?
  simp only [hseed, hleech, hid, ne_eq, neg_eq_zero, Nat.cast_eq_zero, Bool.or_eq_true,
    decide_eq_true_eq]
  by_cases hs : torrent.dropped config activeCutoff .seed = 0
  · by_cases hl : torrent.dropped config activeCutoff .leech = 0
    · simp [hs, hl]
    · simp [hl]
  · simp [hs]

lemma QueueView.torrents_mergeAll (view : QueueView F)
    (records : List (TorrentUpdate.Index × TorrentUpdate)) (index : TorrentUpdate.Index) :
    (view.mergeAll records).torrents index =
      (valuesOf index records).foldl (fun waiting update => mergeRecord waiting (some update))
        (view.torrents index) := by
  induction records generalizing view with
  | nil => rfl
  | cons record records ih =>
    rw [mergeAll, List.foldl_cons, ← mergeAll, ih]
    unfold valuesOf merge
    simp only [Function.update_apply]
    by_cases hindex : record.1 = index
    · subst hindex
      simp
    · simp [hindex, Ne.symm hindex]

/-- What the maps show of a reap. -/
lemma reapsTo_of_queueView {state state' : AppState F}
    (h : queueView state' = queueView (reapTorrents config activeCutoff inactiveCutoff state)) :
    ReapsTo config activeCutoff inactiveCutoff state state' := by
  have hstores : state'.stores = (reapTorrents config activeCutoff inactiveCutoff state).stores :=
    congrArg (fun view : QueueView F => view.state.stores) h
  rw [queueView_reapTorrents] at h
  have htorrents := congrArg QueueView.torrents h
  have hstate := congrArg QueueView.state h
  rw [QueueView.state_mergeAll] at hstate
  constructor
  · intro id
    rw [hstores]
    simp only [reapTorrents, IndexMap.get?_mapValues]
    cases state.stores.torrents.get? id with
    | none => exact .none
    | some torrent => exact .some torrent.reapsTo_reap
  · intro userId
    rw [hstores, users_reapTorrents, IndexMap.get?_mapValues]
  · intro index
    have hindex := congrFun htorrents index
    rw [QueueView.torrents_mergeAll] at hindex
    simp only [TorrentStore.reapRecords, Torrent.reapUpdate_eq] at hindex
    exact hindex
  · calc state' = { (queueView state').state with
          queues.torrents.records := state'.queues.torrents.records } := rfl
      _ = _ := by
        rw [hstate, hstores]
        rfl

end Exact

/-- All states whose maps are the same. -/
def SameMaps (state state' : AppState F) : Prop := queueView state = queueView state'

/-- A reap does what it is for, and under every schedule the same. -/
theorem parallelReap_exact (config : Config F) (activeCutoff inactiveCutoff : DateTime)
    (state : AppState F) (hqueue : ∀ index update,
      state.queues.torrents.records.get? index = some update → update.Representable) :
    (∀ schedule, CompletesReap config activeCutoff inactiveCutoff state schedule →
      ReapsTo config activeCutoff inactiveCutoff state
        (parallelReap config activeCutoff inactiveCutoff state schedule)) ∧
    ∀ schedule schedule', CompletesReap config activeCutoff inactiveCutoff state schedule →
      CompletesReap config activeCutoff inactiveCutoff state schedule' →
      SameMaps (parallelReap config activeCutoff inactiveCutoff state schedule)
        (parallelReap config activeCutoff inactiveCutoff state schedule') := by
  have hbounded : (queueView state).IsBounded := fun index update hupdate =>
    ⟨(hqueue index update hupdate).seederDelta.2, (hqueue index update hupdate).leecherDelta.2⟩
  constructor
  · intro schedule hdone
    exact reapsTo_of_queueView (queueView_parallelReap hbounded hdone)
  · intro schedule schedule' hdone hdone'
    exact (queueView_parallelReap hbounded hdone).trans (queueView_parallelReap hbounded hdone').symm

/-- Keys without a torrent have no thread, so only the others have to come to their ends. -/
lemma completesReap_of_stored {config : Config F} {activeCutoff inactiveCutoff : DateTime}
    {state : AppState F} {schedule : List UInt32}
    (h : ∀ entry ∈ state.stores.torrents.entries,
      (reapNext config activeCutoff inactiveCutoff
        ((runReap config activeCutoff inactiveCutoff state schedule).locals entry.1)).isNone) :
    CompletesReap config activeCutoff inactiveCutoff state schedule := by
  intro id
  cases hget : state.stores.torrents.get? id with
  | some torrent => exact Option.isNone_iff_eq_none.mp (h (id, torrent) (IndexMap.get?_eq_some.mp hget))
  | none =>
    apply next_run_eq_none
    have hlocals : (reapThreads state).locals id = none := by
      simp [reapThreads, hget]
    rw [hlocals]
    rfl

namespace Sample

/-- A peer of the user that was last seen at the time 0. -/
def stalePeer (isSeeder : Bool) : Peer where
  ipAddress := address
  port := 51413
  isSeeder := isSeeder
  isActive := true
  isVisible := true
  isConnectable := true
  hasSentCompleted := false
  updatedAt := time 0
  uploaded := 0
  downloaded := 0

/-- The user seeds torrent 1 and leeches torrent 2. -/
def staleState : AppState ℝ :=
  { state none [] with
    stores.torrents :=
      (IndexMap.insert .empty 1
        { torrent 1 (.insert .empty ⟨1, peerId 1⟩ (stalePeer true)) with seeders := 1 }).insert 2
        { torrent 2 (.insert .empty ⟨1, peerId 1⟩ (stalePeer false)) with leechers := 1 } }

end Sample

/-- The two torrents, step by step in turns and one after the other. -/
theorem parallelReap_exact_interleaved :
    ReapsTo Sample.config (Sample.time 7200) (Sample.time 1) Sample.staleState
      (parallelReap Sample.config (Sample.time 7200) (Sample.time 1) Sample.staleState
        [1, 2, 2, 1, 1, 2]) ∧
    SameMaps
      (parallelReap Sample.config (Sample.time 7200) (Sample.time 1) Sample.staleState
        [1, 2, 2, 1, 1, 2])
      (parallelReap Sample.config (Sample.time 7200) (Sample.time 1) Sample.staleState
        [2, 2, 2, 1, 1, 1]) := by
  have hqueue : ∀ index update, Sample.staleState.queues.torrents.records.get? index = some update →
      update.Representable := by
    intro index update h
    simp [Sample.staleState, Sample.state, Queues.new, Queue.new] at h
  have hdone : CompletesReap Sample.config (Sample.time 7200) (Sample.time 1) Sample.staleState
      [1, 2, 2, 1, 1, 2] := completesReap_of_stored (by decide +kernel)
  have hdone' : CompletesReap Sample.config (Sample.time 7200) (Sample.time 1) Sample.staleState
      [2, 2, 2, 1, 1, 1] := completesReap_of_stored (by decide +kernel)
  have h := parallelReap_exact Sample.config (Sample.time 7200) (Sample.time 1) Sample.staleState hqueue
  exact ⟨h.1 _ hdone, h.2 _ _ hdone hdone'⟩

end Unit3dAnnounce
