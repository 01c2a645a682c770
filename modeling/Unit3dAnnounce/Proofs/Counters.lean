import Unit3dAnnounce.Model.Sample
import Unit3dAnnounce.Proofs.Lists

/-!
# Counter agreement

The seeders and leechers of a torrent, and the seeding and leeching counts of a user, are numbers
that announces and reaps adjust by deltas. They never drift from the peers they count, and no
adjustment saturates.
-/

namespace Unit3dAnnounce

open Machine

variable {F : Type}

/-- A counter of a user, if they are stored, agrees with their listed peers. -/
def UserAgrees (config : Config F) (kind : ListKind) (userId : UInt32) (stores : Stores F) : Prop :=
  ∀ user, stores.users.get? userId = some user →
    (user.counter kind).toNat = stores.torrents.listedOf config kind userId

def TorrentAgrees (config : Config F) (kind : ListKind) (id : UInt32) (stores : Stores F) : Prop :=
  ∀ torrent, stores.torrents.get? id = some torrent →
    (torrent.counter kind).toNat = torrent.listed config kind

structure CountersAgree (config : Config F) (state : AppState F) : Prop where
  torrents : ∀ kind id, TorrentAgrees config kind id state.stores
  users : ∀ kind userId, UserAgrees config kind userId state.stores

variable [RateField F] {config : Config F} {state : AppState F}

/-- A step keeps a user's counter in agreement as long as what it has to count fits, and it
keeps the user's group. -/
lemma perform_user (op : Operation F) {userId : UInt32} {user' : User F}
    (hu : (perform config state op).stores.users.get? userId = some user') :
    ∃ user, state.stores.users.get? userId = some user ∧ user'.groupId = user.groupId ∧
      ∀ kind, (user.counter kind).toNat = state.stores.torrents.listedOf config kind userId →
        (perform config state op).stores.torrents.listedOf config kind userId < 2 ^ 32 →
        (user'.counter kind).toNat =
          (perform config state op).stores.torrents.listedOf config kind userId := by
  cases op with
  | announce env request =>
    simp only [perform] at hu ⊢
    cases hr : ((announce config env request).run state).2 with
    | error e =>
      obtain ⟨husers, htorrents⟩ := stores_of_rejected hr
      rw [husers] at hu
      rw [htorrents]
      exact ⟨user', hu, rfl, fun kind hagree _ => hagree⟩
    | ok a =>
      obtain ⟨torrent, torrent', h⟩ := announce_ok hr
      obtain ⟨user, huser, hgroup, hcounter⟩ := h.user_of_get? hu
      refine ⟨user, huser, hgroup, ?_⟩
      intro kind hagree hfits
      have hlisted := h.storeListedOf kind userId
      rw [hcounter kind]
      exact toNat_saturatingAddSigned_of_fits (by rw [hagree, hlisted]) hfits
  | reap activeNow inactiveNow =>
    simp only [perform] at hu ⊢
    cases hr : reap config activeNow inactiveNow state with
    | none =>
      rw [hr] at hu
      exact ⟨user', hu, rfl, fun kind hagree _ => hagree⟩
    | some state' =>
      obtain ⟨activeCutoff, inactiveCutoff, rfl⟩ := reap_some hr
      simp only [hr, Option.getD_some] at hu ⊢
      rw [users_reapTorrents, IndexMap.get?_mapValues, Option.map_eq_some_iff] at hu
      obtain ⟨user, huser, rfl⟩ := hu
      refine ⟨user, huser, rfl, ?_⟩
      intro kind hagree _
      have hlisted := storeListedOf_reapTorrents config activeCutoff inactiveCutoff state kind userId
      rw [User.toNat_counter_less, hagree]
      omega
  | destroyTorrent request =>
    simp only [perform, run_destroyTorrent] at hu ⊢
    refine ⟨user', hu, rfl, ?_⟩
    intro kind hagree _
    rw [storeListedOf_delete]
    exact hagree

lemma perform_torrent (op : Operation F) {id : UInt32} {torrent' : Torrent}
    (ht : (perform config state op).stores.torrents.get? id = some torrent') :
    ∃ torrent, state.stores.torrents.get? id = some torrent ∧
      ∀ kind, (torrent.counter kind).toNat = torrent.listed config kind →
        torrent'.listed config kind < 2 ^ 32 →
        (torrent'.counter kind).toNat = torrent'.listed config kind := by
  cases op with
  | announce env request =>
    simp only [perform] at ht
    cases hr : ((announce config env request).run state).2 with
    | error e =>
      rw [(stores_of_rejected hr).2] at ht
      exact ⟨torrent', ht, fun kind hagree _ => hagree⟩
    | ok a =>
      obtain ⟨old, new, h⟩ := announce_ok hr
      rw [h.torrents_eq, IndexMap.get?_modify] at ht
      by_cases hid : id = a.torrentId
      · subst hid
        rw [if_pos rfl, h.torrents.stored, Option.map_some, Option.some_inj] at ht
        subst ht
        refine ⟨old, h.torrents.stored, ?_⟩
        intro kind hagree hfits
        rw [h.torrents.counter kind]
        exact toNat_saturatingAddSigned_of_fits (by rw [hagree, h.torrents.listed kind]) hfits
      · rw [if_neg hid] at ht
        exact ⟨torrent', ht, fun kind hagree _ => hagree⟩
  | reap activeNow inactiveNow =>
    simp only [perform] at ht
    cases hr : reap config activeNow inactiveNow state with
    | none =>
      rw [hr] at ht
      exact ⟨torrent', ht, fun kind hagree _ => hagree⟩
    | some state' =>
      obtain ⟨activeCutoff, inactiveCutoff, rfl⟩ := reap_some hr
      simp only [hr, Option.getD_some, reapTorrents, IndexMap.get?_mapValues,
        Option.map_eq_some_iff] at ht
      obtain ⟨torrent, htorrent, rfl⟩ := ht
      refine ⟨torrent, htorrent, ?_⟩
      intro kind hagree hfits
      have hlisted := torrent.listed_reap config activeCutoff inactiveCutoff kind
      rw [Torrent.counter_reap]
      exact toNat_saturatingAddSigned_of_fits (by omega) hfits
  | destroyTorrent request =>
    simp only [perform, run_destroyTorrent, IndexMap.get?_modify] at ht
    by_cases hid : id = request.id
    · rw [if_pos hid, Option.map_eq_some_iff] at ht
      obtain ⟨torrent, htorrent, rfl⟩ := ht
      refine ⟨torrent, htorrent, ?_⟩
      intro kind hagree _
      cases kind <;> exact hagree
    · rw [if_neg hid] at ht
      exact ⟨torrent', ht, fun kind hagree _ => hagree⟩

/-- With fewer than `2 ^ 31` peers, every operation keeps the counters in agreement. -/
lemma CountersAgree.perform (h : CountersAgree config state) (op : Operation F)
    (hpeers : (perform config state op).stores.torrents.peerCount < 2 ^ 31) :
    CountersAgree config (perform config state op) := by
  constructor
  · intro kind id torrent' ht
    obtain ⟨torrent, htorrent, hstep⟩ := perform_torrent op ht
    have hle := TorrentStore.listed_le_peerCount ht config kind
    exact hstep kind (h.torrents kind id torrent htorrent) (by omega)
  · intro kind userId user' hu
    obtain ⟨user, huser, -, hstep⟩ := perform_user op hu
    have hle := TorrentStore.listedOf_le_peerCount
      (Unit3dAnnounce.perform config state op).stores.torrents config kind userId
    exact hstep kind (h.users kind userId user huser) (by omega)

/-- A delta that a saturating operation adds to a counter. -/
structure Addition where
  counter : UInt32
  delta : ℤ

def Addition.IsExact (addition : Addition) : Prop :=
  0 ≤ (addition.counter.toNat : ℤ) + addition.delta ∧
    (addition.counter.toNat : ℤ) + addition.delta < 2 ^ 32

def additionsTo (counter : ListKind → UInt32) (delta : ListKind → ℤ) : List Addition :=
  [⟨counter .seed, delta .seed⟩, ⟨counter .leech, delta .leech⟩]

lemma mem_additionsTo {counter : ListKind → UInt32} {delta : ListKind → ℤ} {addition : Addition}
    (h : addition ∈ additionsTo counter delta) : ∃ kind, addition = ⟨counter kind, delta kind⟩ := by
  simp only [additionsTo, List.mem_cons, List.not_mem_nil, or_false] at h
  rcases h with h | h
  · exact ⟨.seed, h⟩
  · exact ⟨.leech, h⟩

/-- The additions of an announce, to the counters of its torrent and of its user. -/
def announceAdditions (config : Config F) (env : Env F) (request : AnnounceRequest)
    (state : AppState F) : List Addition :=
  match ((announce config env request).run state).2 with
  | .error _ => []
  | .ok a =>
    (state.stores.torrents.get? a.torrentId).toList.flatMap (fun torrent =>
      additionsTo (fun kind => torrent.counter kind) (fun kind => a.change.delta kind)) ++
    if a.touchesUser then
      (state.stores.users.get? a.userId).toList.flatMap (fun user =>
        additionsTo (fun kind => user.counter kind) (fun kind => a.change.delta kind))
    else []

omit [RateField F] in
/-- The decrements that a loop over peers makes, each to a counter as the ones before left it. -/
def dischargeAdditions (config : Config F) (activeCutoff : DateTime) :
    UserStore F → List (Peer.Index × Peer) → List Addition
  | _, [] => []
  | users, entry :: rest =>
    (if entry.2.isExpired activeCutoff && entry.2.isIncludedInPeerList config then
      (users.get? entry.1.userId).toList.map (fun user =>
        ⟨if entry.2.isSeeder then user.numSeeding else user.numLeeching, -1⟩)
    else []) ++
      dischargeAdditions config activeCutoff (users.dischargePeer config activeCutoff entry) rest

def reapAdditions (config : Config F) (activeCutoff inactiveCutoff : DateTime)
    (stores : Stores F) : List Addition :=
  dischargeAdditions config activeCutoff stores.users (stores.torrents.reapedPeers inactiveCutoff) ++
    stores.torrents.entries.flatMap (fun entry =>
      let deltas := (entry.2.reap config activeCutoff inactiveCutoff).2
      if deltas.seederDelta ≠ 0 || deltas.leecherDelta ≠ 0 then
        additionsTo (fun kind => entry.2.counter kind) (fun kind => deltas.delta kind)
      else [])

def Operation.additions (config : Config F) (state : AppState F) : Operation F → List Addition
  | .announce env request => announceAdditions config env request state
  | .reap activeNow inactiveNow =>
    match cutoff activeNow config.activePeerTtl, cutoff inactiveNow config.inactivePeerTtl with
    | some activeCutoff, some inactiveCutoff =>
      reapAdditions config activeCutoff inactiveCutoff state.stores
    | _, _ => []
  | .destroyTorrent _ => []

lemma announceAdditions_exact {env : Env F} {request : AnnounceRequest}
    (h : CountersAgree config state)
    (hpeers : ((announce config env request).run state).1.stores.torrents.peerCount < 2 ^ 31) :
    ∀ addition ∈ announceAdditions config env request state, addition.IsExact := by
  intro addition hmem
  unfold announceAdditions at hmem
  cases hr : ((announce config env request).run state).2 with
  | error e => simp [hr] at hmem
  | ok a =>
    obtain ⟨torrent, torrent', ha⟩ := announce_ok hr
    simp only [hr, ha.torrents.stored, ha.user, Option.toList_some, List.flatMap_singleton,
      List.mem_append] at hmem
    rcases hmem with hmem | hmem
    · obtain ⟨kind, rfl⟩ := mem_additionsTo hmem
      have hagree := h.torrents kind a.torrentId torrent ha.torrents.stored
      have hlisted := ha.torrents.listed kind
      have hget : ((announce config env request).run state).1.stores.torrents.get? a.torrentId =
          some torrent' := by
        rw [ha.torrents_eq, IndexMap.get?_modify, if_pos rfl, ha.torrents.stored]
        rfl
      have hle := TorrentStore.listed_le_peerCount hget config kind
      constructor
      · dsimp only
        omega
      · dsimp only
        omega
    · split_ifs at hmem
      · obtain ⟨kind, rfl⟩ := mem_additionsTo hmem
        have hagree := h.users kind a.userId a.user ha.user
        have hlisted := ha.storeListedOf kind a.userId
        rw [if_pos rfl] at hlisted
        have hle := TorrentStore.listedOf_le_peerCount
          ((announce config env request).run state).1.stores.torrents config kind a.userId
        constructor
        · dsimp only
          omega
        · dsimp only
          omega
      · simp at hmem

omit [RateField F] in
lemma Addition.isExact_decrement {counter : UInt32} (h : 1 ≤ counter.toNat) :
    (⟨counter, -1⟩ : Addition).IsExact := by
  have hlt := counter.toNat_lt
  constructor
  · dsimp only
    omega
  · dsimp only
    omega

omit [RateField F] in
/-- A peer that is due takes one off a counter, and one off what is still to be taken from it. -/
lemma dischargeAdditions_exact {activeCutoff : DateTime} (l : List (Peer.Index × Peer))
    (users : UserStore F)
    (h : ∀ userId user kind, users.get? userId = some user →
      l.countP (fun entry => droppedEntry config activeCutoff userId entry kind) ≤
        (user.counter kind).toNat) :
    ∀ addition ∈ dischargeAdditions config activeCutoff users l, addition.IsExact := by
  induction l generalizing users with
  | nil => simp [dischargeAdditions]
  | cons entry l ih =>
    intro addition hmem
    rw [dischargeAdditions, List.mem_append] at hmem
    rcases hmem with hmem | hmem
    · by_cases hdue : (entry.2.isExpired activeCutoff && entry.2.isIncludedInPeerList config) = true
      · simp only [if_pos hdue, List.mem_map, Option.mem_toList] at hmem
        obtain ⟨user, huser, rfl⟩ := hmem
        simp only [Bool.and_eq_true] at hdue
        cases hs : entry.2.isSeeder with
        | true =>
          have hcount := h entry.1.userId user .seed huser
          have hdropped : droppedEntry config activeCutoff entry.1.userId entry .seed = true := by
            simp [droppedEntry, Peer.isDropped, Peer.isListed, Peer.isIncludedInSeedList, hdue, hs]
          rw [List.countP_cons, if_pos hdropped] at hcount
          exact Addition.isExact_decrement (Nat.le_of_add_left_le hcount)
        | false =>
          have hcount := h entry.1.userId user .leech huser
          have hdropped : droppedEntry config activeCutoff entry.1.userId entry .leech = true := by
            simp [droppedEntry, Peer.isDropped, Peer.isListed, Peer.isIncludedInLeechList, hdue, hs]
          rw [List.countP_cons, if_pos hdropped] at hcount
          exact Addition.isExact_decrement (Nat.le_of_add_left_le hcount)
      · rw [if_neg hdue] at hmem
        simp at hmem
    · refine ih _ ?_ addition hmem
      intro userId user' kind huser
      rw [UserStore.dischargePeer_eq, IndexMap.get?_mapValues, Option.map_eq_some_iff] at huser
      obtain ⟨user, huser, rfl⟩ := huser
      have hcount := h userId user kind huser
      rw [List.countP_cons] at hcount
      rw [User.toNat_counter_less]
      cases hd : droppedEntry config activeCutoff userId entry kind with
      | true =>
        simp only [hd, if_true] at hcount
        simp only [Bool.toNat_true]
        omega
      | false =>
        simp only [hd, Bool.false_eq_true, if_false] at hcount
        simp only [Bool.toNat_false]
        omega

omit [RateField F] in
lemma reapAdditions_exact (h : CountersAgree config state) (activeCutoff inactiveCutoff : DateTime) :
    ∀ addition ∈ reapAdditions config activeCutoff inactiveCutoff state.stores, addition.IsExact := by
  intro addition hmem
  rw [reapAdditions, List.mem_append] at hmem
  rcases hmem with hmem | hmem
  · refine dischargeAdditions_exact _ _ ?_ addition hmem
    intro userId user kind huser
    rw [TorrentStore.countP_reapedPeers, h.users kind userId user huser,
      ← storeListedOf_reapTorrents config activeCutoff inactiveCutoff]
    omega
  · simp only [List.mem_flatMap] at hmem
    obtain ⟨⟨id, torrent⟩, hentry, hmem⟩ := hmem
    split_ifs at hmem
    · obtain ⟨kind, rfl⟩ := mem_additionsTo hmem
      have hagree := h.torrents kind id torrent (IndexMap.get?_eq_some.mpr hentry)
      have hlisted := torrent.listed_reap config activeCutoff inactiveCutoff kind
      have hdelta := torrent.delta_reap config activeCutoff inactiveCutoff kind
      have hlt := (torrent.counter kind).toNat_lt
      constructor
      · dsimp only
        omega
      · dsimp only
        omega
    · simp at hmem

/-- Counters never drift: whatever announces, reaps and torrent removals happen, in any order,
they agree with the peers throughout, and no addition to them saturates. -/
theorem counters_agree_along_runs (config : Config F) (state : AppState F) (ops : List (Operation F))
    (hpeers : Always (perform config) (fun state => state.stores.torrents.peerCount < 2 ^ 31) state ops)
    (h : CountersAgree config state) :
    Always (perform config) (CountersAgree config) state ops ∧
      Along (perform config)
        (fun state op => ∀ addition ∈ op.additions config state, addition.IsExact) state ops := by
  have hagree : Always (perform config) (CountersAgree config) state ops :=
    hpeers.along.invariant (fun state op hp hc => hc.perform op hp.2) h
  refine ⟨hagree, ?_⟩
  refine (hagree.along.and hpeers.along).mono ?_
  intro state op hstep
  cases op with
  | announce env request => exact announceAdditions_exact hstep.1.1 hstep.2.2
  | reap activeNow inactiveNow =>
    simp only [Operation.additions]
    split
    · exact reapAdditions_exact hstep.1.1 _ _
    · simp
  | destroyTorrent request => simp [Operation.additions]

lemma countersAgree_sample : CountersAgree Sample.config (Sample.state none [1]) := by
  constructor
  · intro kind id torrent ht
    rw [(IndexMap.eq_of_get?_insert_empty ht).2]
    cases kind <;> rfl
  · intro kind userId user hu
    rw [(IndexMap.eq_of_get?_insert_empty hu).2]
    cases kind <;> rfl

/-- A peer starts, completes and expires, and its torrent is removed. -/
theorem counters_agree_sample_run :
    CountersAgree Sample.config (run (perform Sample.config) (Sample.state none [1])
      [.announce (Sample.env 0) (Sample.request 1 1 .started 5),
        .announce (Sample.env 2000) (Sample.request 1 1 .completed 0),
        .reap (Sample.time 9201) (Sample.time 9201), .destroyTorrent ⟨1⟩]) :=
  (counters_agree_along_runs Sample.config (Sample.state none [1])
    [.announce (Sample.env 0) (Sample.request 1 1 .started 5),
      .announce (Sample.env 2000) (Sample.request 1 1 .completed 0),
      .reap (Sample.time 9201) (Sample.time 9201), .destroyTorrent ⟨1⟩]
    (by decide +kernel) countersAgree_sample).1.last

end Unit3dAnnounce
