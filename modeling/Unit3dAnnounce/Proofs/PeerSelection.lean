import Unit3dAnnounce.Machine.Fallible
import Unit3dAnnounce.Proofs.Counters

/-!
# Peer selection

An announce is answered with peers of other users, at most as many as it wants. The selection looks
at the counters of the torrent before it looks at the peers, and at two rate limits, and still
nobody is missing from it.
-/

namespace Unit3dAnnounce

open Fallible

variable {F : Type}

/-- `choose_multiple` takes distinct elements, as many as it can. -/
def ChoosesMultiple (choose : List (Peer.Index × Peer) → ℕ → List (Peer.Index × Peer)) : Prop :=
  ∀ candidates n, (choose candidates n).Subperm candidates ∧
    (choose candidates n).length = min n candidates.length

lemma ChoosesMultiple.ite {choose : List (Peer.Index × Peer) → ℕ → List (Peer.Index × Peer)}
    (h : ChoosesMultiple choose) (condition : Bool) (candidates : List (Peer.Index × Peer)) (n : ℕ) :
    (if condition then choose candidates n else []).Subperm candidates ∧
      (if condition then choose candidates n else []).length =
        if condition then min n candidates.length else 0 := by
  cases condition with
  | false => exact ⟨List.nil_subperm, rfl⟩
  | true => exact h candidates n

/-- A peer of another user that is in the peer lists. -/
def isEligible (config : Config F) (userId : UInt32) (index : Peer.Index) (peer : Peer) : Bool :=
  index.userId ≠ userId && peer.isIncludedInPeerList config

section Selection

/-- The eligible peers of a torrent that seed, or those that leech. -/
def Torrent.eligible (config : Config F) (userId : UInt32) (isSeeder : Bool) (torrent : Torrent) :
    List (Peer.Index × Peer) :=
  (torrent.peers.entries.filter fun entry => isEligible config userId entry.1 entry.2).filter
    fun entry => entry.2.isSeeder == isSeeder

lemma Torrent.length_eligible (config : Config F) (userId : UInt32) (isSeeder : Bool)
    (torrent : Torrent) : (torrent.eligible config userId isSeeder).length =
      torrent.peers.count fun index peer =>
        isEligible config userId index peer && (peer.isSeeder == isSeeder) := by
  rw [eligible, List.filter_filter, ← List.countP_eq_length_filter]
  apply List.countP_congr
  intro entry _
  rw [Bool.and_comm]

lemma Torrent.eligible_seeders (config : Config F) (userId : UInt32) (torrent : Torrent) :
    torrent.eligible config userId true = (torrent.peers.entries.filter fun entry =>
      isEligible config userId entry.1 entry.2).filter fun entry => entry.2.isSeeder := by
  simp only [eligible, beq_true]

lemma Torrent.eligible_leechers (config : Config F) (userId : UInt32) (torrent : Torrent) :
    torrent.eligible config userId false = (torrent.peers.entries.filter fun entry =>
      isEligible config userId entry.1 entry.2).filter fun entry => !entry.2.isSeeder := by
  simp only [eligible, beq_false]

/-- Seeders and leechers together are still distinct stored peers. -/
lemma Torrent.eligible_append_subperm (config : Config F) (userId : UInt32) (torrent : Torrent) :
    (torrent.eligible config userId true ++ torrent.eligible config userId false).Subperm
      torrent.peers.entries := by
  have hperm := List.filter_append_perm (fun entry : Peer.Index × Peer => entry.2.isSeeder)
    (torrent.peers.entries.filter fun entry => isEligible config userId entry.1 entry.2)
  rw [eligible_seeders, eligible_leechers]
  exact hperm.subperm.trans List.filter_sublist.subperm

variable [RateField F] {config : Config F} {env : Env F} {queries : Announce} {userId : UInt32}
  {user : User F} {torrent : Torrent} {warnings : WarningCollection}

/-- The list has some seeders and then some leechers. Where nothing holds it back, and the counters
show that there is somebody to choose, it has as many of them as are wanted. -/
lemma selectPeers_spec (hseeds : ChoosesMultiple env.chooseSeeds)
    (hleeches : ChoosesMultiple env.chooseLeeches) :
    ∃ seeds leeches,
      (selectPeers config env queries userId user torrent warnings).peers = seeds ++ leeches ∧
      seeds.Subperm (torrent.eligible config userId true) ∧
      leeches.Subperm (torrent.eligible config userId false) ∧
      seeds.length + leeches.length ≤ queries.numwant.toNat ∧
      (queries.event ≠ .stopped → warnings = [] → user.receiveSeedListRates.isUnderLimit = true →
        user.receiveLeechListRates.isUnderLimit = true →
        (torrent.eligible config userId true ≠ [] → 0 < torrent.seeders) →
        (0 < queries.left ∨ torrent.eligible config userId false ≠ [] → 0 < torrent.leechers) →
        seeds.length = (if 0 < queries.left then
          min queries.numwant.toNat (torrent.eligible config userId true).length else 0) ∧
        leeches.length = min (queries.numwant.toNat - seeds.length)
          (torrent.eligible config userId false).length) := by
  by_cases hgate : (queries.event ≠ .stopped && torrent.leechers > 0 && warnings.isEmpty) = true
  · obtain ⟨hseedsSub, hseedsLength⟩ := hseeds.ite (queries.left > 0 && torrent.seeders > 0 &&
      queries.numwant > 0 && user.receiveSeedListRates.isUnderLimit)
      (torrent.eligible config userId true) queries.numwant.toNat
    generalize hseedsEq : (if (queries.left > 0 && torrent.seeders > 0 && queries.numwant > 0 &&
      user.receiveSeedListRates.isUnderLimit) = true then env.chooseSeeds
        (torrent.eligible config userId true) queries.numwant.toNat else []) = seeds at *
    obtain ⟨hleechesSub, hleechesLength⟩ := hleeches.ite (torrent.leechers > 0 &&
      decide (queries.numwant.toNat > seeds.length) && user.receiveLeechListRates.isUnderLimit)
      (torrent.eligible config userId false) (queries.numwant.toNat - seeds.length)
    refine ⟨seeds, _, ?_, hseedsSub, hleechesSub, ?_, ?_⟩
    · rw [Torrent.eligible_seeders] at hseedsEq
      rw [Torrent.eligible_leechers]
      unfold selectPeers
      rw [if_pos hgate]
      subst hseedsEq
      rfl
    · rw [hleechesLength, hseedsLength]
      split_ifs <;> omega
    · intro hs hw hunderSeed hunderLeech hposSeed _
      have hsome : 0 < torrent.leechers := by simpa [hs, hw] using hgate
      have hwanted : (0 < queries.numwant) ↔ 0 < queries.numwant.toNat := UInt64.lt_iff_toNat_lt
      constructor
      · rw [hseedsLength]
        by_cases hleft : 0 < queries.left
        · by_cases hnone : torrent.eligible config userId true = []
          · simp [hnone]
          · by_cases hwant : 0 < queries.numwant.toNat
            · simp [hleft, hposSeed hnone, hwanted.mpr hwant, hunderSeed]
            · simp [Nat.eq_zero_of_not_pos hwant]
        · simp [hleft]
      · rw [hleechesLength]
        by_cases hwant : seeds.length < queries.numwant.toNat
        · simp [hsome, hwant, hunderLeech]
        · simp [hwant, Nat.sub_eq_zero_of_le (Nat.le_of_not_lt hwant)]
  · refine ⟨[], [], ?_, List.nil_subperm, List.nil_subperm, Nat.zero_le _, ?_⟩
    · unfold selectPeers
      rw [if_neg hgate]
      rfl
    · intro hs hw _ _ _ hpos
      have hnone : ¬ 0 < torrent.leechers := by simpa [hs, hw] using hgate
      have hleft : ¬ 0 < queries.left := fun h => hnone (hpos (Or.inl h))
      have hempty : torrent.eligible config userId false = [] := by
        by_contra hne
        exact hnone (hpos (Or.inr hne))
      rw [if_neg hleft, hempty]
      simp

end Selection

section Counters

variable {config : Config F} {torrent : Torrent} {userId : UInt32}

lemma Torrent.listed_pos {index : Peer.Index} {peer : Peer} {kind : ListKind}
    (hstored : torrent.peers.get? index = some peer) (hlisted : peer.isListed config kind = true) :
    0 < torrent.listed config kind := by
  have hle := IndexMap.le_sumOver hstored fun _ peer => (peer.isListed config kind).toNat
  rw [← IndexMap.count_eq_sumOver, hlisted] at hle
  exact hle

lemma Torrent.mem_eligible {isSeeder : Bool} {entry : Peer.Index × Peer} :
    entry ∈ torrent.eligible config userId isSeeder ↔
      torrent.peers.get? entry.1 = some entry.2 ∧
        isEligible config userId entry.1 entry.2 = true ∧ entry.2.isSeeder = isSeeder := by
  rw [eligible, List.mem_filter, List.mem_filter, beq_iff_eq, IndexMap.get?_eq_some, and_assoc]

lemma Torrent.mem_eligible_append {entry : Peer.Index × Peer} :
    entry ∈ torrent.eligible config userId true ++ torrent.eligible config userId false ↔
      torrent.peers.get? entry.1 = some entry.2 ∧ entry.1.userId ≠ userId ∧
        entry.2.isIncludedInPeerList config = true := by
  rw [List.mem_append, mem_eligible, mem_eligible]
  simp only [isEligible, Bool.and_eq_true, decide_eq_true_eq]
  cases entry.2.isSeeder <;> simp

/-- Of eligible peers, the seeders are those that were chosen as seeders. -/
lemma Torrent.countP_isSeeder {seeds leeches : List (Peer.Index × Peer)}
    (hseeds : seeds ⊆ torrent.eligible config userId true)
    (hleeches : leeches ⊆ torrent.eligible config userId false) :
    (seeds ++ leeches).countP (fun entry => entry.2.isSeeder) = seeds.length := by
  have hseeders : seeds.countP (fun entry => entry.2.isSeeder) = seeds.length :=
    List.countP_eq_length.mpr fun entry hentry => (mem_eligible.mp (hseeds hentry)).2.2
  have hleechers : leeches.countP (fun entry => entry.2.isSeeder) = 0 :=
    List.countP_eq_zero.mpr fun entry hentry => by simp [(mem_eligible.mp (hleeches hentry)).2.2]
  rw [List.countP_append, hseeders, hleechers, Nat.add_zero]

/-- An eligible peer is counted. -/
lemma Torrent.listed_pos_of_eligible {isSeeder : Bool}
    (h : torrent.eligible config userId isSeeder ≠ []) :
    0 < torrent.listed config (if isSeeder then .seed else .leech) := by
  obtain ⟨entry, hentry⟩ := List.exists_mem_of_ne_nil _ h
  obtain ⟨hstored, heligible, hkind⟩ := mem_eligible.mp hentry
  simp only [isEligible, Bool.and_eq_true] at heligible
  apply listed_pos hstored
  cases isSeeder with
  | true => simp [Peer.isListed, Peer.isIncludedInSeedList, hkind, heligible.2]
  | false => simp [Peer.isListed, Peer.isIncludedInLeechList, hkind, heligible.2]

/-- Where nothing is to be warned about, an active peer is in the peer lists. -/
lemma isIncludedInPeerList_of_warnings {isConnectable : Bool} {peer : Peer}
    (hw : connectivityWarnings config isConnectable ++
      (if peer.isVisible then [] else [.hitDownloadSlotLimit]) = [])
    (hactive : peer.isActive = true) (hconnectable : peer.isConnectable = isConnectable) :
    peer.isIncludedInPeerList config = true := by
  obtain ⟨hconnectivity, hvisibility⟩ := List.append_eq_nil_iff.mp hw
  have hvisible : peer.isVisible = true := by
    by_contra hhidden
    simp [hhidden] at hvisibility
  unfold Peer.isIncludedInPeerList
  rw [hactive, hvisible, hconnectable]
  unfold connectivityWarnings at hconnectivity
  cases hrequired : config.requirePeerConnectivity with
  | false => rfl
  | true =>
    cases isConnectable with
    | false => simp [hrequired] at hconnectivity
    | true => rfl

/-- A peer that announces without a warning is in the peer lists itself. -/
lemma changePeer_listed {now : DateTime} {queries : Announce} {clientIp : IpAddr}
    {isConnectable hit : Bool} {peers peers' : PeerStore} {change : PeerChange}
    (h : changePeer config now queries clientIp userId isConnectable hit
      (connectivityWarnings config isConnectable) peers = (peers', .ok change))
    (hs : queries.event ≠ .stopped) (hw : change.warnings = []) :
    ∃ peer, peers'.get? ⟨userId, queries.peerId⟩ = some peer ∧
      peer.isIncludedInPeerList config = true ∧ peer.isSeeder = decide (queries.left = 0) := by
  have hafter := (changePeer_alters h).after ⟨userId, queries.peerId⟩
  simp only [if_true, announcedPeer, if_neg hs] at hafter
  cases changePeer_ok h with
  | stops hevent hpeer => exact absurd hevent hs
  | renews hevent hpeer hnew =>
    subst hnew
    rw [hpeer] at hafter
    obtain ⟨hw, -⟩ := List.append_eq_nil_iff.mp hw
    exact ⟨_, hafter, isIncludedInPeerList_of_warnings hw rfl rfl, rfl⟩
  | inserts hevent hpeer hnew hlimit =>
    subst hnew
    rw [hpeer] at hafter
    exact ⟨_, hafter, isIncludedInPeerList_of_warnings hw rfl rfl, rfl⟩

end Counters

section Section

variable [RateField F] {config : Config F} {env : Env F} {request : AnnounceRequest}
  {isConnectable : Bool} {state : AppState F} {torrentId : UInt32} {torrent torrent' : Torrent}
  {result : TorrentResult F}

/-- Where somebody is listed, the counter shows it. -/
lemma TorrentSection.counter_pos
    (h : TorrentSection config env request isConnectable state torrentId torrent torrent' result)
    {kind : ListKind} (hagree : (torrent.counter kind).toNat = torrent.listed config kind)
    (hlisted : 0 < torrent'.listed config kind) : 0 < torrent'.counter kind := by
  have hcounter := congrArg UInt32.toNat (h.counter kind)
  have hcount := h.listed kind
  rw [toNat_saturatingAddSigned] at hcounter
  have hpos : 0 < (torrent'.counter kind).toNat := by omega
  exact hpos

/-- A leecher that announces without a warning is counted. -/
lemma TorrentSection.listed_leech_pos
    (h : TorrentSection config env request isConnectable state torrentId torrent torrent' result)
    (hs : request.queries.event ≠ .stopped) (hw : result.change.warnings = [])
    (hleft : 0 < request.queries.left) : 0 < torrent'.listed config .leech := by
  obtain ⟨peers', hp, htorrent, -⟩ := changeTorrent_ok h.change
  obtain ⟨peer, hstored, hincluded, hseeder⟩ := changePeer_listed hp hs hw
  have hne : request.queries.left ≠ 0 := UInt64.pos_iff_ne_zero.mp hleft
  have hstored' : torrent'.peers.get? ⟨result.userId, request.queries.peerId⟩ = some peer := by
    rw [htorrent]
    exact hstored
  apply Torrent.listed_pos hstored'
  simp [Peer.isListed, Peer.isIncludedInLeechList, hincluded, hseeder, hne]

end Section

/-- What an announce is answered with, from the torrent as the announce leaves it. -/
structure AnswersWith (config : Config F) (queries : Announce) (userId : UInt32) (torrent : Torrent)
    (warnings : WarningCollection) (isUnderLimits : Prop) (peers : List (Peer.Index × Peer)) :
    Prop where
  eligible : ∀ entry ∈ peers, torrent.peers.get? entry.1 = some entry.2 ∧ entry.1.userId ≠ userId ∧
    entry.2.isIncludedInPeerList config = true
  nodup : (peers.map Prod.fst).Nodup
  length_le : peers.length ≤ queries.numwant.toNat
  numwant_le : ∀ query, fromRequestParts config query = .ok queries →
    queries.numwant ≤ config.numwantMax
  complete : warnings = [] → isUnderLimits →
    peers.length = min queries.numwant.toNat (torrent.peers.count fun index peer =>
      isEligible config userId index peer && (decide (0 < queries.left) || !peer.isSeeder))
  seeders : warnings = [] → isUnderLimits → 0 < queries.left →
    peers.countP (fun entry => entry.2.isSeeder) = min queries.numwant.toNat
      (torrent.peers.count fun index peer => isEligible config userId index peer && peer.isSeeder)
  empty : warnings ≠ [] → peers = []

section Section

variable [RateField F] {config : Config F} {env : Env F} {request : AnnounceRequest}
  {isConnectable : Bool} {state : AppState F} {torrentId : UInt32} {torrent torrent' : Torrent}
  {result : TorrentResult F}

omit [RateField F] in
lemma fromRequestParts_numwant_le {query : Option String} {queries : Announce}
    (h : fromRequestParts config query = .ok queries) : queries.numwant ≤ config.numwantMax := by
  unfold fromRequestParts at h
  obtain ⟨parameters, -, h⟩ := bind_eq_ok.mp h
  obtain ⟨infoHash, -, h⟩ := bind_eq_ok.mp h
  obtain ⟨peerId, -, h⟩ := bind_eq_ok.mp h
  obtain ⟨port, -, h⟩ := bind_eq_ok.mp h
  obtain ⟨uploaded, -, h⟩ := bind_eq_ok.mp h
  obtain ⟨downloaded, -, h⟩ := bind_eq_ok.mp h
  obtain ⟨left, -, h⟩ := bind_eq_ok.mp h
  rw [← Except.ok.inj h]
  dsimp only
  split_ifs
  · exact UInt64.zero_le
  · exact Std.min_le_right

omit [RateField F] in
/-- Seeders and leechers are all that is eligible. -/
lemma Torrent.count_eligible (config : Config F) (userId : UInt32) (torrent : Torrent) :
    (torrent.peers.count fun index peer => isEligible config userId index peer) =
      (torrent.eligible config userId true).length + (torrent.eligible config userId false).length := by
  rw [length_eligible, length_eligible,
    ← torrent.peers.count_and_add_count_and_not _ fun _ peer => peer.isSeeder]
  simp only [beq_true, beq_false]

lemma TorrentSection.answersWith
    (h : TorrentSection config env request isConnectable state torrentId torrent torrent' result)
    (hseeds : ChoosesMultiple env.chooseSeeds) (hleeches : ChoosesMultiple env.chooseLeeches)
    (hs : request.queries.event ≠ .stopped)
    (hagree : ∀ kind, (torrent.counter kind).toNat = torrent.listed config kind) :
    AnswersWith config request.queries result.userId torrent' result.change.warnings
      (result.user.receiveSeedListRates.isUnderLimit = true ∧
        result.user.receiveLeechListRates.isUnderLimit = true) result.list.peers := by
  obtain ⟨peers', hp, htorrent, hresult⟩ := changeTorrent_ok h.change
  have hlist : result.list = selectPeers config env request.queries result.userId result.user torrent'
      result.change.warnings := by
    rw [hresult]
    rfl
  obtain ⟨seeds, leeches, hpeers, hseedsSub, hleechesSub, hlength, hcomplete⟩ :=
    @selectPeers_spec F _ config env request.queries result.userId result.user torrent'
      result.change.warnings hseeds hleeches
  rw [hlist, hpeers]
  have hsub : (seeds ++ leeches).Subperm (torrent'.eligible config result.userId true ++
      torrent'.eligible config result.userId false) := hseedsSub.append hleechesSub
  have hlengths (hw : result.change.warnings = [])
      (hunder : result.user.receiveSeedListRates.isUnderLimit = true ∧
        result.user.receiveLeechListRates.isUnderLimit = true) :=
    hcomplete hs hw hunder.1 hunder.2
      (fun hne => h.counter_pos (hagree .seed) (Torrent.listed_pos_of_eligible hne))
      (fun hsome => h.counter_pos (hagree .leech)
        (hsome.elim (h.listed_leech_pos hs hw) Torrent.listed_pos_of_eligible))
  exact {
    eligible := fun entry hentry => Torrent.mem_eligible_append.mp (hsub.subset hentry)
    nodup := by
      obtain ⟨entries, hperm, hentries⟩ :=
        hsub.trans (Torrent.eligible_append_subperm config result.userId torrent')
      exact (hperm.map Prod.fst).nodup_iff.mp (IndexMap.nodup_of_sublist hentries torrent'.peers.nodup)
    length_le := by rwa [List.length_append]
    numwant_le := fun query hquery => fromRequestParts_numwant_le hquery
    complete := by
      intro hw hunder
      obtain ⟨hseedsLength, hleechesLength⟩ := hlengths hw hunder
      rw [List.length_append]
      by_cases hleft : 0 < request.queries.left
      · have hcount := torrent'.count_eligible config result.userId
        rw [if_pos hleft] at hseedsLength
        simp only [hleft, decide_true, Bool.true_or, Bool.and_true]
        omega
      · have hcount := torrent'.length_eligible config result.userId false
        rw [if_neg hleft] at hseedsLength
        simp only [beq_false] at hcount
        simp only [hleft, decide_false, Bool.false_or]
        omega
    seeders := by
      intro hw hunder hleft
      have hseedsLength := (hlengths hw hunder).1
      have hcount := torrent'.length_eligible config result.userId true
      rw [if_pos hleft] at hseedsLength
      simp only [beq_true] at hcount
      rw [Torrent.countP_isSeeder hseedsSub.subset hleechesSub.subset, ← hcount]
      exact hseedsLength
    empty := by
      intro hw
      rw [← hpeers, selectPeers, if_neg (by simp [hw])] }

/-- Peer selection is complete, bounded and private. -/
theorem announce_selects_peers {a : Accepted F} (hseeds : ChoosesMultiple env.chooseSeeds)
    (hleeches : ChoosesMultiple env.chooseLeeches)
    (h : ((announce config env request).run state).2 = .ok a) (hs : request.queries.event ≠ .stopped)
    (hagree : ∀ kind, TorrentAgrees config kind a.torrentId state.stores) :
    ∃ torrent,
      ((announce config env request).run state).1.stores.torrents.get? a.torrentId = some torrent ∧
      a.response = bencode config env.interval torrent a.change.warnings a.list ∧
      AnswersWith config request.queries a.userId torrent a.change.warnings
        (a.user.receiveSeedListRates.isUnderLimit = true ∧
          a.user.receiveLeechListRates.isUnderLimit = true) a.list.peers := by
  obtain ⟨torrent, torrent', ha⟩ := announce_ok h
  obtain ⟨peers', -, -, hresult⟩ := changeTorrent_ok ha.torrents.change
  refine ⟨torrent', ?_, ?_, ?_⟩
  · rw [ha.torrents_eq, IndexMap.get?_modify, if_pos rfl, ha.torrents.stored]
    rfl
  · have hresponse := congrArg TorrentResult.response hresult
    have hlist := congrArg TorrentResult.list hresult
    simp only [respond] at hresponse hlist
    rw [hresponse, hlist]
  · exact ha.torrents.answersWith hseeds hleeches hs
      fun kind => hagree kind torrent ha.torrents.stored

end Section

namespace Sample

lemma choosesMultiple_take : ChoosesMultiple fun candidates n => candidates.take n :=
  fun candidates n => ⟨(List.take_sublist n candidates).subperm, List.length_take⟩

/-- A torrent with a seeder and a leecher of other users. -/
def swarm : AppState ℝ :=
  { state none [1] with
    stores.torrents := .insert .empty 1
      { torrent 1 ((IndexMap.empty.insert ⟨2, peerId 2⟩
            (Peer.fresh (time 0) (request 1 2 .started 0).queries address true false)).insert
          ⟨3, peerId 3⟩
            (Peer.fresh (time 0) (request 1 3 .started 5).queries address true false)) with
        seeders := 1
        leechers := 1 } }

end Sample

open Sample in
/-- A new leecher gets both of them. -/
theorem announce_selects_peers_sample :
    ∃ a : Accepted ℝ, ((announce config (env 0) (request 1 1 .started 5)).run swarm).2 = .ok a ∧
      (∃ torrent, AnswersWith config (request 1 1 .started 5).queries 1 torrent []
        (a.user.receiveSeedListRates.isUnderLimit = true ∧
          a.user.receiveLeechListRates.isUnderLimit = true) a.list.peers) ∧
      a.list.peers.map Prod.fst = [⟨2, peerId 2⟩, ⟨3, peerId 3⟩] := by
  have h : ((announce config (env 0) (request 1 1 .started 5)).run swarm).2 = .ok _ := rfl
  have hagree : ∀ kind, TorrentAgrees config kind 1 swarm.stores := by
    intro kind torrent ht
    rw [(IndexMap.eq_of_get?_insert_empty ht).2]
    cases kind <;> rfl
  obtain ⟨torrent, -, -, hanswer⟩ :=
    announce_selects_peers choosesMultiple_take choosesMultiple_take h (by decide) hagree
  exact ⟨_, h, ⟨torrent, hanswer⟩, rfl⟩

end Unit3dAnnounce
