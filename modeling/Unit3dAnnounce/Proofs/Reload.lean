import Unit3dAnnounce.Proofs.Counters

/-!
# Reloading the configuration

Which peers are counted depends on whether peers have to be connectable. The counters are numbers
that were added up under the configuration of the time, and storing another one leaves them alone.
-/

namespace Unit3dAnnounce

open Machine

section

variable {F : Type} {config config' : Config F} {state : AppState F}

/-- Every peer that may be listed can be reached. -/
def AllConnectable (state : AppState F) : Prop :=
  ∀ id torrent, state.stores.torrents.get? id = some torrent →
    ∀ index peer, torrent.peers.get? index = some peer →
      peer.isActive = true → peer.isVisible = true → peer.isConnectable = true

/-- What a later announce or reap takes off the counters for a peer is what was added for it. -/
def SameLists (config config' : Config F) (state : AppState F) : Prop :=
  ∀ id torrent, state.stores.torrents.get? id = some torrent →
    ∀ index peer, torrent.peers.get? index = some peer →
      ∀ kind, peer.isListed config kind = peer.isListed config' kind

lemma Peer.isListed_congr (h : config'.requirePeerConnectivity = config.requirePeerConnectivity)
    (kind : ListKind) (peer : Peer) : peer.isListed config kind = peer.isListed config' kind := by
  cases kind with
  | seed => simp only [isListed, isIncludedInSeedList, isIncludedInPeerList, h]
  | leech => simp only [isListed, isIncludedInLeechList, isIncludedInPeerList, h]

/-- Requiring connectivity narrows the lists. -/
lemma Peer.isListed_of_required (h : config.requirePeerConnectivity = true)
    (h' : config'.requirePeerConnectivity = false) (kind : ListKind) (peer : Peer) :
    peer.isListed config kind = (peer.isListed config' kind && peer.isConnectable) := by
  cases kind with
  | seed => simp [isListed, isIncludedInSeedList, isIncludedInPeerList, h, h', Bool.and_assoc]
  | leech => simp [isListed, isIncludedInLeechList, isIncludedInPeerList, h, h', Bool.and_assoc]

/-- Without the requirement, a peer that is active and visible is in one of the lists. -/
lemma Peer.isListed_of_notRequired (h : config.requirePeerConnectivity = false) (peer : Peer) :
    (∃ kind, peer.isListed config kind = true) ↔ peer.isActive = true ∧ peer.isVisible = true := by
  have hlist : peer.isIncludedInPeerList config = (peer.isActive && peer.isVisible) := by
    simp [isIncludedInPeerList, h]
  constructor
  · rintro ⟨kind, hkind⟩
    have hincluded : peer.isIncludedInPeerList config = true := by
      cases kind with
      | seed => exact ((Bool.and_eq_true _ _).mp hkind).2
      | leech => exact ((Bool.and_eq_true _ _).mp hkind).2
    simpa [hlist] using hincluded
  · rintro ⟨hactive, hvisible⟩
    cases hs : peer.isSeeder with
    | true => exact ⟨.seed, by simp [isListed, isIncludedInSeedList, hlist, hs, hactive, hvisible]⟩
    | false => exact ⟨.leech, by simp [isListed, isIncludedInLeechList, hlist, hs, hactive, hvisible]⟩

/-- The counts of a torrent stay the same exactly where every peer in its lists can be reached. -/
lemma Torrent.listed_eq_iff (h : config.requirePeerConnectivity = true)
    (h' : config'.requirePeerConnectivity = false) (torrent : Torrent) (kind : ListKind) :
    torrent.listed config kind = torrent.listed config' kind ↔
      ∀ index peer, torrent.peers.get? index = some peer →
        peer.isListed config' kind = true → peer.isConnectable = true := by
  simp only [listed, Peer.isListed_of_required h h']
  exact torrent.peers.count_and_eq_count_iff _ _

lemma SameLists.listed {id : UInt32} {torrent : Torrent} (h : SameLists config config' state)
    (ht : state.stores.torrents.get? id = some torrent) (kind : ListKind) :
    torrent.listed config kind = torrent.listed config' kind :=
  IndexMap.count_congr fun index peer hpeer => h id torrent ht index peer hpeer kind

lemma SameLists.listedOf (h : SameLists config config' state) (kind : ListKind) (userId : UInt32) :
    state.stores.torrents.listedOf config kind userId =
      state.stores.torrents.listedOf config' kind userId := by
  apply IndexMap.sumOver_congr
  intro entry hentry
  apply IndexMap.count_congr
  intro index peer hpeer
  rw [h entry.1 entry.2 (IndexMap.get?_eq_some.mpr hentry) index peer hpeer kind]

lemma CountersAgree.of_sameLists (h : CountersAgree config state)
    (hsame : SameLists config config' state) : CountersAgree config' state := by
  constructor
  · intro kind id torrent ht
    rw [h.torrents kind id torrent ht, hsame.listed ht kind]
  · intro kind userId user hu
    rw [h.users kind userId user hu, hsame.listedOf kind userId]

lemma SameLists.symm (h : SameLists config config' state) : SameLists config' config state :=
  fun id torrent ht index peer hpeer kind => (h id torrent ht index peer hpeer kind).symm

/-- A configuration with the requirement and one without it count the same only where every peer
that may be listed can be reached, and then they list the same peers. -/
lemma allConnectable_of_listed_eq (h : config.requirePeerConnectivity = true)
    (h' : config'.requirePeerConnectivity = false)
    (hlisted : ∀ id torrent, state.stores.torrents.get? id = some torrent →
      ∀ kind, torrent.listed config kind = torrent.listed config' kind) : AllConnectable state := by
  intro id torrent ht index peer hpeer hactive hvisible
  obtain ⟨kind, hkind⟩ := (peer.isListed_of_notRequired h').mpr ⟨hactive, hvisible⟩
  exact (torrent.listed_eq_iff h h' kind).mp (hlisted id torrent ht kind) index peer hpeer hkind

lemma AllConnectable.sameLists (hall : AllConnectable state)
    (h : config.requirePeerConnectivity = true) (h' : config'.requirePeerConnectivity = false) :
    SameLists config config' state := by
  intro id torrent ht index peer hpeer kind
  rw [Peer.isListed_of_required h h']
  cases hkind : peer.isListed config' kind with
  | false => rfl
  | true =>
    obtain ⟨hactive, hvisible⟩ := (peer.isListed_of_notRequired h').mp ⟨kind, hkind⟩
    rw [hall id torrent ht index peer hpeer hactive hvisible, Bool.and_true]

/-- Storing the other configuration is harmless: it requires the same, or that does not matter. -/
def Harmless (config config' : Config F) (state : AppState F) : Prop :=
  config'.requirePeerConnectivity = config.requirePeerConnectivity ∨ AllConnectable state

lemma Harmless.sameLists (h : Harmless config config' state) : SameLists config config' state := by
  rcases h with hrequired | hall
  · exact fun id torrent _ index peer _ kind => peer.isListed_congr hrequired kind
  · cases h : config.requirePeerConnectivity with
    | false =>
      cases h' : config'.requirePeerConnectivity with
      | false => exact fun id torrent _ index peer _ kind => peer.isListed_congr (h'.trans h.symm) kind
      | true => exact (hall.sameLists h' h).symm
    | true =>
      cases h' : config'.requirePeerConnectivity with
      | false => exact hall.sameLists h h'
      | true => exact fun id torrent _ index peer _ kind => peer.isListed_congr (h'.trans h.symm) kind

lemma Harmless.of_listed_eq (hlisted : ∀ id torrent, state.stores.torrents.get? id = some torrent →
    ∀ kind, torrent.listed config kind = torrent.listed config' kind) :
    Harmless config config' state := by
  cases h : config.requirePeerConnectivity with
  | false =>
    cases h' : config'.requirePeerConnectivity with
    | false => exact Or.inl (h'.trans h.symm)
    | true =>
      exact Or.inr (allConnectable_of_listed_eq h' h
        fun id torrent ht kind => (hlisted id torrent ht kind).symm)
  | true =>
    cases h' : config'.requirePeerConnectivity with
    | false => exact Or.inr (allConnectable_of_listed_eq h h' hlisted)
    | true => exact Or.inl (h'.trans h.symm)

lemma CountersAgree.harmless (h : CountersAgree config state) (h' : CountersAgree config' state) :
    Harmless config config' state := by
  apply Harmless.of_listed_eq
  intro id torrent ht kind
  rw [← h.torrents kind id torrent ht, h'.torrents kind id torrent ht]

variable {ofBinary64 : Binary64 → F} {systemTime : F}

lemma Config.reload_of_ok {env : Environment} (h : fromEnv ofBinary64 systemTime env = .ok config') :
    (reload ofBinary64 systemTime (some env) config).1 = config' := by
  simp only [reload, h]

/-- A reload keeps the counters in agreement, and later deltas take off what was added, exactly where
it does not change whether peers have to be connectable or every peer that may be listed is. -/
theorem reload_keeps_counters_iff {env : Environment}
    (hload : Config.fromEnv ofBinary64 systemTime env = .ok config') (h : CountersAgree config state) :
    (CountersAgree (Config.reload ofBinary64 systemTime (some env) config).1 state ↔
      config'.requirePeerConnectivity = config.requirePeerConnectivity ∨ AllConnectable state) ∧
    (SameLists config (Config.reload ofBinary64 systemTime (some env) config).1 state ↔
      config'.requirePeerConnectivity = config.requirePeerConnectivity ∨ AllConnectable state) := by
  rw [Config.reload_of_ok hload]
  constructor
  · constructor
    · exact fun hagree => h.harmless hagree
    · exact fun hharmless => h.of_sameLists (Harmless.sameLists hharmless)
  · constructor
    · exact fun hsame => Harmless.of_listed_eq fun id torrent ht kind => hsame.listed ht kind
    · exact fun hharmless => Harmless.sameLists hharmless

section Runs

variable [RateField F] (ofBinary64 systemTime)

/-- The configuration in use, with the state. -/
structure Site (F : Type) where
  config : Config F
  state : AppState F

/-- A site performs an operation, or reloads its configuration. -/
def Site.step (site : Site F) : Operation F ⊕ Option Environment → Site F
  | .inl op => { site with state := perform site.config site.state op }
  | .inr environment =>
    { site with config := (Config.reload ofBinary64 systemTime environment site.config).1 }

/-- However operations and reloads alternate, the counters agree throughout exactly where every reload
is harmless. -/
theorem counters_agree_through_reloads_iff (site : Site F)
    (events : List (Operation F ⊕ Option Environment))
    (hpeers : Always (Site.step ofBinary64 systemTime)
      (fun site => site.state.stores.torrents.peerCount < 2 ^ 31) site events)
    (h : CountersAgree site.config site.state) :
    Always (Site.step ofBinary64 systemTime) (fun site => CountersAgree site.config site.state)
        site events ↔
      Along (Site.step ofBinary64 systemTime) (fun site event =>
        Harmless site.config (site.step ofBinary64 systemTime event).config site.state) site events := by
  refine hpeers.along.always_iff ?_ h
  intro site event hpeers h
  cases event with
  | inl op =>
    constructor
    · exact fun _ => Or.inl rfl
    · exact fun _ => h.perform op hpeers.2
  | inr environment =>
    constructor
    · exact fun hagree => h.harmless hagree
    · exact fun hharmless => h.of_sameLists hharmless.sameLists

end Runs

end

namespace Sample

/-- A leecher that cannot be reached. -/
noncomputable def unreachable : AppState ℝ :=
  perform config (state none [1]) (.announce (env 0) (request 1 1 .started 5))

/-- Where it is checked which peers can be reached. -/
def checkedConfig : Config ℝ := { config with isConnectivityCheckEnabled := true }

/-- A leecher that can be reached. -/
noncomputable def reachable : AppState ℝ :=
  perform checkedConfig (state none [1]) (.announce (env 0) (request 1 1 .started 5))

end Sample

lemma countersAgree_unreachable : CountersAgree Sample.config Sample.unreachable := by
  apply countersAgree_sample.perform
  decide +kernel

lemma countersAgree_reachable : CountersAgree Sample.checkedConfig Sample.reachable := by
  have hstart : CountersAgree Sample.checkedConfig (Sample.state none [1]) :=
    countersAgree_sample.of_sameLists (Harmless.sameLists (Or.inl rfl))
  apply hstart.perform
  decide +kernel

lemma allConnectable_reachable : AllConnectable Sample.reachable := by
  have hall : ∀ entry ∈ Sample.reachable.stores.torrents.entries, ∀ peer ∈ entry.2.peers.entries,
      peer.2.isActive = true → peer.2.isVisible = true → peer.2.isConnectable = true := by
    decide +kernel
  intro id torrent ht index peer hpeer
  exact hall _ (IndexMap.get?_eq_some.mp ht) _ (IndexMap.get?_eq_some.mp hpeer)

/-- From now on peers have to be connectable. -/
theorem reload_keeps_counters_sample :
    ∃ config' : Config ℝ, Sample.fromEnv [("IS_CONNECTIVITY_CHECK_ENABLED", "true"),
        ("REQUIRE_PEER_CONNECTIVITY", "true")] = .ok config' ∧
      config'.requirePeerConnectivity ≠ Sample.checkedConfig.requirePeerConnectivity ∧
      CountersAgree (Config.reload Sample.ofBinary64 0 (some (Sample.environment
        [("IS_CONNECTIVITY_CHECK_ENABLED", "true"), ("REQUIRE_PEER_CONNECTIVITY", "true")]))
          Sample.checkedConfig).1 Sample.reachable := by
  have hload : Config.fromEnv Sample.ofBinary64 0 (Sample.environment
      [("IS_CONNECTIVITY_CHECK_ENABLED", "true"), ("REQUIRE_PEER_CONNECTIVITY", "true")]) =
        .ok { Sample.checkedConfig with requirePeerConnectivity := true } := rfl
  exact ⟨_, hload, by decide,
    (reload_keeps_counters_iff hload countersAgree_reachable).1.mpr (Or.inr allConnectable_reachable)⟩

open Sample in
theorem reload_changes_count :
    CountersAgree config unreachable ∧ ∃ config' : Config ℝ,
      fromEnv [("REQUIRE_PEER_CONNECTIVITY", "true")] = .ok config' ∧
        ¬ CountersAgree config' unreachable := by
  refine ⟨countersAgree_unreachable, connectableConfig, rfl, ?_⟩
  intro h
  have hcount := h.torrents .leech 1 _ rfl
  revert hcount
  decide +kernel

end Unit3dAnnounce
