import Unit3dAnnounce.Proofs.Counters

/-!
# Download slots

A group may limit how many torrents its users leech. An announce over the limit hides its peer,
except that a peer which is already visible and becomes a leecher, because it seeded before or
could not be reached, stays visible.
-/

namespace Unit3dAnnounce

open Machine

variable {F : Type}

/-- An announce respects the slots if, when the user has used all of them, it does not put a stored
peer into the leech list by changing what is left or whether the peer can be reached. -/
def Admission.RespectsSlots (config : Config F) (queries : Announce) (isConnectable : Bool)
    (admission : Admission F) : Prop :=
  hasHitDownloadSlotLimit queries admission.user admission.group = false ∨
    ∀ peer ∈ admission.torrent.peers.get? ⟨admission.userId, queries.peerId⟩,
      peer.isIncludedInLeechList config = true ∨
      Peer.isIncludedInLeechList config
        { peer with isSeeder := queries.left = 0, isConnectable := isConnectable } = false

def RespectsSlots (config : Config F) (userId : UInt32) (state : AppState F) : Operation F → Prop
  | .announce env request => ∀ admission ∈ request.admission state, admission.userId = userId →
    admission.RespectsSlots config request.queries
      ((checkConnectivity config env request.clientIp request.queries.port).run state).2
  | _ => True

/-- The user is in a group with `n` slots, has used at most these, and the count is accurate. -/
structure WithinSlots (config : Config F) (userId n : UInt32) (state : AppState F) : Prop where
  stored : ∃ user group, state.stores.users.get? userId = some user ∧
    state.stores.groups.get? user.groupId = some group ∧ group.downloadSlots = some n
  accurate : UserAgrees config .leech userId state.stores
  within : state.stores.torrents.listedOf config .leech userId ≤ n.toNat

section Announce

variable {config : Config F} {now : DateTime} {queries : Announce} {clientIp : IpAddr}
  {isConnectable hit : Bool}

/-- How a peer gets into the leech list. -/
lemma isListed_leech_announcedPeer {old : Option Peer} {peer : Peer}
    (h : announcedPeer config now queries clientIp isConnectable hit old = some peer)
    (hlisted : peer.isListed config .leech = true) :
    queries.left ≠ 0 ∧ (hit = false ∨ ∃ oldPeer ∈ old, Peer.isIncludedInLeechList config
      { oldPeer with isSeeder := queries.left = 0, isConnectable := isConnectable } = true) := by
  unfold announcedPeer at h
  by_cases hs : queries.event = .stopped
  · simp [hs] at h
  · simp only [hs, if_false] at h
    cases old with
    | none =>
      simp only [Option.some_inj] at h
      subst h
      simp only [Peer.isListed, Peer.isIncludedInLeechList, Peer.fresh, Peer.isIncludedInPeerList,
        Bool.and_eq_true, Bool.not_eq_true', decide_eq_false_iff_not] at hlisted
      refine ⟨hlisted.1, Or.inl ?_⟩
      have hvisible := hlisted.2
      split at hvisible <;> simp_all
    | some oldPeer =>
      simp only [Option.some_inj] at h
      subst h
      have hleft : queries.left ≠ 0 := by
        simp only [Peer.isListed, Peer.isIncludedInLeechList, Peer.renew, Bool.and_eq_true,
          Bool.not_eq_true', decide_eq_false_iff_not] at hlisted
        exact hlisted.1
      refine ⟨hleft, ?_⟩
      cases hhit : hit with
      | false => exact Or.inl rfl
      | true =>
        refine Or.inr ⟨oldPeer, rfl, ?_⟩
        -- over the limit, only what the updated peer was listed as decides its visibility
        simp only [Peer.isListed, Peer.isIncludedInLeechList, Peer.renew, hhit, Bool.not_true,
          Bool.or_false, Peer.isIncludedInPeerList, Bool.and_eq_true] at hlisted ⊢
        obtain ⟨hseeder, hlisted⟩ := hlisted
        split at hlisted <;> simp_all

end Announce

variable [RateField F] {config : Config F} {state : AppState F} {userId n : UInt32}

/-- An accepted announce that respects the slots leaves its user within them. -/
lemma AcceptedBy.listedOf_le {env : Env F} {request : AnnounceRequest} {a : Accepted F}
    {torrent torrent' : Torrent} (h : AcceptedBy config env request state a torrent torrent')
    (hrespects : Admission.RespectsSlots config request.queries a.isConnectable
      ⟨a.userId, a.torrentId, a.user, a.group, torrent⟩)
    (hslots : a.group.downloadSlots = some n)
    (hagree : a.user.numLeeching.toNat = state.stores.torrents.listedOf config .leech a.userId)
    (hwithin : state.stores.torrents.listedOf config .leech a.userId ≤ n.toNat) :
    ((announce config env request).run state).1.stores.torrents.listedOf config .leech a.userId ≤
      n.toNat := by
  have hlisted := h.storeListedOf .leech a.userId
  rw [if_pos rfl] at hlisted
  obtain ⟨peers', hp, -, -⟩ := changeTorrent_ok h.torrents.change
  have hdelta := changePeer_delta .leech hp
  generalize hnew : announcedPeer _ _ _ _ _ _ _ = new at hdelta
  cases new with
  | none =>
    -- the peer is gone
    generalize torrent.peers.get? _ = old at hdelta
    cases old <;> simp only [Option.elim_none, Option.elim_some] at hdelta <;> omega
  | some peer =>
    cases hl : peer.isListed config .leech with
    | false =>
      simp only [Option.elim_some, hl, Bool.toNat_false] at hdelta
      generalize torrent.peers.get? _ = old at hdelta
      cases old <;> simp only [Option.elim_none, Option.elim_some] at hdelta <;> omega
    | true =>
      obtain ⟨hleft, hcause⟩ := isListed_leech_announcedPeer hnew hl
      simp only [Option.elim_some, hl, Bool.toNat_true] at hdelta
      have hfree (hhit : hasHitDownloadSlotLimit request.queries a.user a.group = false) :
          a.user.numLeeching.toNat < n.toNat := by
        have hpos : request.queries.left > 0 := UInt64.pos_iff_ne_zero.mpr hleft
        simp only [hasHitDownloadSlotLimit, hpos, decide_true, Bool.true_and, hslots,
          Option.any_some, decide_eq_false_iff_not] at hhit
        exact UInt32.lt_iff_toNat_lt.mp (UInt32.not_le.mp hhit)
      have hgrows : a.change.delta .leech ≤ 0 ∨ a.user.numLeeching.toNat < n.toNat := by
        rcases hcause with hhit | ⟨oldPeer, hold, hbecomes⟩
        · exact Or.inr (hfree hhit)
        · rcases hrespects with hhit | hstays
          · exact Or.inr (hfree hhit)
          · left
            have hwas := (hstays oldPeer hold).resolve_right (by rw [hbecomes]; simp)
            have hold' : torrent.peers.get? ⟨a.userId, request.queries.peerId⟩ = some oldPeer := hold
            have hwas' : oldPeer.isListed config .leech = true := hwas
            rw [hold'] at hdelta
            simp only [Option.elim_some, hwas', Bool.toNat_true] at hdelta
            omega
      have hle : a.change.delta .leech ≤ 1 := by
        generalize torrent.peers.get? _ = old at hdelta
        cases old <;> simp only [Option.elim_none, Option.elim_some] at hdelta <;> omega
      omega

lemma perform_groups (op : Operation F) :
    (perform config state op).stores.groups = state.stores.groups := by
  cases op with
  | announce env request =>
    simp only [perform]
    cases hr : ((announce config env request).run state).2 with
    | error e =>
      obtain ⟨ports, hs⟩ := (announce_error hr).stores
      rw [hs]
    | ok a =>
      obtain ⟨torrent, torrent', ha⟩ := announce_ok hr
      obtain ⟨ports, hs⟩ := ha.state
      rw [hs]
      rfl
  | reap activeNow inactiveNow =>
    simp only [perform]
    cases hr : reap config activeNow inactiveNow state with
    | none => rfl
    | some state' =>
      obtain ⟨activeCutoff, inactiveCutoff, rfl⟩ := reap_some hr
      rfl
  | destroyTorrent request => simp only [perform, run_destroyTorrent]

/-- No operation removes a user. -/
lemma perform_stored (op : Operation F) {user : User F}
    (h : state.stores.users.get? userId = some user) :
    ∃ user', (perform config state op).stores.users.get? userId = some user' := by
  cases op with
  | announce env request =>
    simp only [perform]
    cases hr : ((announce config env request).run state).2 with
    | error e =>
      rw [(stores_of_rejected hr).1]
      exact ⟨user, h⟩
    | ok a =>
      obtain ⟨torrent, torrent', ha⟩ := announce_ok hr
      obtain ⟨ports, hs⟩ := ha.state
      rw [hs]
      simp only [Accepted.published]
      split_ifs
      · simp only [IndexMap.get?_modify, h, Option.map_some]
        split_ifs
        · exact ⟨_, rfl⟩
        · exact ⟨_, rfl⟩
      · exact ⟨user, h⟩
  | reap activeNow inactiveNow =>
    simp only [perform]
    cases hr : reap config activeNow inactiveNow state with
    | none => exact ⟨user, h⟩
    | some state' =>
      obtain ⟨activeCutoff, inactiveCutoff, rfl⟩ := reap_some hr
      simp only [Option.getD_some, users_reapTorrents, IndexMap.get?_mapValues, h, Option.map_some]
      exact ⟨_, rfl⟩
  | destroyTorrent request =>
    simp only [perform, run_destroyTorrent]
    exact ⟨user, h⟩

/-- Only announces add to the listed peers of a user. -/
lemma perform_listedOf_le {op : Operation F} (hrespects : RespectsSlots config userId state op)
    (h : WithinSlots config userId n state) :
    (perform config state op).stores.torrents.listedOf config .leech userId ≤ n.toNat := by
  cases op with
  | announce env request =>
    simp only [perform]
    cases hr : ((announce config env request).run state).2 with
    | error e =>
      rw [(stores_of_rejected hr).2]
      exact h.within
    | ok a =>
      obtain ⟨torrent, torrent', ha⟩ := announce_ok hr
      by_cases hid : a.userId = userId
      · subst hid
        obtain ⟨user, group, huser, hgroup, hslots⟩ := h.stored
        have heq : user = a.user := Option.some_inj.mp (huser.symm.trans ha.user)
        subst heq
        have hgroup' := (admitUser_ok ha.torrents.admitted).2.2
        have hgroups : group = a.group := Option.some_inj.mp (hgroup.symm.trans hgroup')
        have hrespected := hrespects _ ha.admission rfl
        rw [← ha.connectable] at hrespected
        exact ha.listedOf_le hrespected (hgroups ▸ hslots) (h.accurate a.user ha.user) h.within
      · have hlisted := ha.storeListedOf .leech userId
        rw [if_neg hid] at hlisted
        have hle := h.within
        omega
  | reap activeNow inactiveNow =>
    simp only [perform]
    cases hr : reap config activeNow inactiveNow state with
    | none => exact h.within
    | some state' =>
      obtain ⟨activeCutoff, inactiveCutoff, rfl⟩ := reap_some hr
      have hlisted := storeListedOf_reapTorrents config activeCutoff inactiveCutoff state .leech userId
      have hle := h.within
      simp only [Option.getD_some]
      omega
  | destroyTorrent request =>
    simp only [perform, run_destroyTorrent]
    rw [storeListedOf_delete]
    exact h.within

lemma WithinSlots.perform {op : Operation F} (hrespects : RespectsSlots config userId state op)
    (h : WithinSlots config userId n state) :
    WithinSlots config userId n (perform config state op) := by
  have hwithin := perform_listedOf_le hrespects h
  have hn := n.toNat_lt
  constructor
  · obtain ⟨user, group, huser, hgroup, hslots⟩ := h.stored
    obtain ⟨user', huser'⟩ := perform_stored op huser
    obtain ⟨user₀, huser₀, hid, -⟩ := perform_user op huser'
    have heq : user₀ = user := Option.some_inj.mp (huser₀.symm.trans huser)
    subst heq
    exact ⟨user', group, huser', by rw [perform_groups, hid]; exact hgroup, hslots⟩
  · intro user' huser'
    obtain ⟨user, huser, -, hcounter⟩ := perform_user op huser'
    exact hcounter .leech (h.accurate user huser) (by omega)
  · exact hwithin

end Unit3dAnnounce
