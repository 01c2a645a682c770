import Unit3dAnnounce.Model.Roster
import Unit3dAnnounce.Proofs.Outbox
import Unit3dAnnounce.Proofs.PeerSelection
import Unit3dAnnounce.Proofs.Restart
import Unit3dAnnounce.Proofs.Sections
import Unit3dAnnounce.Proofs.ServiceTrace

/-!
# The stores keep a roster

Announces, upserts and removals take their sections in any order, and reaps come in between. All the same
the active peers are a roster on which everything happens at once and one after the other, and the peers
that are handed out are on it.
-/

namespace Unit3dAnnounce

open Machine

variable {F : Type}

/-- The active ones of the peers of a torrent. -/
def PeerStore.sightings (peers : PeerStore) (index : Peer.Index) : Option Sighting :=
  ((peers.get? index).filter fun peer => peer.isActive).map Peer.sighting

def TorrentStore.roster (torrents : TorrentStore) : Roster :=
  fun key => ((torrents.peer? key).filter fun peer => peer.isActive).map Peer.sighting

def AppState.roster (state : AppState F) : Roster := TorrentStore.roster state.stores.torrents

namespace TorrentStore

lemma part_roster (torrents : TorrentStore) (id : UInt32) :
    (roster torrents).part id = PeerStore.sightings
      ((torrents.get? id).elim IndexMap.empty Torrent.peers) := by
  funext index
  simp only [Roster.part, roster, peer?, PeerStore.sightings]
  cases torrents.get? id with
  | none => rw [Option.elim_none, IndexMap.get?_empty]; rfl
  | some torrent => rfl

lemma roster_swapRemove (torrents : TorrentStore) (id : UInt32) :
    roster (torrents.swapRemove id) = (roster torrents).withPart id fun _ => none := by
  funext key
  simp only [Roster.withPart, roster, peer?, IndexMap.get?_swapRemove]
  split_ifs <;> rfl

lemma roster_insert (torrents : TorrentStore) (id : UInt32) (torrent : Torrent) :
    roster (torrents.insert id torrent) =
      (roster torrents).withPart id (PeerStore.sightings torrent.peers) := by
  funext key
  simp only [Roster.withPart, roster, peer?, IndexMap.get?_insert, PeerStore.sightings]
  split_ifs <;> rfl

lemma roster_setDeleted (torrents : TorrentStore) (id : UInt32) :
    roster (torrents.modify id fun torrent => { torrent with isDeleted := true }) = roster torrents := by
  funext key
  simp only [roster, peer?, IndexMap.get?_modify]
  split_ifs with hid
  · rw [hid]
    cases torrents.get? id <;> rfl
  · rfl

end TorrentStore

section Announce

/-- An accepted announce, as the roster sees it. -/
def AnnounceCall.rosterOp (call : AnnounceCall F) (torrentId : UInt32) (result : TorrentResult F) :
    RosterOp :=
  .announce ⟨result.userId, torrentId, call.request.queries.peerId⟩
    (if call.request.queries.event = .stopped then none else some {
      ipAddress := call.request.clientIp
      port := call.request.queries.port
      isSeeder := call.request.queries.left = 0
      seenAt := call.env.now })
    result.list.peers

lemma Peer.isActive_of_isIncludedInPeerList {config : Config F} {peer : Peer}
    (h : peer.isIncludedInPeerList config = true) : peer.isActive = true := by
  unfold isIncludedInPeerList at h
  split_ifs at h
  · simp only [Bool.and_eq_true] at h
    exact h.1.1
  · exact (Bool.and_eq_true_iff.mp h).1

lemma sighting_announcedPeer (config : Config F) (now : DateTime) (queries : Announce)
    (clientIp : IpAddr) (isConnectable hit : Bool) (old : Option Peer) :
    ((announcedPeer config now queries clientIp isConnectable hit old).filter fun peer =>
        peer.isActive).map Peer.sighting =
      if queries.event = .stopped then none else some ⟨clientIp, queries.port, queries.left = 0, now⟩ := by
  unfold announcedPeer
  split_ifs with hstopped
  · rfl
  · cases old <;> rfl

variable [RateField F] {call : AnnounceCall F} {isConnectable : Bool} {state : AppState F}
  {torrentId : UInt32} {torrent torrent' : Torrent} {result : TorrentResult F}

/-- The torrents section puts its peer on the roster, or takes it off, and hands out others that are on
it. -/
lemma TorrentSection.rosterStep
    (h : TorrentSection call.config call.env call.request isConnectable state torrentId torrent torrent'
      result)
    (hseeds : ChoosesMultiple call.env.chooseSeeds) (hleeches : ChoosesMultiple call.env.chooseLeeches) :
    Roster.Step state.roster (call.rosterOp torrentId result)
      (TorrentStore.roster (state.stores.torrents.modify torrentId fun _ => torrent')) := by
  obtain ⟨peers', hp, htorrent, hresult⟩ := changeTorrent_ok h.change
  have hlist : result.list = selectPeers call.config call.env call.request.queries result.userId
      result.user torrent' result.change.warnings := by
    rw [hresult]
    rfl
  obtain ⟨seeds, leeches, hpeers, hseedsSub, hleechesSub, -⟩ :=
    @selectPeers_spec F _ call.config call.env call.request.queries result.userId result.user torrent'
      result.change.warnings hseeds hleeches
  have hsub : result.list.peers.Subperm (torrent'.eligible call.config result.userId true ++
      torrent'.eligible call.config result.userId false) := by
    rw [hlist, hpeers]
    exact hseedsSub.append hleechesSub
  have hroster : TorrentStore.roster (state.stores.torrents.modify torrentId fun _ => torrent') =
      Function.update state.roster ⟨result.userId, torrentId, call.request.queries.peerId⟩
        (if call.request.queries.event = .stopped then none else some ⟨call.request.clientIp,
          call.request.queries.port, call.request.queries.left = 0, call.env.now⟩) := by
    funext key
    by_cases hkey : key = ⟨result.userId, torrentId, call.request.queries.peerId⟩
    · rw [TorrentStore.roster, h.announcedPeer hkey, sighting_announcedPeer, hkey, Function.update_self]
    · rw [TorrentStore.roster, h.peer?_of_ne hkey, Function.update_of_ne hkey]
      rfl
  rw [hroster]
  refine .announce (fun entry hentry => ?_) ?_
  · obtain ⟨hget, hother, hincluded⟩ := Torrent.mem_eligible_append.mp (hsub.subset hentry)
    refine ⟨hother, ?_⟩
    have hactive : entry.2.isActive = true := Peer.isActive_of_isIncludedInPeerList hincluded
    have hne : (⟨entry.1.userId, torrentId, entry.1.peerId⟩ : PeerUpdate.Index) ≠
        ⟨result.userId, torrentId, call.request.queries.peerId⟩ := by
      intro heq
      exact hother (congrArg PeerUpdate.Index.userId heq)
    have hstored : TorrentStore.peer? state.stores.torrents ⟨entry.1.userId, torrentId, entry.1.peerId⟩ =
        some entry.2 := by
      rw [← h.peer?_of_ne hne, TorrentStore.peer?, IndexMap.get?_modify, if_pos rfl, h.stored]
      exact hget
    simp only [Roster.part, AppState.roster, TorrentStore.roster, hstored, Option.filter_some, hactive,
      if_true, Option.map_some]
  · obtain ⟨entries, hperm, hentries⟩ :=
      hsub.trans (Torrent.eligible_append_subperm call.config result.userId torrent')
    exact (hperm.map Prod.fst).nodup_iff.mp (IndexMap.nodup_of_sublist hentries torrent'.peers.nodup)

end Announce

/-- An active peer stays so if it has been seen since, and no inactive one becomes active. -/
lemma sighting_expire (activeCutoff inactiveCutoff : DateTime) (peer : Peer) :
    ((((some peer).filter fun peer => decide (inactiveCutoff ≤ peer.updatedAt) || peer.isActive).map
        (Peer.expire activeCutoff)).filter fun peer => peer.isActive).map Peer.sighting =
      (((some peer).filter fun peer => peer.isActive).map Peer.sighting).filter fun sighting =>
        decide (activeCutoff ≤ sighting.seenAt) := by
  cases hactive : peer.isActive with
  | false =>
    have hexpire : peer.expire activeCutoff = peer := by simp [Peer.expire, Peer.isExpired, hactive]
    by_cases hrecent : inactiveCutoff ≤ peer.updatedAt <;>
      simp [hactive, hexpire, hrecent, Option.filter_some]
  | true =>
    by_cases hseen : activeCutoff ≤ peer.updatedAt
    · have hexpire : peer.expire activeCutoff = peer := by
        simp [Peer.expire, Peer.isExpired, not_lt.mpr hseen]
      simp [hactive, hexpire, Option.filter_some, Peer.sighting, hseen]
    · have hexpire : peer.expire activeCutoff = { peer with isActive := false } := by
        simp [Peer.expire, Peer.isExpired, not_le.mp hseen, hactive]
      simp [hactive, hexpire, Option.filter_some, Peer.sighting, hseen]

/-- What a reap does to the roster. -/
def reapOps (config : Config F) (activeNow inactiveNow : DateTime) : List RosterOp :=
  match cutoff activeNow config.activePeerTtl, cutoff inactiveNow config.inactivePeerTtl with
  | some activeCutoff, some _ => [.expire activeCutoff]
  | _, _ => []

lemma roster_reap (config : Config F) (activeNow inactiveNow : DateTime) (state : AppState F) :
    LeadsTo Roster.Step state.roster (reapOps config activeNow inactiveNow)
      ((reap config activeNow inactiveNow state).getD state).roster := by
  simp only [reap, reapOps]
  cases cutoff activeNow config.activePeerTtl with
  | none => rfl
  | some activeCutoff =>
    cases cutoff inactiveNow config.inactivePeerTtl with
    | none => rfl
    | some inactiveCutoff =>
      have hroster : (reapTorrents config activeCutoff inactiveCutoff state).roster = fun key =>
          (state.roster key).filter fun sighting => decide (activeCutoff ≤ sighting.seenAt) := by
        funext key
        simp only [AppState.roster, TorrentStore.roster, peer?_reapTorrents]
        cases TorrentStore.peer? state.stores.torrents key with
        | none => rfl
        | some peer => exact sighting_expire activeCutoff inactiveCutoff peer
      refine ⟨_, ?_, rfl⟩
      simp only [bind, Option.bind, pure, Option.getD_some]
      rw [hroster]
      exact .expire

/-- A section that leaves the torrents alone. -/
def KeepsRoster (_ : LockSection) (state state' : AppState F) : Prop := state'.roster = state.roster

/-- The shuffles of the peers that an announce makes. -/
structure AnnounceCall.Chooses (call : AnnounceCall F) : Prop where
  seeds : ChoosesMultiple call.env.chooseSeeds
  leeches : ChoosesMultiple call.env.chooseLeeches

/-- What is done to the roster for an announce that ends like this. -/
def AnnounceCall.Does (call : AnnounceCall F) : Except AnnounceError (Accepted F) → List RosterOp → Prop
  | .ok a, ops => ops = [call.rosterOp a.torrentId a.toTorrentResult]
  | .error _, ops => ops = []

/-- Upserts put back what they have taken out. -/
def APIInsertTorrent.Does (torrent : APIInsertTorrent) : StatusCode → List RosterOp → Prop
  | .ok, ops => ∃ part, ops = [.takeOut torrent.id part, .putBack torrent.id part]
  | .badRequest, ops => ops = []

variable [RateField F]

namespace AnnounceCall

variable {call : AnnounceCall F}

lemma performs_announceTorrent_roster (hchooses : call.Chooses) (isConnectable : Bool)
    (userId : Except AnnounceError UInt32) (user : Except AnnounceError (User F)) (torrentId : UInt32) :
    (Handler.atomically (LockSection.announceTorrent torrentId) (announceTorrent call.config call.env
      call.request isConnectable userId user torrentId)).Performs AppState.roster Roster.Step
        (fun outcome ops => match outcome with
          | .ok result => ops = [call.rosterOp torrentId result]
          | .error _ => ops = []) [] := by
  intro state
  generalize hafter : announceTorrent call.config call.env call.request isConnectable userId user torrentId
    state = after
  obtain ⟨state', outcome⟩ := after
  simp only [hafter]
  cases outcome with
  | error e =>
    refine ⟨[], ?_, rfl⟩
    exact congrArg (fun stores : Stores F => TorrentStore.roster stores.torrents)
      (announceTorrent_stores_of_error hafter).1
  | ok result =>
    obtain ⟨-, -, torrent, torrent', hsection, rfl⟩ := announceTorrent_ok hafter
    exact ⟨[call.rosterOp torrentId result],
      ⟨_, hsection.rosterStep hchooses.seeds hchooses.leeches, rfl⟩, rfl⟩

theorem performs_handler_roster (hchooses : call.Chooses) :
    call.handler.Performs AppState.roster Roster.Step call.Does [] := by
  have hsame : ∀ label (state : AppState F), KeepsRoster label state state := fun _ _ => rfl
  have hkeeps : ∀ label (state state' : AppState F), KeepsRoster label state state' →
      state'.roster = state.roster := fun _ _ _ h => h
  unfold handler announce
  refine ((validate_reads hsame call.request).performs hkeeps).bind ?_
  rintro validated _ ⟨-, rfl⟩
  cases validated with
  | error e => exact Handler.performs_pure rfl
  | ok validated =>
    obtain ⟨userAgent, passkey⟩ := validated
    have huserId : (lookUpUserId passkey).Guarantees (fun _ => True) (KeepsRoster (F := F))
        (fun _ => True) := Handler.guarantees_read fun _ _ => ⟨rfl, trivial⟩
    refine (huserId.performs hkeeps).bind ?_
    rintro userId _ ⟨-, rfl⟩
    refine ((lookUpUser_reads hsame userId).performs hkeeps).bind ?_
    rintro user _ ⟨-, rfl⟩
    refine ((lookUpTorrentId_reads hsame call.request.queries.infoHash).performs hkeeps).bind ?_
    rintro torrentId _ ⟨-, rfl⟩
    cases torrentId with
    | error e =>
      refine Handler.Performs.write_bind [] (fun state => ?_) (Handler.performs_pure rfl)
      exact congrArg (fun stores : Stores F => TorrentStore.roster stores.torrents)
        (stores_recordUnregistered _ _ _ _)
    | ok torrentId =>
      refine ((checkConnectivity_writes (fun _ _ _ => rfl) _ _ _ _).performs hkeeps).bind ?_
      rintro isConnectable _ ⟨-, rfl⟩
      refine Handler.Performs.bind
        (performs_announceTorrent_roster hchooses isConnectable userId user torrentId) ?_
      intro outcome ops hops
      cases outcome with
      | error e => exact Handler.performs_pure hops
      | ok result =>
        have hcredit : (credit result torrentId userAgent isConnectable).Performs AppState.roster
            Roster.Step (fun a es => a.uncredited = result.accepted torrentId userAgent isConnectable ∧
              es = ops) ops :=
          (credit_guarantees result torrentId userAgent isConnectable).performs
            fun _ _ _ hstill => congrArg TorrentStore.roster hstill.torrents
        refine hcredit.bind ?_
        rintro a _ ⟨ha, rfl⟩
        refine ((publish_writes (fun _ _ _ _ => rfl) _ _ _ a).performs hkeeps).bind ?_
        rintro - _ ⟨-, rfl⟩
        refine Handler.performs_pure ?_
        have hresult : a.toTorrentResult = result := congrArg Accepted.toTorrentResult ha
        have hid : a.torrentId = torrentId := congrArg Accepted.torrentId ha
        rw [hops, ← hresult, ← hid]
        rfl

end AnnounceCall

namespace ServiceCall

/-- What is done to the roster for a call that ends like this. -/
def Does : (call : ServiceCall F) → call.Result → List RosterOp → Prop
  | .announce call, result, ops => call.Does result ops
  | .upsertTorrent torrent, status, ops => torrent.Does status ops
  | _, _, ops => ops = []

theorem performs_handler_roster (call : ServiceCall F)
    (hchooses : ∀ announce, call = .announce announce → announce.Chooses) :
    call.handler.Performs AppState.roster Roster.Step call.Does [] := by
  have hkeeps : ∀ label (state state' : AppState F), KeepsRoster label state state' →
      state'.roster = state.roster := fun _ _ _ h => h
  cases call with
  | announce call => exact AnnounceCall.performs_handler_roster (hchooses call rfl)
  | upsertTorrent torrent =>
    simp only [handler, Unit3dAnnounce.upsertTorrent]
    cases InfoHash.fromStr torrent.infoHash with
    | none => exact Handler.performs_pure rfl
    | some infoHash =>
      refine Handler.Performs.atomically_bind
        (fun state => [.takeOut torrent.id (state.roster.part torrent.id)]) (fun state => ?_)
        fun state => ?_
      · refine ⟨_, .takeOut, ?_⟩
        exact TorrentStore.roster_swapRemove _ _
      · have hpart : state.roster.part torrent.id = _ :=
          TorrentStore.part_roster state.stores.torrents torrent.id
        refine Handler.Performs.write_bind [.putBack torrent.id (state.roster.part torrent.id)]
          (fun state' => ⟨_, .putBack, ?_⟩) ?_
        · rw [hpart]
          exact TorrentStore.roster_insert _ _ _
        · exact Handler.Performs.write_bind [] (fun _ => rfl) (Handler.performs_pure ⟨_, rfl⟩)
  | destroyTorrent torrent =>
    intro state
    refine ⟨[], ?_, rfl⟩
    simp only
    split_ifs
    · exact TorrentStore.roster_setDeleted state.stores.torrents torrent.id
    · rfl
  | upsertUser upsert =>
    exact ((upsertUser_writes (fun _ _ _ _ => rfl) upsert.config upsert.user).performs hkeeps).mono
      fun _ _ h => h.2
  | destroyUser user =>
    exact ((destroyUser_writes (fun _ _ _ _ => rfl) user).performs hkeeps).mono fun _ _ h => h.2

end ServiceCall

section Runs

variable {ι : Type} [DecidableEq ι] {calls : ι → ServiceCall F}

/-- What has been done to the roster, event by event. -/
abbrev RosterTrace (F ι : Type) := ServiceTrace F ι RosterOp

namespace Service

/-- A trace explains a run: everything that is done to the roster is done at once, by an event of the
call whose result tells of it, and leads from the first roster to the last one. -/
abbrev Explains (service : Service calls) (result : ∀ i, (calls i).Result) (trace : RosterTrace F ι) :
    Prop :=
  service.Traces AppState.roster Roster.Step (fun i => (calls i).Does) reapOps result trace

lemma exists_explains {service : Service calls} (hfresh : service.Fresh)
    (hchooses : ∀ i announce, calls i = .announce announce → announce.Chooses)
    {events : List (ServiceEvent F ι)} {result : ∀ i, (calls i).Result}
    (hresult : (run step service events).Returned result) :
    ∃ trace, trace.events = events ∧ service.Explains result trace :=
  exists_traces roster_reap (fun request state => by cases request <;> rfl)
    (fun i => (calls i).performs_handler_roster (hchooses i)) hfresh hresult

/-- However the calls are interleaved, everything that they do to the roster might as well have been done
at once, at some moment between their first section and their last. -/
theorem roster_linearizable {service : Service calls} (hfresh : service.Fresh)
    (hchooses : ∀ i announce, calls i = .announce announce → announce.Chooses)
    {events : List (ServiceEvent F ι)} {result : ∀ i, (calls i).Result}
    (hresult : (run step service events).Returned result) :
    ∃ trace, ServiceTrace.events trace = events ∧ service.Explains result trace :=
  exists_explains hfresh hchooses hresult

end Service

end Runs

namespace Sample

/-- The site with another user, whose passkey is made of `b`s. -/
def sharedSite : AppState ℝ :=
  { state none [1] with
    stores.passkey2id := (IndexMap.empty.insert (passkey 0x61) 1).insert (passkey 0x62) 2
    stores.users := (IndexMap.empty.insert 1 (user 1 0x61)).insert 2 (user 2 0x62) }

/-- A leecher, and a seeder of the other user. -/
def swarmCalls : Bool → ServiceCall ℝ
  | true => .announce ⟨config, env 60, request 1 1 .started 5⟩
  | false => .announce ⟨config, env 0, { request 1 2 .started 0 with passkey := List.replicate 32 0x62 }⟩

noncomputable def swarmService : Service swarmCalls :=
  ⟨⟨sharedSite, fun i => (swarmCalls i).handler⟩⟩

/-- The seeder announces while the leecher is being looked up, and a reap comes after it. -/
def swarmRun : List (ServiceEvent ℝ Bool) :=
  List.replicate 3 (.advance true) ++ List.replicate 16 (.advance false) ++
    .reap config (time 30) (time 30) :: List.replicate 16 (.advance true)

lemma isSome_swarmRun (i : Bool) :
    (((run Service.step swarmService swarmRun).world.handlers i).result?).isSome = true := by
  revert i
  decide +kernel

noncomputable def swarmResult (i : Bool) : (swarmCalls i).Result := Option.get _ (isSome_swarmRun i)

lemma returned_swarmRun : (run Service.step swarmService swarmRun).Returned swarmResult :=
  fun _ => Handler.eq_ret_of_result? (Option.some_get _).symm

lemma chooses_swarmCalls (i : Bool) (announce : AnnounceCall ℝ) (h : swarmCalls i = .announce announce) :
    announce.Chooses := by
  cases i with
  | true =>
    rw [← ServiceCall.announce.inj h]
    exact ⟨choosesMultiple_take, choosesMultiple_take⟩
  | false =>
    rw [← ServiceCall.announce.inj h]
    exact ⟨choosesMultiple_take, choosesMultiple_take⟩

end Sample

theorem roster_linearizable_sample : ∃ trace, ServiceTrace.events trace = Sample.swarmRun ∧
    Sample.swarmService.Explains Sample.swarmResult trace :=
  Service.roster_linearizable (fun _ => rfl) Sample.chooses_swarmCalls Sample.returned_swarmRun

end Unit3dAnnounce
