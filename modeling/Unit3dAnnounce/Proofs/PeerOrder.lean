import Unit3dAnnounce.Proofs.Peers
import Unit3dAnnounce.Proofs.Phases
import Unit3dAnnounce.Proofs.Sections
import Unit3dAnnounce.Proofs.StoredPeer

/-!
# The orders of concurrent announces

Memory goes by the order of the torrents sections, the queue by the clocks that the announces have
read. The update of the announce of a peer that was the last one in the torrents tells of the peer in
memory, and it is the latest record of the peer as long as that announce has the last word in the queue.
-/

namespace Unit3dAnnounce

open Machine WriteBehind

variable {F : Type}

/-- The row is active exactly when memory holds the peer as active, and then tells of that peer. -/
structure PeerRow.Agrees (row : PeerRow) (peer : Option Peer) : Prop where
  active : row.active = peer.any Peer.isActive
  columns : ∀ p ∈ peer, p.isActive = true → row.seeder = p.isSeeder ∧ row.visible = p.isVisible ∧
    row.uploaded = p.uploaded ∧ row.downloaded = p.downloaded

instance (row : PeerRow) (peer : Option Peer) : Decidable (row.Agrees peer) :=
  decidable_of_iff (row.active = peer.any Peer.isActive ∧ ∀ p ∈ peer, p.isActive = true →
      row.seeder = p.isSeeder ∧ row.visible = p.isVisible ∧ row.uploaded = p.uploaded ∧
        row.downloaded = p.downloaded)
    ⟨fun h => ⟨h.1, h.2⟩, fun h => ⟨h.active, h.columns⟩⟩

/-- The update tells of the peer that memory holds. -/
def PeerUpdate.Agrees (update : PeerUpdate) (peer : Option Peer) : Prop := update.content.Agrees peer

lemma PeerUpdate.Agrees.row {update : PeerUpdate} {row : PeerRow} {peer : Option Peer}
    (h : update.Agrees peer) (hrow : row.content = update.content) : row.Agrees peer := by
  rw [PeerRow.eq_of_content hrow]
  exact ⟨h.active, h.columns⟩

/-- The statements of the flush do not fail. -/
def FlushEvent.Succeeds : FlushEvent F → Prop
  | .takeBatches _ => True
  | .finish _ _ succeeded => succeeded = true

section Announce

variable {config : Config F} {now : DateTime} {queries : Announce} {clientIp : IpAddr}
  {isConnectable hit : Bool} {userId : UInt32} {warnings : WarningCollection}
  {peers peers' : PeerStore} {change : PeerChange}

/-- An announce tells whether its peer is visible. -/
lemma isVisible_announcedPeer
    (h : changePeer config now queries clientIp userId isConnectable hit warnings peers =
      (peers', .ok change)) {peer : Peer}
    (hpeer : announcedPeer config now queries clientIp isConnectable hit
      (peers.get? ⟨userId, queries.peerId⟩) = some peer) : change.isVisible = peer.isVisible := by
  unfold announcedPeer at hpeer
  cases changePeer_ok h with
  | stops hevent hold => simp [hevent] at hpeer
  | renews hevent hold hnew =>
    rw [if_neg hevent, hold] at hpeer
    rw [hnew]
    exact congrArg Peer.isVisible (Option.some_inj.mp hpeer)
  | inserts hevent hold hnew hlimit =>
    rw [if_neg hevent, hold] at hpeer
    rw [hnew]
    exact congrArg Peer.isVisible (Option.some_inj.mp hpeer)

/-- The peer that an announce leaves, unless it stops. -/
lemma announcedPeer_of_ne_stopped (hstopped : queries.event ≠ .stopped) (old : Option Peer) :
    ∃ peer, announcedPeer config now queries clientIp isConnectable hit old = some peer ∧
      peer.isActive = true ∧ peer.isSeeder = decide (queries.left = 0) ∧
      peer.uploaded = queries.uploaded ∧ peer.downloaded = queries.downloaded := by
  unfold announcedPeer
  rw [if_neg hstopped]
  cases old with
  | some oldPeer => exact ⟨_, rfl, rfl, rfl, rfl, rfl⟩
  | none => exact ⟨_, rfl, rfl, rfl, rfl, rfl⟩

variable [RateField F] {call : AnnounceCall F} {a : Accepted F}

def AnnounceCall.peerIndex (call : AnnounceCall F) (a : Accepted F) : PeerUpdate.Index :=
  ⟨a.userId, a.torrentId, call.request.queries.peerId⟩

/-- The update of an accepted announce tells of the peer that its torrents section has left. -/
lemma agrees_peerUpdate {state : AppState F} {torrent torrent' : Torrent}
    (h : TorrentSection call.config call.env call.request a.isConnectable state a.torrentId torrent
      torrent' a.toTorrentResult) :
    (a.peerUpdate call.env call.request).Agrees (TorrentStore.peer?
      (state.stores.torrents.modify a.torrentId (fun _ => torrent')) (call.peerIndex a)) := by
  have hstored : state.stores.torrents.peer? (call.peerIndex a) =
      torrent.peers.get? ⟨a.userId, call.request.queries.peerId⟩ := TorrentStore.peer?_of_get? h.stored
  obtain ⟨peers', hchange, -⟩ := changeTorrent_ok h.change
  have hafter := h.announcedPeer (rfl : call.peerIndex a = _)
  rw [hafter, hstored]
  by_cases hstopped : call.request.queries.event = .stopped
  · unfold announcedPeer
    rw [if_pos hstopped]
    exact ⟨by simp [PeerUpdate.content, PeerUpdate.row, Accepted.peerUpdate, hstopped], by simp⟩
  · obtain ⟨peer, hpeer, hactive, hseeder, huploaded, hdownloaded⟩ :=
      announcedPeer_of_ne_stopped hstopped (torrent.peers.get? ⟨a.userId, call.request.queries.peerId⟩)
    have hvisible := isVisible_announcedPeer hchange hpeer
    rw [hpeer]
    refine ⟨?_, ?_⟩
    · rw [Option.any_some, hactive]
      simp [PeerUpdate.content, PeerUpdate.row, Accepted.peerUpdate, hstopped]
    · rintro p hp -
      rw [Option.mem_def, Option.some_inj] at hp
      subst hp
      exact ⟨hseeder.symm, hvisible, huploaded.symm, hdownloaded.symm⟩

end Announce

/-- The passkeys and the info hashes mean the same users and torrents. -/
def AppState.HasMappings (stores : Stores F) (state : AppState F) : Prop :=
  state.stores.passkey2id = stores.passkey2id ∧ state.stores.infohash2id = stores.infohash2id

/-- The peer that an announce is about, where its user and its torrent are known. -/
def AnnounceCall.peerIndex? (call : AnnounceCall F) (stores : Stores F) : Option PeerUpdate.Index := do
  let passkey ← Passkey.fromStr call.request.passkey
  let userId ← stores.passkey2id.get? passkey
  let torrentId ← stores.infohash2id.get? call.request.queries.infoHash
  return ⟨userId, torrentId, call.request.queries.peerId⟩

lemma AnnounceCall.peerIndex?_congr {stores : Stores F} {state : AppState F}
    (h : state.HasMappings stores) (call : AnnounceCall F) :
    call.peerIndex? state.stores = call.peerIndex? stores := by
  unfold peerIndex?
  rw [h.1, h.2]

/-- An announce can only be accepted for that peer. -/
lemma AnnounceCall.accepts_peerIndex [RateField F] (call : AnnounceCall F) (stores : Stores F) :
    call.handler.Guarantees (AppState.HasMappings stores) (Keeps (AppState.HasMappings stores))
      fun outcome => ∀ a, outcome = .ok a → call.peerIndex? stores = some (call.peerIndex a) := by
  refine announce_guarantees
    (P := fun userId => ∀ id, userId = .ok id → ∃ passkey,
      Passkey.fromStr call.request.passkey = some passkey ∧ stores.passkey2id.get? passkey = some id)
    (T := fun torrentId => stores.infohash2id.get? call.request.queries.infoHash = some torrentId)
    (Q := fun torrentId result => call.peerIndex? stores =
      some ⟨result.userId, torrentId, call.request.queries.peerId⟩)
    (fun _ _ _ _ _ h => h) (fun passkey hpasskey state hstate id hid => ?_)
    (fun state hstate torrentId hget => hstate.2 ▸ hget) ?_
  · rw [hstate.1] at hid
    refine ⟨passkey, hpasskey, ?_⟩
    cases hget : stores.passkey2id.get? passkey with
    | none =>
      rw [hget] at hid
      cases hid
    | some id' =>
      rw [hget] at hid
      exact congrArg some (Except.ok.inj hid)
  · intro isConnectable userId user torrentId state _ huserId htorrentId
    obtain ⟨hpasskeys, hinfoHashes⟩ := mappings_announceTorrent call.config call.env call.request
      isConnectable userId user torrentId state
    refine ⟨fun hmaps => ⟨hpasskeys.trans hmaps.1, hinfoHashes.trans hmaps.2⟩, fun result hresult => ?_⟩
    obtain ⟨passkey, hpasskey, hget⟩ := huserId _ (announceTorrent_ok (Prod.ext rfl hresult)).1
    simp only [peerIndex?, hpasskey, hget, htorrentId, Option.bind_eq_bind, Option.bind_some]
    rfl

/-- Once its torrents section has accepted it, an announce is about that peer. -/
lemma AnnounceCall.InPhase.peerIndex?_eq [RateField F] {call : AnnounceCall F} {phase : Phase F}
    {handler : Handler LockSection (AppState F) (Except AnnounceError (Accepted F))}
    (h : call.InPhase phase handler) {a : Accepted F} (ha : phase.announce? = some a)
    {stores : Stores F} {state : AppState F} (hmaps : state.HasMappings stores)
    (haccepts : handler.Guarantees (AppState.HasMappings stores) (Keeps (AppState.HasMappings stores))
      fun outcome => ∀ a, outcome = .ok a → call.peerIndex? stores = some (call.peerIndex a)) :
    call.peerIndex? stores = some (call.peerIndex a) := by
  obtain ⟨a', hresult, rfl⟩ := h.run ha state
  exact haccepts.run (fun _ _ _ hR hG => hG hR) hmaps a' hresult

/-- The announce, once its peer is queued. -/
def Phase.queued? : Phase F → Option (Accepted F)
  | .queued a => some a
  | _ => none

def LockSection.isAnnounceTorrent : LockSection → Bool
  | .announceTorrent _ => true
  | _ => false

/-- The latest record of the peer is this one. -/
def PeerUpdate.IsLatest (update : PeerUpdate) (key : PeerUpdate.Index) (pipeline : PeerPipeline) :
    Prop :=
  (pipeline.channel.cell key).Latest PeerUpdate.content PeerRow.content update

namespace PeerUpdate.IsLatest

variable {update : PeerUpdate} {key : PeerUpdate.Index} {pipeline : PeerPipeline}
  {queue : Queue PeerUpdate.Index PeerUpdate} {writes : Writes PeerUpdate.Index PeerUpdate PeerRow}

/-- A flush whose statements do not fail takes the latest record to the row. -/
lemma flush (h : update.IsLatest key pipeline) {event : FlushEvent F}
    (hturn : pipeline.InTurn (.flush event)) (hsucceeds : event.Succeeds) :
    update.IsLatest key (pipeline.flush event) := by
  unfold IsLatest at h ⊢
  rcases pipeline.flush_cell event key with hsame | ⟨action, hacts, hnew, hstep⟩
  · rw [hsame]
    exact h
  · refine Cell.Latest.step content_writeRow hstep hnew ?_ ?_ h
    · rintro rfl
      exact hacts.inflight_eq_zero hturn
    · rintro update' waiting rfl -
      cases hacts with
      | fail config hbatch hvalue => cases hsucceeds

/-- A record with a later clock than the waiting one becomes the latest. -/
lemma of_upsert (h : ∀ waiting ∈ queue.records.get? key, waiting.updatedAt < update.updatedAt) :
    update.IsLatest key ⟨queue.upsert key update, writes⟩ := by
  unfold IsLatest Cell.Latest
  simp only [Pipeline.channel, Channel.cell, Queue.upsert, IndexMap.get?_upsert, if_true]
  cases hwaiting : queue.records.get? key with
  | none => rfl
  | some waiting => exact PeerUpdate.content_merge_of_lt (h waiting hwaiting)

/-- A record whose clock is not later than that of the waiting one changes nothing. -/
lemma upsert_of_le (h : update.IsLatest key ⟨queue, writes⟩) {waiting update' : PeerUpdate}
    (hwaiting : queue.records.get? key = some waiting) (hle : update'.updatedAt ≤ waiting.updatedAt) :
    update.IsLatest key ⟨queue.upsert key update', writes⟩ := by
  unfold IsLatest Cell.Latest at h ⊢
  simp only [Pipeline.channel, Channel.cell, hwaiting] at h
  simp only [Pipeline.channel, Channel.cell, Queue.upsert, IndexMap.get?_upsert, if_true, hwaiting,
    Option.elim_some]
  rw [PeerUpdate.content_merge_of_le hle]
  exact h

/-- Nor does a record of another peer. -/
lemma upsert_of_ne (h : update.IsLatest key ⟨queue, writes⟩) {key' : PeerUpdate.Index}
    (hkey : key' ≠ key) (update' : PeerUpdate) :
    update.IsLatest key ⟨queue.upsert key' update', writes⟩ := by
  have hcell : (⟨queue.upsert key' update', writes⟩ : PeerPipeline).channel.cell key =
      (⟨queue, writes⟩ : PeerPipeline).channel.cell key := by
    simp only [Pipeline.channel, Channel.cell, Queue.upsert, IndexMap.get?_upsert,
      if_neg fun heq : key = key' => hkey heq.symm]
  unfold IsLatest
  rw [hcell]
  exact h

end PeerUpdate.IsLatest

section Orders

variable {ι : Type}

/-- The peer in memory. -/
def PeerService.peer? (service : PeerService ι F) (key : PeerUpdate.Index) : Option Peer :=
  service.world.state.stores.torrents.peer? key

/-- A service with the announces that have been through their torrents section and were not refused
there, and with those that have queued their peer. The last one comes first. -/
structure OrderedService (ι F : Type) where
  service : PeerService ι F
  accepted : List ι
  queued : List ι

/-- The last one of the accepted announces that is about the peer. -/
def lastAccepted (announces : ι → AnnounceCall F) (stores : Stores F) (accepted : List ι)
    (key : PeerUpdate.Index) : Option ι :=
  accepted.find? fun i => (announces i).peerIndex? stores = some key

lemma peerIndex?_of_lastAccepted {announces : ι → AnnounceCall F} {stores : Stores F}
    {accepted : List ι} {key : PeerUpdate.Index} {i : ι}
    (h : lastAccepted announces stores accepted key = some i) :
    i ∈ accepted ∧ (announces i).peerIndex? stores = some key :=
  ⟨List.mem_of_find?_eq_some h, by simpa using List.find?_some h⟩

lemma lastAccepted_congr {stores : Stores F} {state : AppState F} (h : state.HasMappings stores)
    (announces : ι → AnnounceCall F) (accepted : List ι) (key : PeerUpdate.Index) :
    lastAccepted announces state.stores accepted key = lastAccepted announces stores accepted key := by
  unfold lastAccepted
  simp only [AnnounceCall.peerIndex?_congr h]

variable [DecidableEq ι]

namespace OrderedService

/-- The step of the service, with the orders kept up to date. -/
def step (ordered : OrderedService ι F) (event : ι ⊕ FlushEvent F) : OrderedService ι F :=
  let service := ordered.service.step event
  match event with
  | .inl i =>
    let label? := (ordered.service.world.handlers i).label?
    { service := service
      accepted :=
        if label?.any LockSection.isAnnounceTorrent ∧ (service.world.handlers i).result? = none then
          i :: ordered.accepted
        else ordered.accepted
      queued := if label? = some .peersQueue then i :: ordered.queued else ordered.queued }
  | .inr _ => { ordered with service := service }

@[simp] lemma service_step (ordered : OrderedService ι F) (event : ι ⊕ FlushEvent F) :
    (ordered.step event).service = ordered.service.step event := by
  cases event <;> rfl

lemma service_run (ordered : OrderedService ι F) (events : List (ι ⊕ FlushEvent F)) :
    (run step ordered events).service = run PeerService.step ordered.service events := by
  induction events generalizing ordered with
  | nil => rfl
  | cons event events ih => rw [run_cons, run_cons, ih, service_step]

/-- The last announce of a peer in the torrents finds no record of the peer with the same or a later
clock in the queue. Any other one that queues the peer comes before the last one does, or finds such a
record. Flushes do not overlap. -/
def KeepsOrder (announces : ι → AnnounceCall F) (ordered : OrderedService ι F) :
    ι ⊕ FlushEvent F → Prop
  | .inl i => (ordered.service.world.handlers i).label? = some .peersQueue →
      ∀ key ∈ (announces i).peerIndex? ordered.service.world.state.stores,
        let last := lastAccepted announces ordered.service.world.state.stores ordered.accepted key
        let waiting := ordered.service.pipeline.queue.records.get? key
        if last = some i then ∀ update ∈ waiting, update.updatedAt < (announces i).env.now
        else (∀ j ∈ last, j ∉ ordered.queued) ∨
          ∃ update ∈ waiting, (announces i).env.now ≤ update.updatedAt
  | .inr event => ordered.service.pipeline.InTurn (.flush event)

instance (announces : ι → AnnounceCall F) (ordered : OrderedService ι F) :
    ∀ event, Decidable (ordered.KeepsOrder announces event)
  | .inl _ => inferInstanceAs (Decidable (_ = _ → ∀ key ∈ _, if _ = _ then ∀ update ∈ _, _ < _
      else _ ∨ ∃ update ∈ _, _ ≤ _))
  | .inr (.takeBatches _) =>
    decidable_of_iff (ordered.service.peers.running.isEmpty = true) List.isEmpty_iff
  | .inr (.finish _ _ _) => isTrue trivial

end OrderedService

variable (announces : ι → AnnounceCall F) (stores : Stores F) (phase : ι → Phase F)

/-- The update of an accepted announce tells of the peer, and is the latest record of it once it is
queued. -/
def Tells (key : PeerUpdate.Index) (peer : Option Peer) (pipeline : PeerPipeline) (i : ι) : Prop :=
  ∃ a, (phase i).announce? = some a ∧
    (a.peerUpdate (announces i).env (announces i).request).Agrees peer ∧
    (((phase i).queued?).isSome →
      (a.peerUpdate (announces i).env (announces i).request).IsLatest key pipeline)

variable {announces stores phase} {key : PeerUpdate.Index} {peer : Option Peer}
  {pipeline pipeline' : PeerPipeline} {i j : ι} {phase' : Phase F}

omit [DecidableEq ι] in
lemma Tells.mono (h : Tells announces phase key peer pipeline i)
    (hlatest : ∀ update : PeerUpdate, ((phase i).queued?).isSome → update.IsLatest key pipeline →
      update.IsLatest key pipeline') : Tells announces phase key peer pipeline' i := by
  obtain ⟨a, ha, hagrees, hqueued⟩ := h
  exact ⟨a, ha, hagrees, fun hphase => hlatest _ hphase (hqueued hphase)⟩

/-- An announce goes on, which does not change what the others tell. -/
lemma Tells.update (h : Tells announces phase key peer pipeline j)
    (hsame : j = i → phase'.announce? = (phase i).announce? ∧ phase'.queued? = (phase i).queued?) :
    Tells announces (Function.update phase i phase') key peer pipeline j := by
  unfold Tells
  by_cases hj : j = i
  · subst hj
    rw [Function.update_self, (hsame rfl).1, (hsame rfl).2]
    exact h
  · rw [Function.update_of_ne hj]
    exact h

variable [RateField F] {label : LockSection} {state state' : AppState F}

/-- What a section of an announce adds to the accepted and to the queued ones. -/
lemma AnnounceCall.Advances.logs {call : AnnounceCall F} {phase : Phase F}
    (h : call.Advances phase label state state' phase')
    {handler : Handler LockSection (AppState F) (Except AnnounceError (Accepted F))}
    (hin : call.InPhase phase' handler) :
    ((phase'.announce?).isSome ↔
      label.isAnnounceTorrent = true ∧ handler.result? = none ∨ (phase.announce?).isSome) ∧
    ((phase'.queued?).isSome ↔ label = .peersQueue ∨ (phase.queued?).isSome) := by
  cases h with
  | still hstill =>
    have htorrent : label.isAnnounceTorrent = false := by
      cases label with
      | announceTorrent id => exact absurd rfl (hstill.ne_of_isStill rfl)
      | _ => rfl
    have hqueue : label ≠ .peersQueue := hstill.ne_of_isStill rfl
    simp [htorrent, hqueue]
  | refuse hstores hpeers =>
    obtain ⟨e, rfl⟩ := hin
    simp [Phase.announce?, Phase.queued?, Handler.result?]
  | accept hsection =>
    have hresult : handler.result? = none := by
      cases handler with
      | lock label act next => rfl
      | ret result =>
        rcases hin.ret with ⟨hphase | hphase, -⟩ | ⟨_, _, hphase, -⟩
        · cases hphase
        · cases hphase
        · cases hphase
    simp [Phase.announce?, Phase.queued?, LockSection.isAnnounceTorrent, hresult]
  | update state htouches =>
    simp [Phase.announce?, Phase.queued?, LockSection.isAnnounceTorrent]
  | queue state hphase =>
    rcases hphase with rfl | ⟨rfl, -⟩
    · simp [Phase.announce?, Phase.queued?, LockSection.isAnnounceTorrent]
    · simp [Phase.announce?, Phase.queued?, LockSection.isAnnounceTorrent]

/-- An announce goes on telling of its peer, unless another one of the same peer is accepted, as long as
it finds no later clock in the queue, and others that come after it there do. -/
lemma Tells.advance {writes : Writes PeerUpdate.Index PeerUpdate PeerRow}
    (h : Tells announces phase key (state.stores.torrents.peer? key) ⟨state.queues.peers, writes⟩ j)
    (hadvances : (announces i).Advances (phase i) label state state' phase')
    (hself : j = i → ∀ a, (phase i).announce? = some a → (announces i).peerIndex a = key)
    (haccept : ∀ a, phase i = .looking → phase' = .accepted a → (announces i).peerIndex a ≠ key)
    (hqueue : ∀ a, (phase i).announce? = some a → label = .peersQueue →
      (announces i).peerIndex a = key →
      if j = i then ∀ update ∈ state.queues.peers.records.get? key,
        update.updatedAt < (announces i).env.now
      else ¬ ((phase j).queued?).isSome ∨ ∃ update ∈ state.queues.peers.records.get? key,
        (announces i).env.now ≤ update.updatedAt) :
    Tells announces (Function.update phase i phase') key (state'.stores.torrents.peer? key)
      ⟨state'.queues.peers, writes⟩ j := by
  have hne (hlooking : phase i = .looking) : j ≠ i := by
    rintro rfl
    obtain ⟨a, ha, -⟩ := h
    rw [hlooking] at ha
    cases ha
  generalize hphase : phase i = p at hadvances hself haccept hqueue
  cases hadvances with
  | still hstill =>
    rw [hstill.torrents, hstill.peers]
    exact h.update fun _ => by rw [hphase]; exact ⟨rfl, rfl⟩
  | refuse hstores hpeers =>
    rw [hstores, hpeers]
    exact h.update fun hj => absurd hj (hne hphase)
  | @accept _ torrent torrent' a hsection =>
    rw [hsection.peer?_of_ne fun heq => haccept a rfl rfl heq.symm]
    exact h.update fun hj => absurd hj (hne hphase)
  | update state htouches => exact h.update fun _ => by rw [hphase]; exact ⟨rfl, rfl⟩
  | @queue a _ state hunqueued =>
    have hannounce : p.announce? = some a := by
      rcases hunqueued with rfl | ⟨rfl, -⟩
      · rfl
      · rfl
    by_cases hj : j = i
    · subst hj
      have hkey := hself rfl a hannounce
      have hearlier := hqueue a hannounce rfl hkey
      rw [if_pos rfl] at hearlier
      obtain ⟨a', ha', hagrees, -⟩ := h
      rw [hphase, hannounce, Option.some_inj] at ha'
      subst ha'
      subst hkey
      refine ⟨a, ?_, hagrees, fun _ => PeerUpdate.IsLatest.of_upsert hearlier⟩
      rw [Function.update_self]
      rfl
    · refine Tells.update (h.mono fun update hqueued hlatest => ?_) fun heq => absurd heq hj
      by_cases hkey : (announces i).peerIndex a = key
      · have hlater := hqueue a hannounce rfl hkey
        rw [if_neg hj] at hlater
        obtain ⟨waiting, hwaiting, hle⟩ := hlater.resolve_left fun hnot => hnot hqueued
        subst hkey
        exact hlatest.upsert_of_le hwaiting hle
      · exact hlatest.upsert_of_ne hkey _

/-- What is known in the phases of the announces: the orders are those of the phases, and the last
accepted announce of every peer tells of it. -/
structure OrderedService.Tracks (announces : ι → AnnounceCall F) (stores : Stores F)
    (phase : ι → Phase F) (ordered : OrderedService ι F) : Prop where
  phases : InPhases announces phase ordered.service.world
  mappings : ordered.service.world.state.HasMappings stores
  accepts : ∀ i, (ordered.service.world.handlers i).Guarantees (AppState.HasMappings stores)
    (Keeps (AppState.HasMappings stores))
    fun outcome => ∀ a, outcome = .ok a → (announces i).peerIndex? stores =
      some ((announces i).peerIndex a)
  accepted : ∀ i, i ∈ ordered.accepted ↔ ((phase i).announce?).isSome
  queued : ∀ i, i ∈ ordered.queued ↔ ((phase i).queued?).isSome
  told : ∀ key i, lastAccepted announces stores ordered.accepted key = some i →
    Tells announces phase key (ordered.service.peer? key) ordered.service.pipeline i

namespace OrderedService.Tracks

variable {ordered : OrderedService ι F}

lemma flush (h : ordered.Tracks announces stores phase) {event : FlushEvent F}
    (hturn : ordered.service.pipeline.InTurn (.flush event)) (hsucceeds : event.Succeeds) :
    (ordered.step (.inr event)).Tracks announces stores phase :=
  ⟨h.phases, h.mappings, h.accepts, h.accepted, h.queued, fun key i hlast =>
    (h.told key i hlast).mono fun _ _ hlatest => hlatest.flush hturn hsucceeds⟩

omit [RateField F] in
lemma mem_accepted_step (hlabel : (ordered.service.world.handlers i).label? = some label) :
    j ∈ (ordered.step (.inl i)).accepted ↔
      j = i ∧ label.isAnnounceTorrent = true ∧
        ((ordered.service.world.step i).handlers i).result? = none ∨ j ∈ ordered.accepted := by
  simp only [OrderedService.step, PeerService.step, hlabel, Option.any_some]
  split_ifs with hlogged
  · rw [List.mem_cons, and_iff_left hlogged]
  · rw [or_iff_right fun hnew => hlogged hnew.2]

omit [RateField F] in
lemma mem_queued_step (hlabel : (ordered.service.world.handlers i).label? = some label) :
    j ∈ (ordered.step (.inl i)).queued ↔ j = i ∧ label = .peersQueue ∨ j ∈ ordered.queued := by
  simp only [OrderedService.step, hlabel, Option.some_inj]
  split_ifs with hlogged
  · rw [List.mem_cons, and_iff_left hlogged]
  · rw [or_iff_right fun hnew => hlogged hnew.2]

omit [RateField F] in
/-- The last accepted announce of a peer is the one that has just been accepted, or as before. -/
lemma lastAccepted_step (hlast : lastAccepted announces stores (ordered.step (.inl i)).accepted key =
    some j) :
    let accepts := ((ordered.service.world.handlers i).label?).any LockSection.isAnnounceTorrent ∧
      ((ordered.service.world.step i).handlers i).result? = none
    (accepts ∧ j = i ∧ (announces i).peerIndex? stores = some key) ∨
      lastAccepted announces stores ordered.accepted key = some j ∧
        (accepts → (announces i).peerIndex? stores ≠ some key) := by
  intro accepts
  by_cases haccepts : accepts
  · have hcons : (ordered.step (.inl i)).accepted = i :: ordered.accepted := if_pos haccepts
    rw [hcons, lastAccepted, List.find?_cons] at hlast
    by_cases hkey : (announces i).peerIndex? stores = some key
    · simp only [hkey, decide_true] at hlast
      exact Or.inl ⟨haccepts, (Option.some_inj.mp hlast).symm, hkey⟩
    · simp only [hkey, decide_false] at hlast
      exact Or.inr ⟨hlast, fun _ => hkey⟩
  · have hsame : (ordered.step (.inl i)).accepted = ordered.accepted := if_neg haccepts
    rw [hsame] at hlast
    exact Or.inr ⟨hlast, fun h => absurd h haccepts⟩

/-- The last accepted announce of every peer goes on telling of it. -/
lemma told_step (h : ordered.Tracks announces stores phase)
    (hlabel : (ordered.service.world.handlers i).label? = some label)
    (hadvances : (announces i).Advances (phase i) label ordered.service.world.state
      (ordered.service.world.step i).state phase')
    (hin : (announces i).InPhase phase' ((ordered.service.world.step i).handlers i))
    (hindex : ∀ a, phase'.announce? = some a →
      (announces i).peerIndex? stores = some ((announces i).peerIndex a))
    (hkeeps : ordered.KeepsOrder announces (.inl i))
    (hlast : lastAccepted announces stores (ordered.step (.inl i)).accepted key = some j) :
    Tells announces (Function.update phase i phase') key ((ordered.step (.inl i)).service.peer? key)
      (ordered.step (.inl i)).service.pipeline j := by
  obtain ⟨hannounced, -⟩ := hadvances.logs hin
  have hlabelled : ((ordered.service.world.handlers i).label?).any LockSection.isAnnounceTorrent =
      label.isAnnounceTorrent := by
    rw [hlabel, Option.any_some]
  rcases lastAccepted_step hlast with ⟨⟨htorrent, hresult⟩, rfl, hkey⟩ | ⟨hbefore, hother⟩
  · -- the announce itself has just been accepted
    rw [hlabelled] at htorrent
    obtain ⟨a, ha⟩ := Option.isSome_iff_exists.mp (hannounced.mpr (Or.inl ⟨htorrent, hresult⟩))
    rw [hindex a ha, Option.some_inj] at hkey
    subst hkey
    change Tells announces (Function.update phase j phase') ((announces j).peerIndex a)
      ((ordered.service.world.step j).state.stores.torrents.peer? ((announces j).peerIndex a))
      ⟨(ordered.service.world.step j).state.queues.peers, ordered.service.peers⟩ j
    generalize phase j = p at hadvances hannounced
    generalize (ordered.service.world.step j).state = state' at hadvances
    cases hadvances with
    | still hstill =>
      cases label with
      | announceTorrent id => exact absurd rfl (hstill.ne_of_isStill rfl)
      | _ => cases htorrent
    | refuse hstores hpeers => cases ha
    | @accept _ torrent torrent' a' hsection =>
      simp only [Phase.announce?, Option.some_inj] at ha
      subst ha
      refine ⟨a', ?_, agrees_peerUpdate hsection, fun hqueued => ?_⟩
      · rw [Function.update_self]
        rfl
      · rw [Function.update_self] at hqueued
        cases hqueued
    | update state htouches => cases htorrent
    | queue state hphase => cases htorrent
  · have hmem := peerIndex?_of_lastAccepted hbefore
    refine (h.told key j hbefore).advance hadvances ?_ ?_ ?_
    · rintro rfl a ha
      have heq := (hindex a (hadvances.announce? ha)).symm.trans hmem.2
      exact Option.some_inj.mp heq
    · intro a hlooking haccepted hkey
      have hnow : (phase'.announce?).isSome := by
        rw [haccepted]
        rfl
      rw [hannounced, hlooking] at hnow
      obtain ⟨htorrent, hresult⟩ := hnow.resolve_right (by simp [Phase.announce?])
      refine hother ⟨hlabelled.trans htorrent, hresult⟩ ?_
      rw [hindex a (by rw [haccepted]; rfl), hkey]
    · rintro a ha rfl hkey
      have hkept := hkeeps hlabel key (by
        rw [AnnounceCall.peerIndex?_congr h.mappings, hindex a (hadvances.announce? ha), hkey]
        rfl)
      simp only [lastAccepted_congr h.mappings, hbefore, Option.some_inj] at hkept
      by_cases hj : j = i
      · rw [if_pos hj] at hkept ⊢
        exact hkept
      · rw [if_neg hj] at hkept ⊢
        refine hkept.imp_left fun hnot hqueued => ?_
        exact hnot j rfl ((h.queued j).mpr hqueued)

lemma mappings_step (h : ordered.Tracks announces stores phase) (i : ι) :
    (ordered.service.world.step i).state.HasMappings stores := by
  rcases World.state_step (h.accepts i) h.mappings with hsame | ⟨_, hmaps⟩
  · rw [hsame]
    exact h.mappings
  · exact hmaps h.mappings

/-- After its step an announce is about the peer that its request means. -/
lemma peerIndex?_step (h : ordered.Tracks announces stores phase)
    (hin : (announces i).InPhase phase' ((ordered.service.world.step i).handlers i)) {a : Accepted F}
    (ha : phase'.announce? = some a) :
    (announces i).peerIndex? stores = some ((announces i).peerIndex a) :=
  hin.peerIndex?_eq ha (h.mappings_step i) (World.guarantees_step (h.accepts i) h.mappings i)

lemma advance (h : ordered.Tracks announces stores phase)
    (hkeeps : ordered.KeepsOrder announces (.inl i)) :
    ∃ phase, (ordered.step (.inl i)).Tracks announces stores phase := by
  have haccepts := fun j => World.guarantees_step (h.accepts j) h.mappings i
  rcases h.phases.step i with ⟨hlabel, hsame⟩ | ⟨label, phase', hlabel, hadvances, hnext⟩
  · refine ⟨phase, ?_⟩
    simp only [OrderedService.step, PeerService.step, hsame, hlabel]
    exact h
  · have hin := hnext i
    rw [Function.update_self] at hin
    obtain ⟨haccepted, hqueued⟩ := hadvances.logs hin
    refine ⟨_, hnext, h.mappings_step i, haccepts, fun j => ?_, fun j => ?_, fun key j hlast => ?_⟩
    · rw [mem_accepted_step hlabel, h.accepted]
      by_cases hj : j = i
      · subst hj
        rw [Function.update_self, haccepted, and_iff_right rfl]
      · rw [Function.update_of_ne hj, or_iff_right fun hnew => hj hnew.1]
    · rw [mem_queued_step hlabel, h.queued]
      by_cases hj : j = i
      · subst hj
        rw [Function.update_self, hqueued, and_iff_right rfl]
      · rw [Function.update_of_ne hj, or_iff_right fun hnew => hj hnew.1]
    · exact h.told_step hlabel hadvances hin (fun a ha => h.peerIndex?_step hin ha) hkeeps hlast

lemma step (h : ordered.Tracks announces stores phase) {event : ι ⊕ FlushEvent F}
    (hkeeps : ordered.KeepsOrder announces event)
    (hsucceeds : ∀ flush, event = .inr flush → flush.Succeeds) :
    ∃ phase, (ordered.step event).Tracks announces stores phase := by
  cases event with
  | inl i => exact h.advance hkeeps
  | inr event => exact ⟨phase, h.flush hkeeps (hsucceeds event rfl)⟩

end OrderedService.Tracks

end Orders

end Unit3dAnnounce
