import Unit3dAnnounce.Model.Sample
import Unit3dAnnounce.Proofs.Phases

/-!
# Swarms under upserts

The peers of a torrent are in its store, or an upsert that has taken the torrent out carries them.
They stay together as long as no other request wants the torrent in between.
-/

namespace Unit3dAnnounce

open Machine

variable {F : Type}

/-- The info hash of an announce is that of the torrent, or is not registered yet. -/
def AnnounceCall.MapsTo (call : AnnounceCall F) (id : UInt32) (state : AppState F) : Prop :=
  ∀ torrentId, state.stores.infohash2id.get? call.request.queries.infoHash = some torrentId →
    torrentId = id

/-- The sections under the lock of the torrents. -/
def LockSection.isOfTorrents : LockSection → Bool
  | .announceTorrent _ | .removeTorrent _ | .insertTorrent _ | .deleteTorrent _ => true
  | _ => false

/-- A section that leaves the torrents alone and maps info hashes at most to this one. -/
structure Quiet (id : UInt32) (label : LockSection) (state state' : AppState F) : Prop where
  label : label.isOfTorrents = false
  torrents : state'.stores.torrents = state.stores.torrents
  infohash2id : ∀ infoHash torrentId, state'.stores.infohash2id.get? infoHash = some torrentId →
    torrentId = id ∨ state.stores.infohash2id.get? infoHash = some torrentId

lemma quiet_of_eq {id : UInt32} {label : LockSection} {state state' : AppState F}
    (hlabel : label.isOfTorrents = false) (ht : state'.stores.torrents = state.stores.torrents)
    (hi : state'.stores.infohash2id = state.stores.infohash2id) : Quiet id label state state' :=
  ⟨hlabel, ht, fun _ _ h => Or.inr (by rwa [← hi])⟩

lemma Quiet.ne_of_isOfTorrents {id : UInt32} {label label' : LockSection} {state state' : AppState F}
    (hq : Quiet id label state state') (hlabel : label'.isOfTorrents = true) : label ≠ label' := by
  rintro rfl
  rw [hq.label] at hlabel
  cases hlabel

lemma AnnounceCall.MapsTo.of_quiet {call : AnnounceCall F} {id : UInt32} {label : LockSection}
    {state state' : AppState F} (h : call.MapsTo id state) (hq : Quiet id label state state') :
    call.MapsTo id state' :=
  fun torrentId ht => (hq.infohash2id _ _ ht).elim (fun hid => hid) (h torrentId)

lemma AnnounceCall.MapsTo.of_eq {call : AnnounceCall F} {id : UInt32} {state state' : AppState F}
    (h : call.MapsTo id state) (heq : state'.stores.infohash2id = state.stores.infohash2id) :
    call.MapsTo id state' := by
  unfold AnnounceCall.MapsTo
  rw [heq]
  exact h

lemma Still.quiet {id : UInt32} {label : LockSection} {state state' : AppState F}
    (h : Still label state state') : Quiet id label state state' := by
  have hlabel := h.label
  refine quiet_of_eq ?_ h.torrents h.infohash2id
  cases label <;> first | rfl | exact absurd hlabel Bool.false_ne_true

section Guarantees

variable {R : AppState F → Prop} {id : UInt32}

lemma publish_guarantees [RateField F] (config : Config F) (env : Env F) (request : AnnounceRequest)
    (a : Accepted F) : (a.publish config env request).Guarantees R (Quiet id) (fun _ => True) := by
  unfold Accepted.publish
  refine Handler.Guarantees.bind (Q := fun _ => True)
    (Handler.guarantees_writeIf trivial fun _ _ => quiet_of_eq rfl rfl rfl) fun _ _ => ?_
  refine Handler.Guarantees.bind (Q := fun _ => True)
    (Handler.guarantees_write fun _ _ => ⟨quiet_of_eq rfl rfl rfl, trivial⟩) fun _ _ => ?_
  refine Handler.Guarantees.bind (Q := fun _ => True)
    (Handler.guarantees_write fun _ _ => ⟨quiet_of_eq rfl rfl rfl, trivial⟩) fun _ _ => ?_
  refine Handler.Guarantees.bind (Q := fun _ => True)
    (Handler.guarantees_writeIf trivial fun _ _ => quiet_of_eq rfl rfl rfl) fun _ _ => ?_
  refine Handler.Guarantees.bind (Q := fun _ => True)
    (Handler.guarantees_writeIf trivial fun _ _ => quiet_of_eq rfl rfl rfl) fun _ _ => ?_
  exact Handler.guarantees_writeIf trivial fun _ _ => quiet_of_eq rfl rfl rfl

end Guarantees

section Announce

variable [RateField F]

namespace AnnounceCall

variable (call : AnnounceCall F) (id : UInt32)

/-- What is left of an announce whose torrents section has succeeded. -/
def AcceptedAs (userId : UInt32)
    (handler : Handler LockSection (AppState F) (Except AnnounceError (Accepted F))) : Prop :=
  handler.Guarantees (fun _ => True) (Quiet id) fun result => ∃ a, result = .ok a ∧ a.userId = userId

/-- The torrents section comes next. -/
def AtSection (handler : Handler LockSection (AppState F) (Except AnnounceError (Accepted F))) : Prop :=
  ∃ isConnectable userId user next,
    handler = .lock (.announceTorrent id) (fun state => (announceTorrent call.config call.env
      call.request isConnectable userId user id state).1) next ∧
    userId ≠ .error .torrentNotFound ∧ user ≠ .error .torrentNotFound ∧
    ∀ state, match (announceTorrent call.config call.env call.request isConnectable userId user id
        state).2 with
      | .error e => next state = .ret (.error e)
      | .ok result => AcceptedAs id result.userId (next state)

def Refused (handler : Handler LockSection (AppState F) (Except AnnounceError (Accepted F))) : Prop :=
  ∃ e, handler = .ret (.error e) ∧ e ≠ .torrentNotFound

/-- An announce up to its torrents section. -/
def Looking (handler : Handler LockSection (AppState F) (Except AnnounceError (Accepted F))) : Prop :=
  handler.Until (call.MapsTo id) (Quiet id) fun handler => Refused handler ∨ call.AtSection id handler

end AnnounceCall

/-- An announce enters no section of the torrents before that of the torrent it looks up. -/
theorem AnnounceCall.looking_handler (call : AnnounceCall F) (id : UInt32) :
    call.Looking id call.handler := by
  unfold AnnounceCall.Looking AnnounceCall.handler announce
  refine Handler.Guarantees.bind_until ((validate_guarantees call.request).mono
    (fun _ _ _ => Still.quiet) fun _ h => h.ne_torrentNotFound) fun validated hvalidated => ?_
  cases validated with
  | error e =>
    exact Handler.until_of_end (Or.inl ⟨e, rfl, fun he => hvalidated (by rw [he])⟩)
  | ok validated =>
    obtain ⟨userAgent, passkey⟩ := validated
    refine Handler.Guarantees.bind_until ((lookUpUserId_guarantees passkey).mono
      (fun _ _ _ => Still.quiet) fun _ h => h) fun userId huserId => ?_
    refine Handler.Guarantees.bind_until ((lookUpUser_guarantees userId).mono
      (fun _ _ _ => Still.quiet) fun _ h => h) fun user huser => ?_
    have hlookUp : (lookUpTorrentId (F := F) call.request.queries.infoHash).Guarantees
        (call.MapsTo id) (Quiet id) (fun result => result ≠ .error .torrentNotFound ∧
          ∀ torrentId, result = .ok torrentId → torrentId = id) := by
      apply Handler.guarantees_read
      intro state hstate
      refine ⟨quiet_of_eq rfl rfl rfl, ?_⟩
      cases hget : state.stores.infohash2id.get? call.request.queries.infoHash with
      | none => simp
      | some torrentId => simpa using hstate torrentId hget
    refine Handler.Guarantees.bind_until hlookUp fun torrentId htorrentId => ?_
    cases torrentId with
    | error e =>
      refine Handler.Guarantees.bind_until (Q := fun _ => True) (Handler.guarantees_write
        fun state _ => ⟨quiet_of_eq rfl ?_ ?_, trivial⟩) fun _ _ => ?_
      · rw [stores_recordUnregistered]
      · rw [stores_recordUnregistered]
      · exact Handler.until_of_end (Or.inl ⟨e, rfl, fun he => htorrentId.1 (by rw [he])⟩)
    | ok torrentId =>
      have hid : torrentId = id := htorrentId.2 torrentId rfl
      subst hid
      refine Handler.Guarantees.bind_until ((checkConnectivity_guarantees call.config call.env
        call.request.clientIp call.request.queries.port).mono (fun _ _ _ => Still.quiet) fun _ h => h)
        fun isConnectable _ => ?_
      refine Handler.until_of_end (Or.inr ⟨isConnectable, userId, user, _, rfl, huserId, huser, ?_⟩)
      intro state
      unfold AnnounceCall.AcceptedAs
      cases hresult : (announceTorrent call.config call.env call.request isConnectable userId user
          torrentId state).2 with
      | error e =>
        simp only [hresult]
        rfl
      | ok result =>
        simp only [hresult]
        refine Handler.Guarantees.bind (Q := fun r => r = .ok result)
          (Handler.guarantees_pure rfl) fun r hr => ?_
        subst hr
        refine Handler.Guarantees.bind ((credit_guarantees result torrentId userAgent
          isConnectable).mono (fun _ _ _ => Still.quiet) fun _ h => h) fun a ha => ?_
        refine Handler.Guarantees.bind (publish_guarantees call.config call.env call.request a)
          fun _ _ => ?_
        exact Handler.guarantees_pure ⟨a, rfl, congrArg (fun a => a.userId) ha⟩

/-- The peers of a torrent after an announce was accepted. -/
def notePeer (present : Peer.Index → Bool) (entry : Peer.Index × AnnounceEvent) : Peer.Index → Bool :=
  Function.update present entry.1 (entry.2 ≠ .stopped)

omit [RateField F] in
lemma announcedPeer_isSome (config : Config F) (now : DateTime) (queries : Announce)
    (clientIp : IpAddr) (isConnectable hit : Bool) (old : Option Peer) :
    (announcedPeer config now queries clientIp isConnectable hit old).isSome =
      decide (queries.event ≠ .stopped) := by
  unfold announcedPeer
  by_cases hs : queries.event = .stopped
  · simp [hs]
  · cases old <;> simp [hs]

section Section

variable {config : Config F} {env : Env F} {request : AnnounceRequest} {isConnectable : Bool}
  {userId : Except AnnounceError UInt32} {user : Except AnnounceError (User F)} {id : UInt32}
  {state : AppState F} {torrent : Torrent}

/-- A torrent that is in the store is found. -/
lemma announceTorrent_error_ne {e : AnnounceError} (huserId : userId ≠ .error .torrentNotFound)
    (huser : user ≠ .error .torrentNotFound) (hstored : state.stores.torrents.get? id = some torrent)
    {state' : AppState F}
    (h : announceTorrent config env request isConnectable userId user id state = (state', .error e)) :
    e ≠ .torrentNotFound := by
  rcases announceTorrent_error_kind h with ⟨hmissing, -⟩ | rfl | rfl | ⟨hne, -⟩
  · rw [hmissing] at hstored
    simp at hstored
  · rintro rfl
    exact huserId rfl
  · rintro rfl
    exact huser rfl
  · exact hne

/-- An accepted announce inserts or removes one peer of the torrent. -/
lemma announceTorrent_stores_of_ok {result : TorrentResult F} {state' : AppState F}
    (hstored : state.stores.torrents.get? id = some torrent)
    (h : announceTorrent config env request isConnectable userId user id state =
      (state', .ok result)) :
    state'.stores.infohash2id = state.stores.infohash2id ∧
      ∃ torrent', state'.stores.torrents.get? id = some torrent' ∧
        torrent'.peers.contains = notePeer torrent.peers.contains
          (⟨result.userId, request.queries.peerId⟩, request.queries.event) := by
  obtain ⟨-, -, old, torrent', hsection, rfl⟩ := announceTorrent_ok h
  have hold : old = torrent := Option.some_inj.mp (hsection.stored.symm.trans hstored)
  subst hold
  obtain ⟨peers', hchange, htorrent', -⟩ := changeTorrent_ok hsection.change
  refine ⟨rfl, torrent', ?_, ?_⟩
  · simp only [IndexMap.get?_modify, if_true, hstored, Option.map_some]
  · rw [htorrent']
    exact (changePeer_alters hchange).contains.trans (by rw [announcedPeer_isSome]; rfl)

end Section

end Announce

section Upsert

variable (id : UInt32)

/-- All that is left are sections that leave the torrents alone. -/
def Settled (handler : Handler LockSection (AppState F) StatusCode) : Prop :=
  handler.Guarantees (fun _ => True) (Quiet id) fun _ => True

/-- The upsert has taken the torrent out, and is going to put it back with these peers. -/
def Carrying (peers : PeerStore) (handler : Handler LockSection (AppState F) StatusCode) : Prop :=
  ∃ act next, handler = .lock (.insertTorrent id) act next ∧
    ∀ state, (act state).stores.infohash2id = state.stores.infohash2id ∧
      (∃ torrent, (act state).stores.torrents.get? id = some torrent ∧ torrent.peers = peers) ∧
      Settled id (next state)

/-- The upsert is going to take the torrent out. -/
def Taking (handler : Handler LockSection (AppState F) StatusCode) : Prop :=
  ∃ act next, handler = .lock (.removeTorrent id) act next ∧
    ∀ state, (act state).stores.infohash2id = state.stores.infohash2id ∧
      ∀ torrent, state.stores.torrents.get? id = some torrent → Carrying id torrent.peers (next state)

lemma upsertTorrent_taking (torrent : APIInsertTorrent) (hid : torrent.id = id) :
    Taking id (upsertTorrent (F := F) torrent) ∨ Settled id (upsertTorrent (F := F) torrent) := by
  subst hid
  unfold upsertTorrent
  cases InfoHash.fromStr torrent.infoHash with
  | none => exact Or.inr (Handler.guarantees_pure trivial)
  | some infoHash =>
    refine Or.inl ⟨_, _, rfl, fun state => ⟨rfl, fun old hold => ?_⟩⟩
    refine ⟨_, _, rfl, fun state' => ⟨rfl, ⟨torrent.toTorrent old.peers, ?_, rfl⟩, ?_⟩⟩
    · simp only [hold, Option.elim_some, IndexMap.get?_insert, if_true]
    · intro state'' _
      refine ⟨⟨rfl, rfl, fun infoHash' torrentId ht => ?_⟩, trivial⟩
      simp only [IndexMap.get?_insert] at ht
      split_ifs at ht
      · exact Or.inl (Option.some_inj.mp ht).symm
      · exact Or.inr ht

end Upsert

section Serve

variable {ι κ : Type}

section World

variable (announces : ι → AnnounceCall F) (id : UInt32)
  (world : World LockSection (AppState F) (ServedResult F ι κ))

/-- The peer and the event of an announce with this result. -/
def AnnounceCall.entry (call : AnnounceCall F) :
    Except AnnounceError (Accepted F) → List (Peer.Index × AnnounceEvent)
  | .ok a => [(⟨a.userId, call.request.queries.peerId⟩, call.request.queries.event)]
  | .error _ => []

/-- The entry of an announce whose torrents section comes next. No section after it can change the
result, so what the announce would return on its own is what it is going to return. -/
def acceptedEntry : ι ⊕ κ → List (Peer.Index × AnnounceEvent)
  | .inl i =>
    if (world.handlers (.inl i)).label? = some (.announceTorrent id) then
      (announces i).entry ((world.handlers (.inl i)).run world.state).2
    else []
  | .inr _ => []

/-- The peers that are expected after a schedule: those from before and those that accepted
announces have inserted, without those that stopped announces have removed. -/
def expectedPeers [DecidableEq ι] [DecidableEq κ] (peers : PeerStore) (schedule : List (ι ⊕ κ)) :
    Peer.Index → Bool :=
  (log World.step (acceptedEntry announces id) world schedule).foldl notePeer peers.contains

/-- No announce or upsert looks for the torrent while an upsert has it. -/
def Guarded (x : ι ⊕ κ) : Prop :=
  (world.handlers x).label? = some (.announceTorrent id) ∨
      (world.handlers x).label? = some (.removeTorrent id) →
    ∀ y, (world.handlers y).label? ≠ some (.insertTorrent id)

instance [Fintype ι] [Fintype κ] (x : ι ⊕ κ) : Decidable (Guarded id world x) :=
  inferInstanceAs (Decidable (_ → _))

/-- Every announce finds the torrent. -/
def FindsTorrent : Prop := ∀ i, world.handlers (.inl i) ≠ .ret (.error .torrentNotFound)

/-- Once all have finished, the torrent has these peers. -/
def KeepsPeers (present : Peer.Index → Bool) : Prop :=
  (∀ x, ((world.handlers x).result?).isSome) →
    ∃ torrent, world.state.stores.torrents.get? id = some torrent ∧
      ∀ index, torrent.peers.contains index = present index

variable (present : Peer.Index → Bool)

/-- The peers are in the store and no upsert has taken the torrent out. -/
def InStore : Prop :=
  (∃ torrent, world.state.stores.torrents.get? id = some torrent ∧
    torrent.peers.contains = present) ∧
  ∀ x, (world.handlers x).label? ≠ some (.insertTorrent id)

/-- One upsert has taken the torrent out, and has the peers. -/
def InUpsert : Prop :=
  ∃ j peers, Carrying id peers (world.handlers (.inr j)) ∧ peers.contains = present ∧
    ∀ x, x ≠ .inr j → (world.handlers x).label? ≠ some (.insertTorrent id)

def Upserting (handler : Handler LockSection (AppState F) StatusCode) : Prop :=
  Taking id handler ∨ (∃ peers, Carrying id peers handler) ∨ Settled id handler

variable [RateField F]

def AnnounceCall.Serving (call : AnnounceCall F)
    (handler : Handler LockSection (AppState F) (Except AnnounceError (Accepted F))) : Prop :=
  call.Looking id handler ∨ ∃ userId, AnnounceCall.AcceptedAs id userId handler

/-- Where the handlers and the peers of the torrent are. -/
structure Tracked : Prop where
  mapsTo : ∀ i, (announces i).MapsTo id world.state
  serving : ∀ i, (announces i).Serving id (world.handlers (.inl i))
  upserting : ∀ j, Upserting id (world.handlers (.inr j))
  place : InStore id world present ∨ InUpsert id world present

end World

variable {announces : ι → AnnounceCall F} {id : UInt32} {present : Peer.Index → Bool}
  {world : World LockSection (AppState F) (ServedResult F ι κ)}

lemma InStore.of_guarded (hplace : InStore id world present ∨ InUpsert id world present)
    (h : ∀ y, (world.handlers y).label? ≠ some (.insertTorrent id)) : InStore id world present := by
  rcases hplace with hstore | ⟨j, peers, ⟨act, next, hlock, -⟩, -, -⟩
  · exact hstore
  · refine absurd ?_ (h (.inr j))
    rw [hlock]
    rfl

/-- The upsert that is about to put the torrent back is the one that has the peers. -/
lemma InUpsert.of_label (hplace : InStore id world present ∨ InUpsert id world present) {j : κ}
    (h : (world.handlers (.inr j)).label? = some (.insertTorrent id)) :
    ∃ peers, Carrying id peers (world.handlers (.inr j)) ∧ peers.contains = present ∧
      ∀ x, x ≠ .inr j → (world.handlers x).label? ≠ some (.insertTorrent id) := by
  rcases hplace with ⟨-, hnone⟩ | ⟨j', peers, hcarrying, hpeers, hothers⟩
  · exact absurd h (hnone (.inr j))
  · by_cases hj : Sum.inr j = (Sum.inr j' : ι ⊕ κ)
    · rw [Sum.inr.injEq] at hj
      subst hj
      exact ⟨peers, hcarrying, hpeers, hothers⟩
    · exact absurd h (hothers (.inr j) hj)

lemma Settled.label_ne {handler : Handler LockSection (AppState F) StatusCode}
    (h : Settled id handler) (state : AppState F) : handler.label? ≠ some (.insertTorrent id) := by
  cases handler with
  | ret result => simp [Handler.label?]
  | lock label act next =>
    intro heq
    rw [Handler.label?, Option.some_inj] at heq
    exact (h state trivial).1.ne_of_isOfTorrents rfl heq

lemma acceptedEntry_of_label_ne {i : ι}
    (h : (world.handlers (.inl i)).label? ≠ some (.announceTorrent id)) :
    acceptedEntry announces id world (.inl i) = [] := if_neg h

lemma AnnounceCall.Serving.label_ne [RateField F] {call : AnnounceCall F}
    {handler : Handler LockSection (AppState F) (Except AnnounceError (Accepted F))}
    (h : call.Serving id handler) {state : AppState F} (hstate : call.MapsTo id state) :
    handler.label? ≠ some (.insertTorrent id) := by
  cases handler with
  | ret result => simp [Handler.label?]
  | lock label act next =>
    have hquiet {state' : AppState F} (hq : Quiet id label state state') :
        (Handler.lock label act next).label? ≠ some (.insertTorrent id) := by
      intro heq
      rw [Handler.label?, Option.some_inj] at heq
      exact hq.ne_of_isOfTorrents rfl heq
    rcases h with ((⟨e, he, -⟩ | ⟨_, _, _, _, he, -⟩) | hlooking) | ⟨userId, haccepted⟩
    · cases he
    · rw [he]
      simp [Handler.label?]
    · exact hquiet (hlooking state hstate).1
    · exact hquiet (haccepted state trivial).1

lemma tracked_serve [RateField F] {upserts : κ → APIInsertTorrent} {state : AppState F} {torrent : Torrent}
    (hstored : state.stores.torrents.get? id = some torrent)
    (hannounces : ∀ i, (announces i).MapsTo id state) (hupserts : ∀ j, (upserts j).id = id) :
    Tracked announces id (serve announces upserts state) torrent.peers.contains := by
  have hupserting (j : κ) : Upserting id (upsertTorrent (F := F) (upserts j)) :=
    (upsertTorrent_taking id (upserts j) (hupserts j)).imp_right Or.inr
  refine ⟨hannounces, fun i => Or.inl ((announces i).looking_handler id), hupserting,
    Or.inl ⟨⟨torrent, hstored, rfl⟩, fun x => ?_⟩⟩
  cases x with
  | inl i =>
    exact AnnounceCall.Serving.label_ne (Or.inl ((announces i).looking_handler id)) (hannounces i)
  | inr j =>
    rcases upsertTorrent_taking (F := F) id (upserts j) (hupserts j) with ⟨act, next, hlock, -⟩ | hsettled
    · simp [serve, hlock, Handler.label?]
    · exact Settled.label_ne hsettled state

lemma Tracked.findsTorrent [RateField F] (h : Tracked announces id world present) :
    FindsTorrent world := by
  intro i hi
  have hserving := h.serving i
  rw [hi] at hserving
  rcases hserving with (⟨e, he, hne⟩ | ⟨_, _, _, _, he, -⟩) | ⟨userId, a, ha, -⟩
  · cases he
    exact hne rfl
  · cases he
  · cases ha

lemma Tracked.keepsPeers [RateField F] (h : Tracked announces id world present) :
    KeepsPeers id world present := by
  intro hfinished
  have hnone (x : ι ⊕ κ) : (world.handlers x).label? ≠ some (.insertTorrent id) := by
    have hx := hfinished x
    cases hhandler : world.handlers x with
    | ret result => simp [Handler.label?]
    | lock label act next => simp [hhandler, Handler.result?] at hx
  obtain ⟨⟨torrent, hstored, hpeers⟩, -⟩ := InStore.of_guarded h.place hnone
  exact ⟨torrent, hstored, fun index => congrFun hpeers index⟩

variable [DecidableEq ι] [DecidableEq κ]

/-- A section that leaves the torrents alone, of a handler that does not put the torrent back next. -/
lemma place_of_quiet (hplace : InStore id world present ∨ InUpsert id world present) {x : ι ⊕ κ}
    {label : LockSection} {act : AppState F → AppState F}
    {next : AppState F → Handler LockSection (AppState F) (ServedResult F ι κ x)}
    (hlock : world.handlers x = .lock label act next)
    (hq : Quiet id label world.state (world.step x).state)
    (hnext : ((world.step x).handlers x).label? ≠ some (.insertTorrent id)) :
    InStore id (world.step x) present ∨ InUpsert id (world.step x) present := by
  have hlabels (y : ι ⊕ κ) (hy : y ≠ x → (world.handlers y).label? ≠ some (.insertTorrent id)) :
      ((world.step x).handlers y).label? ≠ some (.insertTorrent id) := by
    by_cases hyx : y = x
    · rw [hyx]
      exact hnext
    · rw [World.step_handlers_of_ne world hyx]
      exact hy hyx
  rcases hplace with ⟨⟨torrent, hstored, hpeers⟩, hnone⟩ | ⟨j, peers, hcarrying, hpeers, hothers⟩
  · refine Or.inl ⟨⟨torrent, ?_, hpeers⟩, fun y => hlabels y fun _ => hnone y⟩
    rw [hq.torrents, hstored]
  · have hne : .inr j ≠ x := by
      rintro rfl
      obtain ⟨act', next', hlock', -⟩ := hcarrying
      rw [hlock, Handler.lock.injEq] at hlock'
      exact hq.ne_of_isOfTorrents rfl hlock'.1
    refine Or.inr ⟨j, peers, ?_, hpeers, fun y hy => hlabels y fun _ => hothers y hy⟩
    rw [World.step_handlers_of_ne world hne]
    exact hcarrying

variable [RateField F]

lemma Tracked.of_upsert (h : Tracked announces id world present) {j : κ}
    (hmaps : ∀ i, (announces i).MapsTo id (world.step (.inr j)).state)
    (hnext : Upserting id ((world.step (.inr j)).handlers (.inr j)))
    (hplace : InStore id (world.step (.inr j)) present ∨ InUpsert id (world.step (.inr j)) present) :
    Tracked announces id (world.step (.inr j)) present where
  mapsTo := hmaps
  serving i := by
    rw [World.step_handlers_of_ne world (by simp)]
    exact h.serving i
  upserting j' := by
    by_cases hj : j' = j
    · rw [hj]
      exact hnext
    · rw [World.step_handlers_of_ne world (by simpa using hj)]
      exact h.upserting j'
  place := hplace

/-- An upsert moves the peers from the store to itself and back. -/
lemma Tracked.step_upsert (h : Tracked announces id world present) {j : κ}
    (hguard : Guarded id world (.inr j)) : Tracked announces id (world.step (.inr j)) present := by
  rcases h.upserting j with ⟨act, next, hlock, htaking⟩ | ⟨peers, hcarrying⟩ | hsettled
  · have hnone := hguard (Or.inr (by rw [hlock]; rfl))
    obtain ⟨⟨torrent, hstored, hpeers⟩, -⟩ := InStore.of_guarded h.place hnone
    obtain ⟨hmaps, hnext⟩ := htaking world.state
    have hcarrying := hnext torrent hstored
    rw [← World.step_handlers_self hlock] at hcarrying
    rw [← World.step_state_of_lock hlock] at hmaps
    refine h.of_upsert (fun i => (h.mapsTo i).of_eq hmaps) (Or.inr (Or.inl ⟨_, hcarrying⟩))
      (Or.inr ⟨j, _, hcarrying, hpeers, fun x hx => ?_⟩)
    rw [World.step_handlers_of_ne world hx]
    exact hnone x
  · have hlabel : (world.handlers (.inr j)).label? = some (.insertTorrent id) := by
      obtain ⟨act, next, hlock, -⟩ := hcarrying
      rw [hlock]
      rfl
    obtain ⟨peers, ⟨act, next, hlock, hinsert⟩, hpeers, hothers⟩ := InUpsert.of_label h.place hlabel
    obtain ⟨hmaps, ⟨torrent, hstored, htorrent⟩, hsettled⟩ := hinsert world.state
    rw [← World.step_handlers_self hlock] at hsettled
    rw [← World.step_state_of_lock hlock] at hmaps hstored
    refine h.of_upsert (fun i => (h.mapsTo i).of_eq hmaps) (Or.inr (Or.inr hsettled))
      (Or.inl ⟨⟨torrent, hstored, by rw [htorrent, hpeers]⟩, fun x => ?_⟩)
    by_cases hx : x = .inr j
    · subst hx
      exact Settled.label_ne hsettled world.state
    · rw [World.step_handlers_of_ne world hx]
      exact hothers x hx
  · cases hlock : world.handlers (.inr j) with
    | ret result =>
      rw [World.step_of_ret hlock]
      exact h
    | lock label act next =>
      rw [hlock] at hsettled
      obtain ⟨hq, hnext⟩ := hsettled world.state trivial
      rw [← World.step_state_of_lock hlock] at hq
      rw [← World.step_handlers_self hlock] at hnext
      exact h.of_upsert (fun i => (h.mapsTo i).of_quiet hq) (Or.inr (Or.inr hnext))
        (place_of_quiet h.place hlock hq (Settled.label_ne hnext world.state))

lemma Tracked.of_announce {present' : Peer.Index → Bool} (h : Tracked announces id world present)
    {i : ι} (hmaps : ∀ i', (announces i').MapsTo id (world.step (.inl i)).state)
    (hnext : (announces i).Serving id ((world.step (.inl i)).handlers (.inl i)))
    (hplace : InStore id (world.step (.inl i)) present' ∨ InUpsert id (world.step (.inl i)) present') :
    Tracked announces id (world.step (.inl i)) present' where
  mapsTo := hmaps
  serving i' := by
    by_cases hi : i' = i
    · rw [hi]
      exact hnext
    · rw [World.step_handlers_of_ne world (by simpa using hi)]
      exact h.serving i'
  upserting j := by
    rw [World.step_handlers_of_ne world (by simp)]
    exact h.upserting j
  place := hplace

/-- Any other section of an announce. -/
lemma Tracked.of_quiet_announce (h : Tracked announces id world present) {i : ι} {label : LockSection}
    {act : AppState F → AppState F}
    {next : AppState F → Handler LockSection (AppState F) (Except AnnounceError (Accepted F))}
    (hlock : world.handlers (.inl i) = .lock label act next)
    (hq : Quiet id label world.state (act world.state))
    (hnext : (announces i).Serving id (next world.state)) :
    Tracked announces id (world.step (.inl i))
      ((acceptedEntry announces id world (.inl i)).foldl notePeer present) := by
  have hlabel : (world.handlers (.inl i)).label? ≠ some (.announceTorrent id) := by
    intro heq
    rw [hlock, Handler.label?, Option.some_inj] at heq
    exact hq.ne_of_isOfTorrents rfl heq
  rw [← World.step_state_of_lock hlock] at hq
  rw [← World.step_handlers_self hlock] at hnext
  have hmaps (i' : ι) : (announces i').MapsTo id (world.step (.inl i)).state :=
    (h.mapsTo i').of_quiet hq
  rw [acceptedEntry_of_label_ne hlabel]
  exact h.of_announce hmaps hnext (place_of_quiet h.place hlock hq (hnext.label_ne (hmaps i)))

/-- The torrents section of an announce, which finds the torrent in the store. -/
lemma Tracked.of_section (h : Tracked announces id world present) {i : ι}
    (hguard : Guarded id world (.inl i))
    (hsection : (announces i).AtSection id (world.handlers (.inl i))) :
    Tracked announces id (world.step (.inl i))
      ((acceptedEntry announces id world (.inl i)).foldl notePeer present) := by
  obtain ⟨isConnectable, userId, user, next, hlock, huserId, huser, hnext⟩ := hsection
  have hlabel : (world.handlers (.inl i)).label? = some (.announceTorrent id) := by
    rw [hlock]
    rfl
  have hnone := hguard (Or.inl hlabel)
  obtain ⟨⟨torrent, hstored, hpeers⟩, -⟩ := InStore.of_guarded h.place hnone
  have hstate := World.step_state_of_lock hlock
  have hself := World.step_handlers_self hlock
  have hentry : acceptedEntry announces id world (.inl i) =
      (announces i).entry ((next world.state).run (announceTorrent (announces i).config
        (announces i).env (announces i).request isConnectable userId user id world.state).1).2 :=
    (if_pos hlabel).trans (by rw [hlock]; rfl)
  have hlabels (hserving : (announces i).Serving id ((world.step (.inl i)).handlers (.inl i)))
      (x : ι ⊕ κ) : ((world.step (.inl i)).handlers x).label? ≠ some (.insertTorrent id) := by
    by_cases hx : x = .inl i
    · subst hx
      exact hserving.label_ne (h.mapsTo i)
    · rw [World.step_handlers_of_ne world hx]
      exact hnone x
  have hnext := hnext world.state
  generalize hafter : announceTorrent (announces i).config (announces i).env (announces i).request
    isConnectable userId user id world.state = after at *
  obtain ⟨state', result⟩ := after
  cases result with
  | error e =>
    simp only at hnext hstate
    obtain ⟨hstores, -⟩ := AnnounceCall.announceTorrent_stores_of_error hafter
    rw [hnext] at hself hentry
    rw [hentry]
    have hserving : (announces i).Serving id ((world.step (.inl i)).handlers (.inl i)) := by
      rw [hself]
      exact Or.inl (Or.inl ⟨e, rfl, announceTorrent_error_ne huserId huser hstored hafter⟩)
    refine h.of_announce (fun i' => (h.mapsTo i').of_eq ?_) hserving
      (Or.inl ⟨⟨torrent, ?_, hpeers⟩, hlabels hserving⟩)
    · rw [hstate, hstores]
    · rw [hstate, hstores, hstored]
  | ok result =>
    simp only at hnext hstate
    obtain ⟨hmaps, torrent', hstored', hpeers'⟩ := announceTorrent_stores_of_ok hstored hafter
    obtain ⟨a, ha, haccepted⟩ := hnext.run (fun _ _ _ _ _ => trivial) (s := state') trivial
    simp only [ha, AnnounceCall.entry, haccepted] at hentry
    rw [hentry]
    have hserving : (announces i).Serving id ((world.step (.inl i)).handlers (.inl i)) := by
      rw [hself]
      exact Or.inr ⟨result.userId, hnext⟩
    refine h.of_announce (fun i' => (h.mapsTo i').of_eq ?_) hserving
      (Or.inl ⟨⟨torrent', ?_, ?_⟩, hlabels hserving⟩)
    · rw [hstate, hmaps]
    · rw [hstate, hstored']
    · rw [hpeers', hpeers]
      rfl

lemma Tracked.step_announce (h : Tracked announces id world present) {i : ι}
    (hguard : Guarded id world (.inl i)) :
    Tracked announces id (world.step (.inl i))
      ((acceptedEntry announces id world (.inl i)).foldl notePeer present) := by
  cases hlock : world.handlers (.inl i) with
  | ret result =>
    rw [World.step_of_ret hlock, acceptedEntry_of_label_ne (by simp [hlock, Handler.label?])]
    exact h
  | lock label act next =>
    have hserving := h.serving i
    rw [hlock] at hserving
    rcases hserving with ((⟨e, he, -⟩ | hsection) | hlooking) | ⟨userId, haccepted⟩
    · cases he
    · rw [← hlock] at hsection
      exact h.of_section hguard hsection
    · obtain ⟨hq, hnext⟩ := hlooking world.state (h.mapsTo i)
      exact h.of_quiet_announce hlock hq (Or.inl hnext)
    · obtain ⟨hq, hnext⟩ := haccepted world.state trivial
      exact h.of_quiet_announce hlock hq (Or.inr ⟨userId, hnext⟩)

lemma Tracked.step (h : Tracked announces id world present) {x : ι ⊕ κ} (hguard : Guarded id world x) :
    Tracked announces id (world.step x) ((acceptedEntry announces id world x).foldl notePeer present) := by
  cases x with
  | inl i => exact h.step_announce hguard
  | inr j => exact h.step_upsert hguard

/-- An announce that is scheduled on its own, from a state in which nothing has begun, is a complete
operation. -/
theorem exists_schedule_perform (announces : ι → AnnounceCall F) (upserts : κ → APIInsertTorrent)
    (state : AppState F) (i : ι) : ∃ n,
      (run World.step (serve announces upserts state) (List.replicate n (.inl i))).state =
        perform (announces i).config state (.announce (announces i).env (announces i).request) := by
  obtain ⟨n, hn⟩ := World.exists_schedule_run (serve announces upserts state) (.inl i)
  refine ⟨n, ?_⟩
  rw [hn]
  rfl

/-- As long as no section that looks for the torrent runs while an upsert has it, any number of
announces and upserts find the torrent and keep its peers. -/
theorem swarm_kept (announces : ι → AnnounceCall F) (upserts : κ → APIInsertTorrent) (id : UInt32)
    (state : AppState F) (torrent : Torrent) (schedule : List (ι ⊕ κ))
    (hstored : state.stores.torrents.get? id = some torrent)
    (hannounces : ∀ i, (announces i).MapsTo id state) (hupserts : ∀ j, (upserts j).id = id)
    (hguarded : Along World.step (Guarded id) (serve announces upserts state) schedule) :
    FindsTorrent (run World.step (serve announces upserts state) schedule) ∧
      KeepsPeers id (run World.step (serve announces upserts state) schedule)
        (expectedPeers announces id (serve announces upserts state) torrent.peers schedule) := by
  have htracked : Tracked announces id (run World.step (serve announces upserts state) schedule)
      (expectedPeers announces id (serve announces upserts state) torrent.peers schedule) :=
    hguarded.invariant_log (P := fun present world => Tracked announces id world present)
      (fun present world x hguard h => h.step hguard) (tracked_serve hstored hannounces hupserts)
  exact ⟨htracked.findsTorrent, htracked.keepsPeers⟩

end Serve

/-- A leecher of torrent 1. -/
def Sample.announceCall : AnnounceCall ℝ := ⟨config, env 0, request 1 1 .started 5⟩

lemma Sample.announceCall_mapsTo : announceCall.MapsTo 1 (state none [1]) :=
  fun _ ht => (IndexMap.eq_of_get?_insert_empty ht).2

/-- One announce and two upserts of torrent 1, which has no peers yet. -/
noncomputable def Sample.world : World LockSection (AppState ℝ) (ServedResult ℝ Unit Bool) :=
  serve (fun _ => announceCall) (fun _ => torrentRequest) (state none [1])

/-- A whole upsert between two sections of the announce. -/
def Sample.guardedSchedule : List (Unit ⊕ Bool) :=
  List.replicate 5 (.inl ()) ++ List.replicate 3 (.inr true) ++ List.replicate 20 (.inl ())

theorem swarm_kept_sample :
    FindsTorrent (run World.step Sample.world Sample.guardedSchedule) ∧
      KeepsPeers 1 (run World.step Sample.world Sample.guardedSchedule)
        (expectedPeers (fun _ => Sample.announceCall) 1 Sample.world (Sample.torrent 1 .empty).peers
          Sample.guardedSchedule) :=
  swarm_kept (fun _ => Sample.announceCall) (fun _ => Sample.torrentRequest) 1 (Sample.state none [1])
    (Sample.torrent 1 .empty) Sample.guardedSchedule rfl (fun _ => Sample.announceCall_mapsTo)
    (fun _ => rfl) (by decide +kernel)

/-- An announce between the two sections of an upsert finds no torrent, and an upsert between them
loses the peers. -/
theorem swarm_lost :
    ¬ (∀ (announces : Unit → AnnounceCall ℝ) (upserts : Bool → APIInsertTorrent) id state torrent
        schedule, state.stores.torrents.get? id = some torrent →
      (∀ i, (announces i).MapsTo id state) → (∀ j, (upserts j).id = id) →
      FindsTorrent (run World.step (serve announces upserts state) schedule)) ∧
    ¬ (∀ (announces : Unit → AnnounceCall ℝ) (upserts : Bool → APIInsertTorrent) id state torrent
        schedule, state.stores.torrents.get? id = some torrent →
      (∀ i, (announces i).MapsTo id state) → (∀ j, (upserts j).id = id) →
      KeepsPeers id (run World.step (serve announces upserts state) schedule)
        (expectedPeers announces id (serve announces upserts state) torrent.peers schedule)) := by
  constructor
  · intro h
    have hfinds : FindsTorrent (run World.step Sample.world Sample.missingSchedule) :=
      h (fun _ => Sample.announceCall) (fun _ => Sample.torrentRequest) 1 (Sample.state none [1])
        (Sample.torrent 1 .empty) Sample.missingSchedule rfl (fun _ => Sample.announceCall_mapsTo)
        (fun _ => rfl)
    have hresult : (((run World.step Sample.world Sample.missingSchedule).handlers
        (.inl ())).result?).map Sample.error? = some (some .torrentNotFound) := by decide +kernel
    obtain ⟨result, hret, herror⟩ := Option.map_eq_some_iff.mp hresult
    apply hfinds ()
    rw [Handler.eq_ret_of_result? hret, Sample.eq_error_of_error? herror]
  · intro h
    have hkeeps : KeepsPeers 1 (run World.step Sample.world Sample.overlappingSchedule)
        (expectedPeers (fun _ => Sample.announceCall) 1 Sample.world (Sample.torrent 1 .empty).peers
          Sample.overlappingSchedule) :=
      h (fun _ => Sample.announceCall) (fun _ => Sample.torrentRequest) 1 (Sample.state none [1])
        (Sample.torrent 1 .empty) Sample.overlappingSchedule rfl
        (fun _ => Sample.announceCall_mapsTo) (fun _ => rfl)
    obtain ⟨torrent, hstored, hpeers⟩ := hkeeps (by decide +kernel)
    have hexpected : expectedPeers (fun _ => Sample.announceCall) 1 Sample.world
        (Sample.torrent 1 .empty).peers Sample.overlappingSchedule ⟨1, Sample.peerId 1⟩ = true := by
      decide +kernel
    have hlost : ((run World.step Sample.world Sample.overlappingSchedule).state.stores.torrents.get?
        1).map (fun torrent => torrent.peers.contains ⟨1, Sample.peerId 1⟩) = some false := by
      decide +kernel
    rw [hstored, Option.map_some, hpeers, hexpected] at hlost
    simp at hlost

end Unit3dAnnounce
