import Unit3dAnnounce.Model.Concurrency
import Unit3dAnnounce.Proofs.Announce

/-!
# The phases of an announce

An announce changes the stores of torrents and users and the queue of peers in at most one section
each, in this order. Everything that it does to the last two is settled in its torrents section.
-/

namespace Unit3dAnnounce

open Machine

variable {F : Type}

/-- The sections that write to the torrents, to the users or to the queue of peers. -/
def LockSection.isStill : LockSection → Bool
  | .announceTorrent _ | .removeTorrent _ | .insertTorrent _ | .deleteTorrent _ => false
  | .updateUser _ | .removeUser _ | .insertUser _ | .peersQueue => false
  | _ => true

/-- A section after which the stores, the connectivity cache apart, and the queue of peers are as they
were. -/
structure Still (label : LockSection) (state state' : AppState F) : Prop where
  label : label.isStill = true
  stores : ∃ ports, state'.stores = { state.stores with connectablePorts := ports }
  peers : state'.queues.peers = state.queues.peers

lemma still_of_stores {label : LockSection} {state state' : AppState F} (hlabel : label.isStill = true)
    (hstores : state'.stores = state.stores) (hpeers : state'.queues.peers = state.queues.peers) :
    Still label state state' := ⟨hlabel, ⟨state.stores.connectablePorts, hstores⟩, hpeers⟩

namespace Still

variable {label label' : LockSection} {state state' : AppState F} (h : Still label state state')
include h

lemma users : state'.stores.users = state.stores.users := by
  obtain ⟨ports, hstores⟩ := h.stores
  rw [hstores]

lemma torrents : state'.stores.torrents = state.stores.torrents := by
  obtain ⟨ports, hstores⟩ := h.stores
  rw [hstores]

lemma infohash2id : state'.stores.infohash2id = state.stores.infohash2id := by
  obtain ⟨ports, hstores⟩ := h.stores
  rw [hstores]

lemma passkey2id : state'.stores.passkey2id = state.stores.passkey2id := by
  obtain ⟨ports, hstores⟩ := h.stores
  rw [hstores]

lemma ne_of_isStill (hlabel : label'.isStill = false) : label ≠ label' := by
  rintro rfl
  rw [h.label] at hlabel
  cases hlabel

end Still

section Guarantees

variable {R : AppState F → Prop}

lemma stores_recordUnregistered (now : DateTime) (user : Except AnnounceError (User F))
    (infoHash : InfoHash) (state : AppState F) :
    (recordUnregistered now user infoHash state).stores = state.stores := by
  cases user <;> rfl

lemma peers_recordUnregistered (now : DateTime) (user : Except AnnounceError (User F))
    (infoHash : InfoHash) (state : AppState F) :
    (recordUnregistered now user infoHash state).queues.peers = state.queues.peers := by
  cases user <;> rfl

section Mappings

variable [RateField F] (config : Config F) (env : Env F) (request : AnnounceRequest)
  (isConnectable : Bool) (userId : Except AnnounceError UInt32) (user : Except AnnounceError (User F))
  (torrentId : UInt32) (state : AppState F)

lemma mappings_announceTorrent :
    (announceTorrent config env request isConnectable userId user torrentId state).1.stores.passkey2id =
      state.stores.passkey2id ∧
    (announceTorrent config env request isConnectable userId user torrentId state).1.stores.infohash2id =
      state.stores.infohash2id := by
  generalize h : announceTorrent config env request isConnectable userId user torrentId state = after
  obtain ⟨state', outcome⟩ := after
  cases announceTorrent_outcome h with
  | deleted =>
    rw [stores_recordUnregistered]
    exact ⟨rfl, rfl⟩
  | missing => exact ⟨rfl, rfl⟩
  | refused => exact ⟨rfl, rfl⟩
  | denied => exact ⟨rfl, rfl⟩
  | changed => exact ⟨rfl, rfl⟩

end Mappings

/-- What a validation may end with. -/
structure ValidatedBy (request : AnnounceRequest) (result : Except AnnounceError (Text × Passkey)) :
    Prop where
  ne_torrentNotFound : result ≠ .error .torrentNotFound
  ne_userNotFound : result ≠ .error .userNotFound
  passkey : ∀ userAgent passkey, result = .ok (userAgent, passkey) →
    Passkey.fromStr request.passkey = some passkey

lemma validate_guarantees (request : AnnounceRequest) :
    (validate request).Guarantees R Still (ValidatedBy request) := by
  unfold validate
  cases hheaders : validateHeaders request.headers with
  | error e =>
    apply Handler.guarantees_pure
    unfold validateHeaders at hheaders
    refine ⟨?_, ?_, by simp⟩
    · rintro ⟨rfl⟩
      repeat' split at hheaders
      all_goals simp at hheaders
    · rintro ⟨rfl⟩
      repeat' split at hheaders
      all_goals simp at hheaders
  | ok userAgent =>
    refine Handler.Guarantees.bind (Q := fun _ => True)
      (Handler.guarantees_read fun state _ => ⟨still_of_stores rfl rfl rfl, trivial⟩) ?_
    intro isBlacklisted _
    refine Handler.Guarantees.ite (Handler.guarantees_pure ⟨by simp, by simp, by simp⟩) ?_
    refine Handler.Guarantees.ite (Handler.guarantees_pure ⟨by simp, by simp, by simp⟩) ?_
    refine Handler.Guarantees.bind (Q := fun _ => True)
      (Handler.guarantees_read fun state _ => ⟨still_of_stores rfl rfl rfl, trivial⟩) ?_
    intro isPortBlacklisted _
    refine Handler.Guarantees.ite (Handler.guarantees_pure ⟨by simp, by simp, by simp⟩) ?_
    cases hpasskey : Passkey.fromStr request.passkey with
    | none => exact Handler.guarantees_pure ⟨by simp, by simp, by simp⟩
    | some passkey => exact Handler.guarantees_pure ⟨by simp, by simp, by simp [hpasskey]⟩

lemma lookUpUserId_guarantees (passkey : Passkey) : (lookUpUserId passkey).Guarantees R
    (Still (F := F)) (fun result => result ≠ .error .torrentNotFound) := by
  apply Handler.guarantees_read
  intro state _
  refine ⟨still_of_stores rfl rfl rfl, ?_⟩
  cases state.stores.passkey2id.get? passkey <;> simp

lemma lookUpUser_guarantees (userId : Except AnnounceError UInt32) : (lookUpUser userId).Guarantees R
    (Still (F := F)) (fun result => result ≠ .error .torrentNotFound) := by
  cases userId with
  | error e => exact Handler.guarantees_pure (by simp)
  | ok userId =>
    apply Handler.guarantees_read
    intro state _
    refine ⟨still_of_stores rfl rfl rfl, ?_⟩
    cases state.stores.users.get? userId <;> simp

lemma checkConnectivity_guarantees (config : Config F) (env : Env F) (ip : IpAddr) (port : UInt16) :
    (checkConnectivity config env ip port).Guarantees R Still (fun _ => True) := by
  unfold checkConnectivity
  refine Handler.Guarantees.ite ?_ (Handler.guarantees_pure trivial)
  refine Handler.Guarantees.bind (Q := fun _ => True)
    (Handler.guarantees_read fun state _ => ⟨still_of_stores rfl rfl rfl, trivial⟩) ?_
  intro connectablePort _
  simp only
  split
  · exact Handler.guarantees_pure trivial
  · refine Handler.Guarantees.bind (Q := fun _ => True)
      (Handler.guarantees_write fun state _ => ⟨⟨rfl, ⟨_, rfl⟩, rfl⟩, trivial⟩) ?_
    exact fun _ _ => Handler.guarantees_pure trivial

/-- Everything about an accepted announce but what it credits. -/
def Accepted.uncredited (a : Accepted F) : Accepted F :=
  { a with
    creditedUploadedDelta := 0
    creditedDownloadedDelta := 0 }

def TorrentResult.accepted (result : TorrentResult F) (torrentId : UInt32) (userAgent : Text)
    (isConnectable : Bool) : Accepted F :=
  { result with
    torrentId := torrentId
    userAgent := userAgent
    isConnectable := isConnectable
    creditedUploadedDelta := 0
    creditedDownloadedDelta := 0 }

lemma credit_guarantees (result : TorrentResult F) (torrentId : UInt32) (userAgent : Text)
    (isConnectable : Bool) : (credit result torrentId userAgent isConnectable).Guarantees R Still
      (fun a => a.uncredited = result.accepted torrentId userAgent isConnectable) := by
  unfold credit
  refine Handler.Guarantees.bind (Q := fun _ => True)
    (Handler.guarantees_read fun _ _ => ⟨still_of_stores rfl rfl rfl, trivial⟩)
    fun isPersonalFreeleech _ => ?_
  refine Handler.Guarantees.bind (Q := fun _ => True)
    (Handler.guarantees_orRead (fun _ => trivial) fun _ _ => still_of_stores rfl rfl rfl)
    fun hasToken _ => ?_
  refine Handler.Guarantees.bind (Q := fun _ => True)
    (Handler.guarantees_orRead (fun _ => trivial) fun _ _ => still_of_stores rfl rfl rfl)
    fun isFreeleech _ => ?_
  refine Handler.Guarantees.bind (Q := fun _ => True)
    (Handler.guarantees_read fun _ _ => ⟨still_of_stores rfl rfl rfl, trivial⟩) fun isFeatured _ => ?_
  exact Handler.guarantees_pure rfl

end Guarantees

/-- How far an announce has come: it looks up what it needs, its torrents section has refused it or
accepted it, its user has been updated, its peer has been queued. -/
inductive Phase (F : Type) where
  | looking
  | refused
  | accepted (a : Accepted F)
  | updated (a : Accepted F)
  | queued (a : Accepted F)

/-- The announce, once its torrents section has accepted it. -/
def Phase.announce? : Phase F → Option (Accepted F)
  | .looking | .refused => none
  | .accepted a | .updated a | .queued a => some a

/-- Nothing of interest is left to do. -/
def Finishing (a : Accepted F)
    (handler : Handler LockSection (AppState F) (Except AnnounceError (Accepted F))) : Prop :=
  handler.Guarantees (fun _ => True) Still fun result => ∃ a', result = .ok a' ∧ a'.uncredited = a

section Phases

variable [RateField F]

namespace AnnounceCall

variable (call : AnnounceCall F)

def queuePeer (a : Accepted F) (state : AppState F) : AppState F :=
  { state with
    queues.peers := state.queues.peers.upsert ⟨a.userId, a.torrentId, call.request.queries.peerId⟩
      (a.peerUpdate call.env call.request) }

def updateUser (a : Accepted F) (state : AppState F) : AppState F :=
  { state with stores.users := state.stores.users.modify a.userId (a.updateUser call.env) }

/-- The section of the queue of peers comes next. -/
def AtPeers (a : Accepted F)
    (handler : Handler LockSection (AppState F) (Except AnnounceError (Accepted F))) : Prop :=
  ∃ next, handler = .lock .peersQueue (call.queuePeer a) next ∧ ∀ state, Finishing a (next state)

/-- The section of the users comes next, or that of the queue where there is nothing for the user. -/
def AtUser (a : Accepted F)
    (handler : Handler LockSection (AppState F) (Except AnnounceError (Accepted F))) : Prop :=
  if a.touchesUser then
    ∃ next, handler = .lock (.updateUser a.userId) (call.updateUser a) next ∧
      ∀ state, call.AtPeers a (next state)
  else call.AtPeers a handler

/-- The credit is being computed. -/
def Crediting (a : Accepted F)
    (handler : Handler LockSection (AppState F) (Except AnnounceError (Accepted F))) : Prop :=
  handler.Until (fun _ => True) Still (call.AtUser a)

/-- The torrents section comes next. -/
def AtTorrent (handler : Handler LockSection (AppState F) (Except AnnounceError (Accepted F))) : Prop :=
  ∃ isConnectable userId user torrentId userAgent next,
    handler = .lock (.announceTorrent torrentId) (fun state => (announceTorrent call.config call.env
      call.request isConnectable userId user torrentId state).1) next ∧
    ∀ state,
      (∀ e, (announceTorrent call.config call.env call.request isConnectable userId user torrentId
        state).2 = .error e → next state = .ret (.error e)) ∧
      ∀ result, (announceTorrent call.config call.env call.request isConnectable userId user torrentId
        state).2 = .ok result →
          call.Crediting (result.accepted torrentId userAgent isConnectable) (next state)

def InPhase : Phase F →
    Handler LockSection (AppState F) (Except AnnounceError (Accepted F)) → Prop
  | .looking, handler => handler.Until (fun _ => True) Still
      fun handler => call.AtTorrent handler ∨ ∃ e, handler = .ret (.error e)
  | .refused, handler => ∃ e, handler = .ret (.error e)
  | .accepted a, handler => call.Crediting a handler
  | .updated a, handler => call.AtPeers a handler
  | .queued a, handler => Finishing a handler

/-- What one section of an announce does, and where it gets. -/
inductive Advances : Phase F → LockSection → AppState F → AppState F → Phase F → Prop
  | still {phase : Phase F} {label : LockSection} {state state' : AppState F}
      (hstill : Still label state state') : Advances phase label state state' phase
  | refuse {torrentId : UInt32} {state state' : AppState F} (hstores : state'.stores = state.stores)
      (hpeers : state'.queues.peers = state.queues.peers) :
    Advances .looking (.announceTorrent torrentId) state state' .refused
  | accept {state : AppState F} {torrent torrent' : Torrent} {a : Accepted F}
      (hsection : TorrentSection call.config call.env call.request a.isConnectable state a.torrentId
        torrent torrent' a.toTorrentResult) :
    Advances .looking (.announceTorrent a.torrentId) state
      { state with
        stores.torrents := state.stores.torrents.modify a.torrentId (fun _ => torrent') }
      (.accepted a)
  | update {a : Accepted F} (state : AppState F) (htouches : a.touchesUser = true) :
    Advances (.accepted a) (.updateUser a.userId) state (call.updateUser a state) (.updated a)
  | queue {a : Accepted F} {phase : Phase F} (state : AppState F)
      (hphase : phase = .updated a ∨ phase = .accepted a ∧ a.touchesUser = false) :
    Advances phase .peersQueue state (call.queuePeer a state) (.queued a)

variable {call} {phase : Phase F} {label : LockSection} {act : AppState F → AppState F}
  {next : AppState F → Handler LockSection (AppState F) (Except AnnounceError (Accepted F))}

lemma announceTorrent_stores_of_error {config : Config F} {env : Env F}
    {request : AnnounceRequest} {isConnectable : Bool} {userId : Except AnnounceError UInt32}
    {user : Except AnnounceError (User F)} {id : UInt32} {state state' : AppState F}
    {e : AnnounceError}
    (h : announceTorrent config env request isConnectable userId user id state = (state', .error e)) :
    state'.stores = state.stores ∧ state'.queues.peers = state.queues.peers := by
  rcases announceTorrent_error h with rfl | ⟨-, rfl⟩
  · exact ⟨rfl, rfl⟩
  · exact ⟨stores_recordUnregistered _ _ _ _, peers_recordUnregistered _ _ _ _⟩

omit [RateField F] in
lemma AtPeers.step {a : Accepted F} (h : call.AtPeers a (.lock label act next)) (state : AppState F) :
    label = .peersQueue ∧ act state = call.queuePeer a state ∧ Finishing a (next state) := by
  obtain ⟨next', hlock, hnext⟩ := h
  rw [Handler.lock.injEq] at hlock
  obtain ⟨rfl, rfl, rfl⟩ := hlock
  exact ⟨rfl, rfl, hnext state⟩

/-- The torrents section either refuses the announce or settles what is left of it. -/
lemma AtTorrent.step (h : call.AtTorrent (.lock label act next)) (state : AppState F) :
    ∃ phase', call.InPhase phase' (next state) ∧
      call.Advances .looking label state (act state) phase' := by
  obtain ⟨isConnectable, userId, user, torrentId, userAgent, next', hlock, hnext⟩ := h
  rw [Handler.lock.injEq] at hlock
  obtain ⟨rfl, rfl, rfl⟩ := hlock
  obtain ⟨herror, hok⟩ := hnext state
  generalize hafter : announceTorrent call.config call.env call.request isConnectable userId user
    torrentId state = after at herror hok
  obtain ⟨state', result⟩ := after
  simp only [hafter]
  cases result with
  | error e =>
    obtain ⟨hstores, hpeers⟩ := announceTorrent_stores_of_error hafter
    exact ⟨.refused, ⟨e, herror e rfl⟩, .refuse hstores hpeers⟩
  | ok result =>
    obtain ⟨-, -, torrent, torrent', hsection, rfl⟩ := announceTorrent_ok hafter
    exact ⟨.accepted (result.accepted torrentId userAgent isConnectable), hok result rfl,
      .accept (a := result.accepted torrentId userAgent isConnectable) hsection⟩

lemma AtUser.step {a : Accepted F} (h : call.AtUser a (.lock label act next)) (state : AppState F) :
    ∃ phase', call.InPhase phase' (next state) ∧
      call.Advances (.accepted a) label state (act state) phase' := by
  unfold AtUser at h
  split_ifs at h with htouches
  · obtain ⟨next', hlock, hnext⟩ := h
    rw [Handler.lock.injEq] at hlock
    obtain ⟨rfl, rfl, rfl⟩ := hlock
    exact ⟨.updated a, hnext state, .update state htouches⟩
  · obtain ⟨rfl, hact, hfinishing⟩ := h.step state
    rw [hact]
    exact ⟨.queued a, hfinishing, .queue state (Or.inr ⟨rfl, by simpa using htouches⟩)⟩

/-- Every section of an announce, whatever came between it and the one before. -/
theorem InPhase.step (h : call.InPhase phase (.lock label act next)) (state : AppState F) :
    ∃ phase', call.InPhase phase' (next state) ∧
      call.Advances phase label state (act state) phase' := by
  cases phase with
  | looking =>
    rcases h with (hsection | ⟨e, he⟩) | hlooking
    · exact AtTorrent.step hsection state
    · cases he
    · obtain ⟨hstill, hnext⟩ := hlooking state trivial
      exact ⟨.looking, hnext, .still hstill⟩
  | refused =>
    obtain ⟨e, he⟩ := h
    cases he
  | accepted a =>
    rcases h with huser | hcrediting
    · exact AtUser.step huser state
    · obtain ⟨hstill, hnext⟩ := hcrediting state trivial
      exact ⟨.accepted a, hnext, .still hstill⟩
  | updated a =>
    obtain ⟨rfl, hact, hfinishing⟩ := AtPeers.step h state
    rw [hact]
    exact ⟨.queued a, hfinishing, .queue state (Or.inl rfl)⟩
  | queued a =>
    obtain ⟨hstill, hnext⟩ := h state trivial
    exact ⟨.queued a, hnext, .still hstill⟩

omit [RateField F] in
variable (call) in
/-- What publishing leaves to do once the peer is queued. -/
lemma finish_guarantees (a : Accepted F) :
    Handler.Guarantees (fun _ => True) (Still (F := F)) (fun _ => True) (do
    Handler.write .historiesQueue fun state =>
      { state with
        queues.histories := state.queues.histories.upsert ⟨a.userId, a.torrentId⟩
          (a.historyUpdate call.config call.env call.request) }
    Handler.writeIf a.touchesUserQueue .usersQueue fun state =>
      { state with queues.users := state.queues.users.upsert ⟨a.userId⟩ a.userUpdate }
    Handler.writeIf a.touchesTorrentQueue .torrentsQueue fun state =>
      { state with queues.torrents := state.queues.torrents.upsert ⟨a.torrentId⟩ a.torrentUpdate }
    Handler.writeIf call.config.isAnnounceLoggingEnabled .announcesQueue fun state =>
      { state with
        queues.announces := state.queues.announces ++ [a.announceUpdate call.env call.request] }) := by
  refine Handler.Guarantees.bind (Q := fun _ => True)
    (Handler.guarantees_write fun _ _ => ⟨still_of_stores rfl rfl rfl, trivial⟩) fun _ _ => ?_
  refine Handler.Guarantees.bind (Q := fun _ => True)
    (Handler.guarantees_writeIf trivial fun _ _ => still_of_stores rfl rfl rfl) fun _ _ => ?_
  refine Handler.Guarantees.bind (Q := fun _ => True)
    (Handler.guarantees_writeIf trivial fun _ _ => still_of_stores rfl rfl rfl) fun _ _ => ?_
  exact Handler.guarantees_writeIf trivial fun _ _ => still_of_stores rfl rfl rfl

/-- Publishing updates the user, where there is anything to tell them, and queues the peer. -/
lemma atUser_publish (a : Accepted F) : call.AtUser a.uncredited (do
    a.publish call.config call.env call.request
    return .ok a) := by
  unfold AtUser Accepted.publish
  have hsame : a.uncredited.touchesUser = a.touchesUser := rfl
  have hreturn (u : Unit) (_ : True) :
      Finishing a.uncredited ((fun _ => Handler.ret (.ok a)) u) := ⟨a, rfl, rfl⟩
  have hfinishing := (finish_guarantees call a).bind hreturn
  rw [hsame]
  cases a.touchesUser with
  | true => exact ⟨_, rfl, fun _ => ⟨_, rfl, fun _ => hfinishing⟩⟩
  | false => exact ⟨_, rfl, fun _ => hfinishing⟩

/-- An announce starts by looking. -/
theorem inPhase_handler : call.InPhase .looking call.handler := by
  unfold handler announce
  refine Handler.Guarantees.bind_until (validate_guarantees call.request) fun validated _ => ?_
  cases validated with
  | error e => exact Handler.until_of_end (Or.inr ⟨e, rfl⟩)
  | ok validated =>
    obtain ⟨userAgent, passkey⟩ := validated
    refine Handler.Guarantees.bind_until (lookUpUserId_guarantees passkey) fun userId _ => ?_
    refine Handler.Guarantees.bind_until (lookUpUser_guarantees userId) fun user _ => ?_
    refine Handler.Guarantees.bind_until (Q := fun _ => True) (Handler.guarantees_read
      fun state _ => ⟨still_of_stores rfl rfl rfl, trivial⟩) fun torrentId _ => ?_
    cases torrentId with
    | error e =>
      refine Handler.Guarantees.bind_until (Q := fun _ => True) (Handler.guarantees_write fun state _ =>
        ⟨still_of_stores rfl (stores_recordUnregistered _ _ _ _) (peers_recordUnregistered _ _ _ _),
          trivial⟩) fun _ _ => ?_
      exact Handler.until_of_end (Or.inr ⟨e, rfl⟩)
    | ok torrentId =>
      refine Handler.Guarantees.bind_until (checkConnectivity_guarantees call.config call.env
        call.request.clientIp call.request.queries.port) fun isConnectable _ => ?_
      refine Handler.until_of_end (Or.inl ⟨isConnectable, userId, user, torrentId, userAgent, _, rfl,
        fun state => ⟨fun e herror => ?_, fun result hok => ?_⟩⟩)
      · simp only [herror]
        rfl
      · simp only [hok]
        refine Handler.Guarantees.bind_until (Q := fun r => r = .ok result)
          (Handler.guarantees_pure rfl) fun r hr => ?_
        subst hr
        refine Handler.Guarantees.bind_until
          (credit_guarantees result torrentId userAgent isConnectable) fun a ha => ?_
        rw [← ha]
        exact Handler.until_of_end (atUser_publish a)

lemma InPhase.ret {result : Except AnnounceError (Accepted F)} (h : call.InPhase phase (.ret result)) :
    ((phase = .looking ∨ phase = .refused) ∧ ∃ e, result = .error e) ∨
      ∃ a a', phase = .queued a ∧ result = .ok a' ∧ a'.uncredited = a := by
  cases phase with
  | looking =>
    rcases h with ⟨_, _, _, _, _, _, hlock, -⟩ | ⟨e, he⟩
    · cases hlock
    · rw [Handler.ret.injEq] at he
      exact Or.inl ⟨Or.inl rfl, e, he⟩
  | refused =>
    obtain ⟨e, he⟩ := h
    rw [Handler.ret.injEq] at he
    exact Or.inl ⟨Or.inr rfl, e, he⟩
  | accepted a =>
    have huser : call.AtUser a (.ret result) := h
    unfold AtUser at huser
    split_ifs at huser
    · obtain ⟨next, hlock, -⟩ := huser
      cases hlock
    · obtain ⟨next, hlock, -⟩ := huser
      cases hlock
  | updated a =>
    obtain ⟨next, hlock, -⟩ := h
    cases hlock
  | queued a =>
    obtain ⟨a', hresult, ha⟩ := h
    exact Or.inr ⟨a, a', rfl, hresult, ha⟩

end AnnounceCall

namespace AnnounceCall

variable {call : AnnounceCall F} {phase : Phase F}

lemma Advances.announce? {label : LockSection} {state state' : AppState F} {phase' : Phase F}
    (h : call.Advances phase label state state' phase') {a : Accepted F}
    (ha : phase.announce? = some a) : phase'.announce? = some a := by
  cases h with
  | still hstill => exact ha
  | refuse hstores hpeers => simp [Phase.announce?] at ha
  | accept hsection => simp [Phase.announce?] at ha
  | update state htouches => exact ha
  | queue state hphase =>
    rcases hphase with rfl | ⟨rfl, -⟩
    · exact ha
    · exact ha

/-- Once an announce has been accepted, nothing can change what it returns, its credit apart. -/
lemma InPhase.run {handler : Handler LockSection (AppState F) (Except AnnounceError (Accepted F))}
    (h : call.InPhase phase handler) {a : Accepted F} (ha : phase.announce? = some a)
    (state : AppState F) : ∃ a', (handler.run state).2 = .ok a' ∧ a'.uncredited = a := by
  induction handler generalizing phase state with
  | ret result =>
    rcases h.ret with ⟨rfl | rfl, -⟩ | ⟨a', a'', rfl, hresult, ha'⟩
    · simp [Phase.announce?] at ha
    · simp [Phase.announce?] at ha
    · simp only [Phase.announce?, Option.some_inj] at ha
      subst ha
      exact ⟨a'', hresult, ha'⟩
  | lock label act next ih =>
    obtain ⟨phase', hphase', hadvances⟩ := h.step state
    exact ih state hphase' (hadvances.announce? ha) (act state)

end AnnounceCall

section Serve

variable {ι : Type}

/-- Each announce is in its phase. -/
def InPhases (announces : ι → AnnounceCall F) (phase : ι → Phase F)
    (world : World LockSection (AppState F) (fun _ : ι => Except AnnounceError (Accepted F))) : Prop :=
  ∀ i, (announces i).InPhase (phase i) (world.handlers i)

variable {announces : ι → AnnounceCall F} {phase : ι → Phase F}
  {world : World LockSection (AppState F) (fun _ : ι => Except AnnounceError (Accepted F))}

lemma inPhases_serveAnnounces (announces : ι → AnnounceCall F) (state : AppState F) :
    InPhases announces (fun _ => .looking) (serveAnnounces announces state) :=
  fun _ => AnnounceCall.inPhase_handler

/-- The next section of an announce takes it, and no other one, to its next phase. -/
theorem InPhases.step [DecidableEq ι] (h : InPhases announces phase world) (i : ι) :
    (world.handlers i).label? = none ∧ world.step i = world ∨
      ∃ label phase', (world.handlers i).label? = some label ∧
        (announces i).Advances (phase i) label world.state (world.step i).state phase' ∧
        InPhases announces (Function.update phase i phase') (world.step i) := by
  cases hlock : world.handlers i with
  | ret result => exact Or.inl ⟨rfl, World.step_of_ret hlock⟩
  | lock label act next =>
    have hphase := h i
    rw [hlock] at hphase
    obtain ⟨phase', hphase', hadvances⟩ := hphase.step world.state
    rw [← World.step_state_of_lock hlock] at hadvances
    rw [← World.step_handlers_self hlock] at hphase'
    refine Or.inr ⟨label, phase', rfl, hadvances, fun i' => ?_⟩
    by_cases hi : i' = i
    · subst hi
      rw [Function.update_self]
      exact hphase'
    · rw [Function.update_of_ne hi, World.step_handlers_of_ne world hi]
      exact h i'

end Serve

end Phases

end Unit3dAnnounce
