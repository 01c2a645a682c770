import Unit3dAnnounce.Model.Api

/-!
# What the sections of a handler touch

Many invariants only look at a part of the state. A handler keeps them if they survive any change to
what its sections write.
-/

namespace Unit3dAnnounce

open Machine

variable {F : Type} {R : AppState F → Prop} {G : LockSection → AppState F → AppState F → Prop}

/-- A section that leaves a condition alone. -/
def Keeps (P : AppState F → Prop) (_ : LockSection) (state state' : AppState F) : Prop :=
  P state → P state'

section Reads

variable (hG : ∀ label state, G label state state)
include hG

lemma validate_reads (request : AnnounceRequest) :
    (validate request).Guarantees R G fun result => ∀ userAgent passkey,
      result = .ok (userAgent, passkey) → Passkey.fromStr request.passkey = some passkey := by
  unfold validate
  cases validateHeaders request.headers with
  | error e => exact Handler.guarantees_pure (by simp)
  | ok userAgent =>
    refine Handler.Guarantees.bind (Q := fun _ => True)
      (Handler.guarantees_read fun state _ => ⟨hG _ state, trivial⟩) fun isBlacklisted _ => ?_
    refine Handler.Guarantees.ite (Handler.guarantees_pure (by simp)) ?_
    refine Handler.Guarantees.ite (Handler.guarantees_pure (by simp)) ?_
    refine Handler.Guarantees.bind (Q := fun _ => True)
      (Handler.guarantees_read fun state _ => ⟨hG _ state, trivial⟩) fun isPortBlacklisted _ => ?_
    refine Handler.Guarantees.ite (Handler.guarantees_pure (by simp)) ?_
    cases hpasskey : Passkey.fromStr request.passkey with
    | none => exact Handler.guarantees_pure (by simp)
    | some passkey => exact Handler.guarantees_pure (by simp)

lemma lookUpUser_reads (userId : Except AnnounceError UInt32) :
    (lookUpUser userId).Guarantees R G fun _ => True := by
  cases userId with
  | error e => exact Handler.guarantees_pure trivial
  | ok userId => exact Handler.guarantees_read fun state _ => ⟨hG _ state, trivial⟩

lemma lookUpTorrentId_reads (infoHash : InfoHash) : (lookUpTorrentId infoHash).Guarantees R G
    fun result => ∀ e, result = .error e → e = .infoHashNotFound := by
  refine Handler.guarantees_read fun state _ => ⟨hG _ state, fun e he => ?_⟩
  cases hget : state.stores.infohash2id.get? infoHash with
  | none =>
    rw [hget] at he
    exact (Except.error.inj he).symm
  | some torrentId =>
    rw [hget] at he
    cases he

lemma lookUpTorrentId_finds {T : UInt32 → Prop} (infoHash : InfoHash) (hT : ∀ state, R state →
      ∀ torrentId, state.stores.infohash2id.get? infoHash = some torrentId → T torrentId) :
    (lookUpTorrentId infoHash).Guarantees R G
      fun result => ∀ torrentId, result = .ok torrentId → T torrentId := by
  refine Handler.guarantees_read fun state hR => ⟨hG _ state, fun torrentId hok => ?_⟩
  cases hget : state.stores.infohash2id.get? infoHash with
  | none =>
    rw [hget] at hok
    cases hok
  | some torrentId' =>
    rw [hget] at hok
    obtain rfl := Except.ok.inj hok
    exact hT state hR torrentId' hget

lemma credit_reads (result : TorrentResult F) (torrentId : UInt32) (userAgent : Text)
    (isConnectable : Bool) :
    (credit result torrentId userAgent isConnectable).Guarantees R G
      fun a => a.toTorrentResult = result ∧ a.torrentId = torrentId := by
  unfold credit
  refine Handler.Guarantees.bind (Q := fun _ => True)
    (Handler.guarantees_read fun state _ => ⟨hG _ state, trivial⟩) fun isPersonalFreeleech _ => ?_
  refine Handler.Guarantees.bind (Q := fun _ => True)
    (Handler.guarantees_orRead (fun _ => trivial) fun state _ => hG _ state) fun hasToken _ => ?_
  refine Handler.Guarantees.bind (Q := fun _ => True)
    (Handler.guarantees_orRead (fun _ => trivial) fun state _ => hG _ state) fun isFreeleech _ => ?_
  refine Handler.Guarantees.bind (Q := fun _ => True)
    (Handler.guarantees_read fun state _ => ⟨hG _ state, trivial⟩) fun isFeatured _ => ?_
  exact Handler.guarantees_pure ⟨rfl, rfl⟩

end Reads

lemma checkConnectivity_writes
    (hG : ∀ label (state : AppState F) ports,
      G label state { state with stores.connectablePorts := ports })
    (config : Config F) (env : Env F) (ip : IpAddr) (port : UInt16) :
    (checkConnectivity config env ip port).Guarantees R G fun _ => True := by
  unfold checkConnectivity
  refine Handler.Guarantees.ite ?_ (Handler.guarantees_pure trivial)
  refine Handler.Guarantees.bind (Q := fun _ => True)
    (Handler.guarantees_read fun state _ => ⟨hG _ state state.stores.connectablePorts, trivial⟩)
    fun connectablePort _ => ?_
  simp only
  split
  · exact Handler.guarantees_pure trivial
  · exact Handler.Guarantees.bind (Q := fun _ => True)
      (Handler.guarantees_write fun state _ => ⟨hG _ state _, trivial⟩)
      fun _ _ => Handler.guarantees_pure trivial

lemma publish_writes [RateField F]
    (hG : ∀ label (state : AppState F) queues users,
      G label state { state with queues := queues, stores.users := users })
    (config : Config F) (env : Env F) (request : AnnounceRequest) (a : Accepted F) :
    (a.publish config env request).Guarantees R G fun _ => True := by
  unfold Accepted.publish
  refine Handler.Guarantees.bind (Q := fun _ => True)
    (Handler.guarantees_writeIf trivial fun state _ => hG _ state state.queues _) fun _ _ => ?_
  refine Handler.Guarantees.bind (Q := fun _ => True)
    (Handler.guarantees_write fun state _ => ⟨hG _ state _ state.stores.users, trivial⟩) fun _ _ => ?_
  refine Handler.Guarantees.bind (Q := fun _ => True)
    (Handler.guarantees_write fun state _ => ⟨hG _ state _ state.stores.users, trivial⟩) fun _ _ => ?_
  refine Handler.Guarantees.bind (Q := fun _ => True)
    (Handler.guarantees_writeIf trivial fun state _ => hG _ state _ state.stores.users) fun _ _ => ?_
  refine Handler.Guarantees.bind (Q := fun _ => True)
    (Handler.guarantees_writeIf trivial fun state _ => hG _ state _ state.stores.users) fun _ _ => ?_
  exact Handler.guarantees_writeIf trivial fun state _ => hG _ state _ state.stores.users

/-- An announce is accepted by its torrents section, with the ids that it has looked up. Its other
sections write at most to the queues, the users and the connectivity cache. -/
lemma announce_guarantees [RateField F] {config : Config F} {env : Env F} {request : AnnounceRequest}
    {P : Except AnnounceError UInt32 → Prop} {T : UInt32 → Prop} {Q : UInt32 → TorrentResult F → Prop}
    (hG : ∀ label (state : AppState F) queues users ports, G label state
      { state with queues := queues, stores.users := users, stores.connectablePorts := ports })
    (hid : ∀ passkey, Passkey.fromStr request.passkey = some passkey → ∀ state, R state →
      P ((state.stores.passkey2id.get? passkey).elim (.error .passkeyNotFound) .ok))
    (htorrentId : ∀ state, R state → ∀ torrentId,
      state.stores.infohash2id.get? request.queries.infoHash = some torrentId → T torrentId)
    (htorrents : ∀ isConnectable userId user torrentId state, R state → P userId → T torrentId →
      G (.announceTorrent torrentId) state
        (announceTorrent config env request isConnectable userId user torrentId state).1 ∧
      ∀ result, (announceTorrent config env request isConnectable userId user torrentId state).2 =
        .ok result → Q torrentId result) :
    (announce config env request).Guarantees R G
      fun outcome => ∀ a, outcome = .ok a → Q a.torrentId a.toTorrentResult := by
  have hsame : ∀ label (state : AppState F), G label state state :=
    fun label state => hG label state state.queues state.stores.users state.stores.connectablePorts
  unfold announce
  refine Handler.Guarantees.bind (validate_reads hsame request) fun validated hpasskey => ?_
  cases validated with
  | error e => exact Handler.guarantees_pure (by simp)
  | ok validated =>
    obtain ⟨userAgent, passkey⟩ := validated
    refine Handler.Guarantees.bind (Q := P) (Handler.guarantees_read fun state hR => ⟨hsame _ state, ?_⟩)
      fun userId huserId => ?_
    · have hP := hid passkey (hpasskey userAgent passkey rfl) state hR
      cases hget : state.stores.passkey2id.get? passkey with
      | none =>
        rw [hget] at hP
        exact hP
      | some userId =>
        rw [hget] at hP
        exact hP
    · refine Handler.Guarantees.bind (lookUpUser_reads hsame userId) fun user _ => ?_
      refine Handler.Guarantees.bind (lookUpTorrentId_finds hsame _ htorrentId)
        fun torrentId hid => ?_
      cases torrentId with
      | error e =>
        refine Handler.Guarantees.bind (Q := fun _ => True)
          (Handler.guarantees_write fun state _ => ⟨?_, trivial⟩)
          fun _ _ => Handler.guarantees_pure (by simp)
        cases user with
        | error e => exact hsame _ state
        | ok user => exact hG _ state _ state.stores.users state.stores.connectablePorts
      | ok torrentId =>
        refine Handler.Guarantees.bind (checkConnectivity_writes (fun label state ports =>
          hG label state state.queues state.stores.users ports) _ _ _ _) fun isConnectable _ => ?_
        refine Handler.Guarantees.bind (Q := fun outcome => ∀ result, outcome = Except.ok result →
            Q torrentId result)
          (fun state hR => htorrents isConnectable userId user torrentId state hR huserId
            (hid torrentId rfl))
          fun outcome hQ => ?_
        cases outcome with
        | error e => exact Handler.guarantees_pure (by simp)
        | ok result =>
          refine Handler.Guarantees.bind (credit_reads hsame result torrentId userAgent isConnectable)
            fun a ha => ?_
          obtain ⟨rfl, rfl⟩ := ha
          refine Handler.Guarantees.bind (publish_writes (fun label state queues users =>
            hG label state queues users state.stores.connectablePorts) config env request a)
            fun _ _ => Handler.guarantees_pure fun a' ha' => ?_
          obtain rfl := Except.ok.inj ha'
          exact hQ _ rfl

section Torrents

variable (hG : ∀ label (state : AppState F) torrents infoHashes,
  G label state { state with stores.torrents := torrents, stores.infohash2id := infoHashes })
include hG

lemma upsertTorrent_writes (torrent : APIInsertTorrent) :
    (upsertTorrent torrent).Guarantees R G fun _ => True := by
  unfold upsertTorrent
  cases InfoHash.fromStr torrent.infoHash with
  | none => exact Handler.guarantees_pure trivial
  | some infoHash =>
    refine fun state _ => ⟨hG _ state _ state.stores.infohash2id, fun state _ => ?_⟩
    refine ⟨hG _ state _ state.stores.infohash2id, fun state _ => ?_⟩
    exact ⟨hG _ state state.stores.torrents _, trivial⟩

lemma destroyTorrent_writes (torrent : APIRemoveTorrent) :
    (destroyTorrent torrent).Guarantees R G fun _ => True := by
  intro state _
  refine ⟨?_, trivial⟩
  simp only
  split_ifs
  · exact hG _ state _ state.stores.infohash2id
  · exact hG _ state state.stores.torrents state.stores.infohash2id

end Torrents

section Users

variable (hG : ∀ label (state : AppState F) users passkeys,
  G label state { state with stores.users := users, stores.passkey2id := passkeys })
include hG

lemma upsertUser_writes (config : Config F) (user : APIInsertUser) :
    (upsertUser config user).Guarantees R G fun _ => True := by
  have hinsert : ∀ passkey rates, (upsertUser.insertUser user passkey rates).Guarantees R G
      fun _ => True := fun passkey rates state _ => ⟨hG _ state _ state.stores.passkey2id,
        fun state _ => ⟨hG _ state state.stores.users _, trivial⟩⟩
  unfold upsertUser
  cases Passkey.fromStr user.passkey with
  | none => exact Handler.guarantees_pure trivial
  | some passkey =>
    refine Handler.Guarantees.bind (Q := fun _ => True)
      (fun state _ => ⟨hG _ state _ state.stores.passkey2id, trivial⟩) fun oldUser _ => ?_
    cases user.newPasskey with
    | none => exact hinsert passkey _
    | some text =>
      simp only
      cases Passkey.fromStr text with
      | none => exact Handler.guarantees_pure trivial
      | some newPasskey =>
        exact Handler.Guarantees.bind (Q := fun _ => True)
          (fun state _ => ⟨hG _ state state.stores.users _, trivial⟩) fun _ _ => hinsert newPasskey _

lemma destroyUser_writes (user : APIRemoveUser) :
    (destroyUser user).Guarantees R G fun _ => True := by
  unfold destroyUser
  cases Passkey.fromStr user.passkey with
  | none => exact Handler.guarantees_pure trivial
  | some passkey =>
    exact fun state _ => ⟨hG _ state _ state.stores.passkey2id,
      fun state _ => ⟨hG _ state state.stores.users _, trivial⟩⟩

end Users

end Unit3dAnnounce
