import Unit3dAnnounce.Model.Sample
import Unit3dAnnounce.Model.Service
import Unit3dAnnounce.Proofs.Lists
import Unit3dAnnounce.Proofs.Phases
import Unit3dAnnounce.Proofs.Sections
import Unit3dAnnounce.Proofs.Startup

/-!
# The rules of the site

Groups, benefits and blacklisted agents are rows of tables. Whatever is served meanwhile, the stores
hold what the tracker has last been told of each row, and an announce applies the rules that they hold
while it is served.
-/

namespace Unit3dAnnounce

open Machine

variable {F : Type}

/-- What the tables of the rules say. -/
structure Tables where
  groups : Int32 → Option Group
  featuredTorrents : Set UInt32
  freeleechTokens : Set FreeleechToken
  personalFreeleeches : Set UInt32
  blacklistedAgents : Set (List UInt8)

def GroupRow.toGroup (id : Int32) (row : GroupRow) : Group where
  id := id
  slug := row.slug
  downloadSlots := row.downloadSlots
  isImmune := row.isImmune
  downloadFactor := if row.isFreeleech then 0 else 100
  uploadFactor := if row.isDoubleUpload then 200 else 100

def Database.tables (db : Database) : Tables where
  groups id := (db.groups.get? id).map (GroupRow.toGroup id)
  featuredTorrents := {id | id ∈ db.featuredTorrents}
  freeleechTokens := {token | token ∈ db.freeleechTokens}
  personalFreeleeches := {id | id ∈ db.personalFreeleeches}
  blacklistedAgents := {peerIdPrefix | peerIdPrefix ∈ db.blacklistClients}

def Stores.tables (stores : Stores F) : Tables where
  groups := stores.groups.get?
  featuredTorrents := {id | stores.featuredTorrents.contains id = true}
  freeleechTokens := {token | stores.freeleechTokens.contains token = true}
  personalFreeleeches := {id | stores.personalFreeleeches.contains id = true}
  blacklistedAgents := {peerIdPrefix | stores.agentBlacklist.contains peerIdPrefix = true}

section Sets

variable {K : Type} [DecidableEq K]

lemma contains_insert_of_ne (m : IndexMap K Unit) {k k' : K} (h : k' ≠ k) :
    ((m.insert k ()).contains k' = true) = (m.contains k' = true) := by
  rw [IndexMap.contains_insert, or_iff_right h]

lemma contains_swapRemove_of_ne (m : IndexMap K Unit) {k k' : K} (h : k' ≠ k) :
    ((m.swapRemove k).contains k' = true) = (m.contains k' = true) := by
  rw [IndexMap.contains_swapRemove, and_iff_right h]

end Sets

/-- A row of the tables of the rules. -/
inductive RuleRow where
  | group (id : Int32)
  | featuredTorrent (torrentId : UInt32)
  | freeleechToken (token : FreeleechToken)
  | personalFreeleech (userId : UInt32)
  | blacklistedAgent (peerIdPrefix : List UInt8)
  deriving DecidableEq

/-- What is known of a row: the group, or whether there is such a row. -/
abbrev RuleRow.Value : RuleRow → Type
  | .group _ => Option Group
  | _ => Prop

def Tables.get (tables : Tables) : (row : RuleRow) → row.Value
  | .group id => tables.groups id
  | .featuredTorrent torrentId => torrentId ∈ tables.featuredTorrents
  | .freeleechToken token => token ∈ tables.freeleechTokens
  | .personalFreeleech userId => userId ∈ tables.personalFreeleeches
  | .blacklistedAgent peerIdPrefix => peerIdPrefix ∈ tables.blacklistedAgents

/-- The tables have what has last been told of each row, or what they had at the start where nothing has
been told. -/
def Tables.AreAsTold (start : Tables) (last : (row : RuleRow) → Option row.Value) (tables : Tables) :
    Prop :=
  ∀ row, tables.get row = (last row).getD (start.get row)

namespace TableRequest

/-- The row that a request tells of. -/
def row : TableRequest → RuleRow
  | .upsertGroup group => .group group.id
  | .destroyGroup group => .group group.id
  | .upsertFeaturedTorrent torrentId | .destroyFeaturedTorrent torrentId => .featuredTorrent torrentId
  | .upsertFreeleechToken token | .destroyFreeleechToken token => .freeleechToken token
  | .upsertPersonalFreeleech userId | .destroyPersonalFreeleech userId => .personalFreeleech userId
  | .upsertBlacklistedAgent peerIdPrefix | .destroyBlacklistedAgent peerIdPrefix =>
    .blacklistedAgent peerIdPrefix

/-- What it tells of the row. -/
def value : (request : TableRequest) → request.row.Value
  | .upsertGroup group => some group.toGroup
  | .destroyGroup _ => none
  | .upsertFeaturedTorrent _ => True
  | .destroyFeaturedTorrent _ => False
  | .upsertFreeleechToken _ => True
  | .destroyFreeleechToken _ => False
  | .upsertPersonalFreeleech _ => True
  | .destroyPersonalFreeleech _ => False
  | .upsertBlacklistedAgent _ => True
  | .destroyBlacklistedAgent _ => False

variable (request : TableRequest) (state : AppState F)

lemma get_handle_self : (request.handle state).stores.tables.get request.row = request.value := by
  cases request with
  | upsertGroup group => exact (IndexMap.get?_insert _ _ _ _).trans (if_pos rfl)
  | destroyGroup group => exact (IndexMap.get?_swapRemove _ _ _).trans (if_pos rfl)
  | upsertFeaturedTorrent torrentId => exact eq_true ((IndexMap.contains_insert _ _ _ _).mpr (Or.inl rfl))
  | destroyFeaturedTorrent torrentId =>
    exact eq_false fun hmem => ((IndexMap.contains_swapRemove _ _ _).mp hmem).1 rfl
  | upsertFreeleechToken token => exact eq_true ((IndexMap.contains_insert _ _ _ _).mpr (Or.inl rfl))
  | destroyFreeleechToken token =>
    exact eq_false fun hmem => ((IndexMap.contains_swapRemove _ _ _).mp hmem).1 rfl
  | upsertPersonalFreeleech userId => exact eq_true ((IndexMap.contains_insert _ _ _ _).mpr (Or.inl rfl))
  | destroyPersonalFreeleech userId =>
    exact eq_false fun hmem => ((IndexMap.contains_swapRemove _ _ _).mp hmem).1 rfl
  | upsertBlacklistedAgent peerIdPrefix =>
    exact eq_true ((IndexMap.contains_insert _ _ _ _).mpr (Or.inl rfl))
  | destroyBlacklistedAgent peerIdPrefix =>
    exact eq_false fun hmem => ((IndexMap.contains_swapRemove _ _ _).mp hmem).1 rfl

lemma get_handle_of_ne {row : RuleRow} (h : row ≠ request.row) :
    (request.handle state).stores.tables.get row = state.stores.tables.get row := by
  cases request with
  | upsertGroup group =>
    cases row with
    | group id =>
      exact (IndexMap.get?_insert _ _ _ _).trans (if_neg (mt (congrArg RuleRow.group) h))
    | _ => rfl
  | destroyGroup group =>
    cases row with
    | group id =>
      exact (IndexMap.get?_swapRemove _ _ _).trans (if_neg (mt (congrArg RuleRow.group) h))
    | _ => rfl
  | upsertFeaturedTorrent torrentId =>
    cases row with
    | featuredTorrent torrentId' =>
      exact contains_insert_of_ne _ (mt (congrArg RuleRow.featuredTorrent) h)
    | _ => rfl
  | destroyFeaturedTorrent torrentId =>
    cases row with
    | featuredTorrent torrentId' =>
      exact contains_swapRemove_of_ne _ (mt (congrArg RuleRow.featuredTorrent) h)
    | _ => rfl
  | upsertFreeleechToken token =>
    cases row with
    | freeleechToken token' => exact contains_insert_of_ne _ (mt (congrArg RuleRow.freeleechToken) h)
    | _ => rfl
  | destroyFreeleechToken token =>
    cases row with
    | freeleechToken token' => exact contains_swapRemove_of_ne _ (mt (congrArg RuleRow.freeleechToken) h)
    | _ => rfl
  | upsertPersonalFreeleech userId =>
    cases row with
    | personalFreeleech userId' =>
      exact contains_insert_of_ne _ (mt (congrArg RuleRow.personalFreeleech) h)
    | _ => rfl
  | destroyPersonalFreeleech userId =>
    cases row with
    | personalFreeleech userId' =>
      exact contains_swapRemove_of_ne _ (mt (congrArg RuleRow.personalFreeleech) h)
    | _ => rfl
  | upsertBlacklistedAgent peerIdPrefix =>
    cases row with
    | blacklistedAgent peerIdPrefix' =>
      exact contains_insert_of_ne _ (mt (congrArg RuleRow.blacklistedAgent) h)
    | _ => rfl
  | destroyBlacklistedAgent peerIdPrefix =>
    cases row with
    | blacklistedAgent peerIdPrefix' =>
      exact contains_swapRemove_of_ne _ (mt (congrArg RuleRow.blacklistedAgent) h)
    | _ => rfl

/-- The stores are changed in the row that a request tells of. -/
lemma get_handle : (request.handle state).stores.tables.get =
    Function.update state.stores.tables.get request.row request.value :=
  Function.eq_update_iff.mpr
    ⟨request.get_handle_self state, fun _ hrow => request.get_handle_of_ne state hrow⟩

end TableRequest

/-- What has last been told of each row. -/
def tell {ι : Type} (last : (row : RuleRow) → Option row.Value) :
    ServiceEvent F ι → (row : RuleRow) → Option row.Value
  | .request request => Function.update last request.row (some request.value)
  | _ => last

/-- A section that leaves the tables in memory alone. -/
def KeepsTables (_ : LockSection) (state state' : AppState F) : Prop :=
  state'.stores.tables = state.stores.tables

/-- Something holds of the tables and the torrents at some moment. -/
abbrev Moment := (Tables → TorrentStore → Prop) → Prop

/-- The user downloads the torrent for free. -/
def Tables.GrantsFreeleech (tables : Tables) (userId torrentId : UInt32) : Prop :=
  userId ∈ tables.personalFreeleeches ∨ ⟨userId, torrentId⟩ ∈ tables.freeleechTokens ∨
    torrentId ∈ tables.featuredTorrents

/-- The factor of an upload is the usual one or, for a featured torrent, a double upload. -/
def UploadRule (moment : Moment) (torrentId : UInt32) (usual factor : UInt8) : Prop :=
  (factor = 200 ∧ moment fun tables _ => torrentId ∈ tables.featuredTorrents) ∨
    (factor = usual ∧ moment fun tables _ => torrentId ∉ tables.featuredTorrents)

/-- The factor of a download is the usual one, unless there is a reason for a freeleech. -/
def DownloadRule (moment : Moment) (userId torrentId : UInt32) (usual factor : UInt8) : Prop :=
  (factor = 0 ∧ moment fun tables _ => tables.GrantsFreeleech userId torrentId) ∨
    (factor = usual ∧ (moment fun tables _ => userId ∉ tables.personalFreeleeches) ∧
      (moment fun tables _ => ⟨userId, torrentId⟩ ∉ tables.freeleechTokens) ∧
      moment fun tables _ => torrentId ∉ tables.featuredTorrents)

/-- The rules that an accepted announce follows, each of them as it is at some moment. -/
structure Accepted.Follows (moment : Moment) (config : Config F) (request : AnnounceRequest)
    (a : Accepted F) : Prop where
  agent : moment fun tables _ => ∀ peerIdPrefix ∈ tables.blacklistedAgents,
    ¬ peerIdPrefix <+: request.queries.peerId.bytes.toList
  enabled : a.group.slug ∉ ["banned", "validating", "disabled"]
  group : moment fun tables torrents => tables.groups a.user.groupId = some a.group ∧
    ∃ torrent, torrents.get? a.torrentId = some torrent ∧
      a.uploadFactor = effectiveUploadFactor config a.group torrent a.user ∧
      a.downloadFactor = effectiveDownloadFactor config a.group torrent a.user
  upload : ∃ factor, a.creditedUploadedDelta = creditedDelta factor a.change.uploadedDelta ∧
    UploadRule moment a.torrentId a.uploadFactor factor
  download : ∃ factor, a.creditedDownloadedDelta = creditedDelta factor a.change.downloadedDelta ∧
    DownloadRule moment a.userId a.torrentId a.downloadFactor factor

lemma Accepted.Follows.mono {moment moment' : Moment} {config : Config F} {request : AnnounceRequest}
    {a : Accepted F} (h : a.Follows moment config request)
    (hmoment : ∀ P, moment P → moment' P) : a.Follows moment' config request := by
  obtain ⟨up, hup, hupload⟩ := h.upload
  obtain ⟨down, hdown, hdownload⟩ := h.download
  refine ⟨hmoment _ h.agent, h.enabled, hmoment _ h.group, ⟨up, hup, ?_⟩, ⟨down, hdown, ?_⟩⟩
  · exact hupload.imp (And.imp_right (hmoment _)) (And.imp_right (hmoment _))
  · exact hdownload.imp (And.imp_right (hmoment _))
      (And.imp_right (And.imp (hmoment _) (And.imp (hmoment _) (hmoment _))))

section Guarantees

variable {R : AppState F → Prop}

/-- A moment at which the state satisfies a condition. -/
def within (R : AppState F → Prop) : Moment :=
  fun P => ∃ state, R state ∧ P state.stores.tables state.stores.torrents

lemma keepsTables_of_stores {label : LockSection} {state state' : AppState F}
    (h : state'.stores = state.stores) : KeepsTables label state state' := by
  rw [KeepsTables, h]

lemma validate_follows (request : AnnounceRequest) :
    (validate request).Guarantees R KeepsTables fun result => ∀ validated, result = .ok validated →
      within R fun tables _ => ∀ peerIdPrefix ∈ tables.blacklistedAgents,
        ¬ peerIdPrefix <+: request.queries.peerId.bytes.toList := by
  unfold validate
  cases validateHeaders request.headers with
  | error e => exact Handler.guarantees_pure (by simp)
  | ok userAgent =>
    refine Handler.Guarantees.bind (Q := fun isBlacklisted => isBlacklisted = false →
        within R fun tables _ => ∀ peerIdPrefix ∈ tables.blacklistedAgents,
          ¬ peerIdPrefix <+: request.queries.peerId.bytes.toList)
      (Handler.guarantees_read fun state hR => ⟨keepsTables_of_stores rfl, fun hnone =>
        ⟨state, hR, ?_⟩⟩)
      fun isBlacklisted hagents => ?_
    · intro peerIdPrefix hmem hprefix
      obtain ⟨⟨⟩, hget⟩ := IndexMap.contains_eq_true.mp hmem
      have hany := List.any_eq_false.mp hnone (peerIdPrefix, ()) (IndexMap.get?_eq_some.mp hget)
      exact hany (List.isPrefixOf_iff_prefix.mpr hprefix)
    · cases isBlacklisted with
      | true => exact Handler.guarantees_pure (by simp)
      | false =>
        refine Handler.Guarantees.ite (Handler.guarantees_pure (by simp)) ?_
        refine Handler.Guarantees.ite (Handler.guarantees_pure (by simp)) ?_
        refine Handler.Guarantees.bind (Q := fun _ => True)
          (Handler.guarantees_read fun state _ => ⟨keepsTables_of_stores rfl, trivial⟩)
          fun isPortBlacklisted _ => ?_
        refine Handler.Guarantees.ite (Handler.guarantees_pure (by simp)) ?_
        cases Passkey.fromStr request.passkey with
        | none => exact Handler.guarantees_pure (by simp)
        | some passkey => exact Handler.guarantees_pure fun _ _ => hagents rfl

/-- The reads behind a credit, in the order in which they are made. -/
lemma credit_follows (result : TorrentResult F) (torrentId : UInt32) (userAgent : Text)
    (isConnectable : Bool) :
    (credit result torrentId userAgent isConnectable).Guarantees R KeepsTables fun a =>
      a.toTorrentResult = result ∧ a.torrentId = torrentId ∧
      (∃ factor, a.creditedUploadedDelta = creditedDelta factor result.change.uploadedDelta ∧
        UploadRule (within R) torrentId result.uploadFactor factor) ∧
      ∃ factor, a.creditedDownloadedDelta = creditedDelta factor result.change.downloadedDelta ∧
        DownloadRule (within R) result.userId torrentId result.downloadFactor factor := by
  have hsame : ∀ label (state : AppState F), KeepsTables label state state :=
    fun label state => keepsTables_of_stores rfl
  unfold credit
  refine Handler.Guarantees.bind
    (Q := fun isPersonal =>
      (isPersonal = true → within R fun tables _ => tables.GrantsFreeleech result.userId torrentId) ∧
      (isPersonal = false → within R fun tables _ => result.userId ∉ tables.personalFreeleeches))
    (Handler.guarantees_read fun state hR => ⟨hsame _ state, fun h => ⟨state, hR, Or.inl h⟩,
      fun h => ⟨state, hR, fun hmem => Bool.false_ne_true (h.symm.trans hmem)⟩⟩)
    fun isPersonal hpersonal => ?_
  refine Handler.Guarantees.bind
    (Q := fun hasToken =>
      (hasToken = true → within R fun tables _ => tables.GrantsFreeleech result.userId torrentId) ∧
      (hasToken = false → (within R fun tables _ => result.userId ∉ tables.personalFreeleeches) ∧
        within R fun tables _ => ⟨result.userId, torrentId⟩ ∉ tables.freeleechTokens))
    (Handler.guarantees_orRead_of (fun h => ⟨fun _ => hpersonal.1 h, fun h' => by cases h'⟩)
      fun h state hR =>
      ⟨hsame _ state, fun h => ⟨state, hR, Or.inr (Or.inl h)⟩,
        fun h' => ⟨hpersonal.2 h, state, hR, fun hmem => Bool.false_ne_true (h'.symm.trans hmem)⟩⟩)
    fun hasToken htoken => ?_
  refine Handler.Guarantees.bind
    (Q := fun isFreeleech => DownloadRule (within R) result.userId torrentId result.downloadFactor
      (if isFreeleech then 0 else result.downloadFactor))
    (Handler.guarantees_orRead_of (fun h => Or.inl ⟨rfl, htoken.1 h⟩) fun h state hR =>
      ⟨hsame _ state, ?_⟩) fun isFreeleech hdownload => ?_
  · cases hfeatured : state.stores.featuredTorrents.contains torrentId with
    | true => exact Or.inl ⟨rfl, state, hR, Or.inr (Or.inr hfeatured)⟩
    | false =>
      exact Or.inr ⟨rfl, (htoken.2 h).1, (htoken.2 h).2, state, hR,
        fun hmem => Bool.false_ne_true (hfeatured.symm.trans hmem)⟩
  refine Handler.Guarantees.bind
    (Q := fun isFeatured => UploadRule (within R) torrentId result.uploadFactor
      (if isFeatured then 200 else result.uploadFactor))
    (Handler.guarantees_read fun state hR => ⟨hsame _ state, ?_⟩) fun isFeatured hupload => ?_
  · cases hfeatured : state.stores.featuredTorrents.contains torrentId with
    | true => exact Or.inl ⟨rfl, state, hR, hfeatured⟩
    | false =>
      exact Or.inr ⟨rfl, state, hR, fun hmem => Bool.false_ne_true (hfeatured.symm.trans hmem)⟩
  exact Handler.guarantees_pure ⟨rfl, rfl, ⟨_, rfl, hupload⟩, ⟨_, rfl, hdownload⟩⟩

variable [RateField F]

omit [RateField F] in
lemma admitUser_enabled {groups : IndexMap Int32 Group} {queries : Announce} {userId : UInt32}
    {user : User F} {group : Group}
    (h : admitUser groups queries (.ok userId) (.ok user) = .ok (userId, user, group)) :
    group.slug ∉ ["banned", "validating", "disabled"] := by
  simp only [admitUser, bind, Except.bind] at h
  split at h
  · simp at h
  · cases hget : groups.get? user.groupId with
    | none => simp [hget] at h
    | some group' =>
      simp only [hget] at h
      split at h
      · simp at h
      · next hslug =>
        simp only [Except.ok.injEq, Prod.mk.injEq, true_and] at h
        rw [← h]
        exact fun hmem => hslug (List.contains_iff_mem.mpr hmem)

lemma announceTorrent_follows {config : Config F} {env : Env F} {request : AnnounceRequest}
    {isConnectable : Bool} {userId : Except AnnounceError UInt32}
    {user : Except AnnounceError (User F)} {torrentId : UInt32} {state : AppState F} (hR : R state) :
    KeepsTables (.announceTorrent torrentId) state
      (announceTorrent config env request isConnectable userId user torrentId state).1 ∧
    ∀ result, (announceTorrent config env request isConnectable userId user torrentId state).2 =
      .ok result → result.group.slug ∉ ["banned", "validating", "disabled"] ∧
      within R fun tables torrents => tables.groups result.user.groupId = some result.group ∧
        ∃ torrent, torrents.get? torrentId = some torrent ∧
          result.uploadFactor = effectiveUploadFactor config result.group torrent result.user ∧
          result.downloadFactor = effectiveDownloadFactor config result.group torrent result.user := by
  generalize h : announceTorrent config env request isConnectable userId user torrentId state = after
  obtain ⟨state', outcome⟩ := after
  refine ⟨?_, fun result hresult => ?_⟩
  · cases announceTorrent_outcome h with
    | missing => rfl
    | deleted => exact keepsTables_of_stores (stores_recordUnregistered _ _ _ _)
    | refused => rfl
    | denied => rfl
    | changed => rfl
  · obtain rfl : outcome = .ok result := hresult
    obtain ⟨-, -, torrent, torrent', hsection, -⟩ := announceTorrent_ok h
    obtain ⟨peers', -, rfl, hrespond⟩ := changeTorrent_ok hsection.change
    refine ⟨admitUser_enabled hsection.admitted, state, hR, (admitUser_ok hsection.admitted).2.2,
      torrent, hsection.stored, ?_, ?_⟩
    · exact congrArg TorrentResult.uploadFactor hrespond
    · exact congrArg TorrentResult.downloadFactor hrespond

lemma announce_follows (config : Config F) (env : Env F) (request : AnnounceRequest) :
    (announce config env request).Guarantees R KeepsTables fun result =>
      ∀ a, result = .ok a → a.Follows (within R) config request := by
  have hsame : ∀ label (state : AppState F), KeepsTables label state state :=
    fun label state => keepsTables_of_stores rfl
  unfold announce
  refine Handler.Guarantees.bind (validate_follows request) fun validated hagent => ?_
  cases validated with
  | error e => exact Handler.guarantees_pure (by simp)
  | ok validated =>
    obtain ⟨userAgent, passkey⟩ := validated
    refine Handler.Guarantees.bind (Q := fun _ => True)
      (Handler.guarantees_read fun state _ => ⟨hsame _ state, trivial⟩) fun userId _ => ?_
    refine Handler.Guarantees.bind (Q := fun _ => True) ?_ fun user _ => ?_
    · cases userId with
      | error e => exact Handler.guarantees_pure trivial
      | ok userId => exact Handler.guarantees_read fun state _ => ⟨hsame _ state, trivial⟩
    refine Handler.Guarantees.bind (Q := fun _ => True)
      (Handler.guarantees_read fun state _ => ⟨hsame _ state, trivial⟩) fun torrentId _ => ?_
    cases torrentId with
    | error e =>
      refine Handler.Guarantees.bind (Q := fun _ => True) (Handler.guarantees_write fun state _ =>
        ⟨keepsTables_of_stores (stores_recordUnregistered _ _ _ _), trivial⟩) fun _ _ =>
          Handler.guarantees_pure (by simp)
    | ok torrentId =>
      refine Handler.Guarantees.bind (checkConnectivity_writes (fun _ _ _ => rfl) config env
        request.clientIp request.queries.port) fun isConnectable _ => ?_
      refine Handler.Guarantees.bind (Q := fun outcome => ∀ result, outcome = .ok result →
          result.group.slug ∉ ["banned", "validating", "disabled"] ∧
          within R fun tables torrents => tables.groups result.user.groupId = some result.group ∧
            ∃ torrent, torrents.get? torrentId = some torrent ∧
              result.uploadFactor = effectiveUploadFactor config result.group torrent result.user ∧
              result.downloadFactor = effectiveDownloadFactor config result.group torrent result.user)
        (fun state hR => announceTorrent_follows hR) fun outcome hgroup => ?_
      cases outcome with
      | error e => exact Handler.guarantees_pure (by simp)
      | ok result =>
        obtain ⟨henabled, hgroup⟩ := hgroup result rfl
        refine Handler.Guarantees.bind (credit_follows result torrentId userAgent isConnectable)
          fun a ha => ?_
        obtain ⟨rfl, rfl, hupload, hdownload⟩ := ha
        refine Handler.Guarantees.bind (Q := fun _ => True) ?_ fun _ _ =>
          Handler.guarantees_pure fun a' ha' => ?_
        · exact publish_writes (fun _ _ _ _ => rfl) config env request a
        · obtain rfl := Except.ok.inj ha'
          exact ⟨hagent _ rfl, henabled, hgroup, hupload, hdownload⟩

end Guarantees

section Service

variable [RateField F] {ι : Type} [DecidableEq ι] {calls : ι → ServiceCall F} {i : ι}

/-- What an accepted announce follows. Nothing is asked of the other calls. -/
def ServiceCall.Follows (moment : Moment) : (call : ServiceCall F) → call.Result → Prop
  | .announce call, .ok a => a.Follows moment call.config call.request
  | _, _ => True

omit [RateField F] in
lemma ServiceCall.Follows.mono {moment moment' : Moment} {call : ServiceCall F} {result : call.Result}
    (h : call.Follows moment result) (hmoment : ∀ P, moment P → moment' P) :
    call.Follows moment' result := by
  cases call with
  | announce call =>
    cases result with
    | ok a => exact Accepted.Follows.mono h hmoment
    | error e => trivial
  | upsertTorrent torrent => trivial
  | destroyTorrent torrent => trivial
  | upsertUser upsert => trivial
  | destroyUser user => trivial

lemma ServiceCall.follows_handler {R : AppState F → Prop} (call : ServiceCall F) :
    call.handler.Guarantees R KeepsTables (call.Follows (within R)) := by
  cases call with
  | announce call =>
    refine (announce_follows call.config call.env call.request).mono (fun _ _ _ h => h) fun result h => ?_
    cases result with
    | ok a => exact h a rfl
    | error e => trivial
  | upsertTorrent torrent =>
    exact (upsertTorrent_writes (fun _ _ _ _ => rfl) torrent).mono (fun _ _ _ h => h)
      fun _ _ => trivial
  | destroyTorrent torrent =>
    exact (destroyTorrent_writes (fun _ _ _ _ => rfl) torrent).mono (fun _ _ _ h => h)
      fun _ _ => trivial
  | upsertUser upsert =>
    exact (upsertUser_writes (fun _ _ _ _ => rfl) upsert.config upsert.user).mono (fun _ _ _ h => h)
      fun _ _ => trivial
  | destroyUser user =>
    exact (destroyUser_writes (fun _ _ _ _ => rfl) user).mono (fun _ _ _ h => h) fun _ _ => trivial

namespace Service

omit [RateField F] in
lemma follows_step {R : AppState F → Prop} {service : Service calls} {Q : (calls i).Result → Prop}
    (h : (service.world.handlers i).Guarantees R KeepsTables Q) (hR : R service.world.state)
    (event : ServiceEvent F ι) :
    ((service.step event).world.handlers i).Guarantees R KeepsTables Q := by
  cases event with
  | advance j => exact World.guarantees_step (w := service.world) h hR j
  | reap config activeNow inactiveNow => exact h
  | request request => exact h

/-- The stores are as told, and no call is going to change that. -/
structure HoldsTold (start : Tables) (last : (row : RuleRow) → Option row.Value)
    (service : Service calls) : Prop where
  tables : start.AreAsTold last service.world.state.stores.tables
  calls : ∀ i, (service.world.handlers i).Guarantees (fun _ => True) KeepsTables
    ((calls i).Follows (within fun _ : AppState F => True))

omit [RateField F] in
lemma HoldsTold.step {start : Tables} {last : (row : RuleRow) → Option row.Value}
    {service : Service calls} (h : service.HoldsTold start last) (event : ServiceEvent F ι) :
    (service.step event).HoldsTold start (tell last event) := by
  cases event with
  | advance i =>
    refine ⟨?_, fun j => follows_step (h.calls j) trivial (.advance i)⟩
    have hsame : (service.world.step i).state.stores.tables = service.world.state.stores.tables := by
      rcases World.state_step (w := service.world) (h.calls i) trivial with hstate | ⟨label, hkeeps⟩
      · exact congrArg (fun state => state.stores.tables) hstate
      · exact hkeeps
    rw [Service.step, hsame]
    exact h.tables
  | reap config activeNow inactiveNow =>
    refine ⟨?_, h.calls⟩
    simp only [Service.step]
    cases hr : reap config activeNow inactiveNow service.world.state with
    | none => exact h.tables
    | some state' =>
      obtain ⟨activeCutoff, inactiveCutoff, rfl⟩ := reap_some hr
      exact h.tables
  | request request =>
    refine ⟨fun row => ?_, h.calls⟩
    simp only [Service.step, request.get_handle]
    by_cases hrow : row = request.row
    · subst hrow
      rw [tell, Function.update_self, Function.update_self, Option.getD_some]
    · rw [tell, Function.update_of_ne hrow, Function.update_of_ne hrow]
      exact h.tables row

omit [RateField F] in
lemma HoldsTold.run {start : Tables} {last : (row : RuleRow) → Option row.Value}
    {service : Service calls} (h : service.HoldsTold start last) (events : List (ServiceEvent F ι)) :
    (run Service.step service events).HoldsTold start (events.foldl tell last) := by
  induction events generalizing service last with
  | nil => exact h
  | cons event events ih => exact ih (h.step event)

omit [RateField F] in
/-- A call that has not entered a section yet does not move by itself. -/
lemma handlers_run {events : List (ServiceEvent F ι)} (h : .advance i ∉ events)
    (service : Service calls) :
    (run Service.step service events).world.handlers i = service.world.handlers i := by
  induction events generalizing service with
  | nil => rfl
  | cons event events ih =>
    rw [List.mem_cons, not_or] at h
    rw [run_cons, ih h.2]
    cases event with
    | advance j => exact World.step_handlers_of_ne service.world fun heq => h.1 (by rw [heq])
    | reap config activeNow inactiveNow => rfl
    | request request => rfl

end Service

/-- An accepted announce follows rules that the stores have had while it was served. -/
theorem announces_follow_tables {stores : Stores F} {before events : List (ServiceEvent F ι)}
    (hbefore : .advance i ∉ before) {result : (calls i).Result}
    (hresult : (run Service.step (.atStartup calls stores) (before ++ events)).world.handlers i =
      .ret result) :
    (calls i).Follows (fun P => Sometime Service.step
      (run Service.step (.atStartup calls stores) before) events
      fun service => P service.world.state.stores.tables service.world.state.stores.torrents)
        result := by
  rw [run_append] at hresult
  generalize hstart : run Service.step (.atStartup calls stores) before = start at hresult ⊢
  -- the states in which the sections of the call are entered
  let R : AppState F → Prop := fun state =>
    Sometime Service.step start events fun service => service.world.state = state
  have hhandler : (start.world.handlers i).Guarantees R KeepsTables ((calls i).Follows (within R)) := by
    rw [← hstart, Service.handlers_run hbefore]
    exact (calls i).follows_handler
  have hreached : Along Service.step (fun service _ => R service.world.state) start events :=
    (along_sometime start events).mono fun service _ h =>
      h.mono fun _ _ heq => congrArg (fun service => service.world.state) heq
  have hend := (hreached.invariant
    (P := fun service => (service.world.handlers i).Guarantees R KeepsTables
      ((calls i).Follows (within R)))
    (fun service event hR h => Service.follows_step h hR event) hhandler).last
  rw [hresult] at hend
  refine ServiceCall.Follows.mono hend ?_
  rintro P ⟨_, ⟨done, hdone, rfl⟩, hP⟩
  exact ⟨done, hdone, hP⟩

end Service

namespace Sample

/-- An announce of the user. -/
def startingCall : Unit → ServiceCall ℝ :=
  fun _ => .announce ⟨config, env 60, request 1 2 .started 0⟩

/-- The torrent is featured just before the announce enters its sections, and no longer is when the
announce reads whether it is. -/
def featuredBefore : List (ServiceEvent ℝ Unit) := [.request (.upsertFeaturedTorrent 1)]

def unfeaturedMeanwhile : List (ServiceEvent ℝ Unit) :=
  List.replicate 6 (.advance ()) ++ [.request (.destroyFeaturedTorrent 1)] ++
    List.replicate 10 (.advance ())

end Sample

theorem announces_follow_tables_sample :
    ∃ (stores : Stores ℝ) (result : (Sample.startingCall ()).Result),
      Stores.new Sample.config Sample.databaseWithGroup = some stores ∧
      (run Service.step (.atStartup Sample.startingCall stores)
        (Sample.featuredBefore ++ Sample.unfeaturedMeanwhile)).world.handlers () = .ret result ∧
      (Sample.startingCall ()).Follows (fun P => Sometime Service.step
        (run Service.step (.atStartup Sample.startingCall stores) Sample.featuredBefore)
          Sample.unfeaturedMeanwhile
        fun service => P service.world.state.stores.tables service.world.state.stores.torrents)
          result := by
  have hloads : (Stores.new Sample.config Sample.databaseWithGroup).any (fun stores =>
      ((run Service.step (.atStartup Sample.startingCall stores)
        (Sample.featuredBefore ++ Sample.unfeaturedMeanwhile)).world.handlers ()).result?.any
          fun result => Sample.error? result = none) = true := by
    simp only [Stores.new, BlacklistedPortStore.default_eq]
    decide +kernel
  obtain ⟨stores, hload, hserved⟩ := (Option.any_eq_true _ _).mp hloads
  obtain ⟨result, hresult, -⟩ := (Option.any_eq_true _ _).mp hserved
  have hret := Handler.eq_ret_of_result? hresult
  exact ⟨stores, result, hload, hret, announces_follow_tables (by simp [Sample.featuredBefore]) hret⟩

end Unit3dAnnounce
