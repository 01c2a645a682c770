import Unit3dAnnounce.Machine.Handler
import Unit3dAnnounce.Model.Queue
import Unit3dAnnounce.Model.Response

/-!
# Announces

An announce looks up the user and the torrent, changes one peer of the torrent under the
torrents lock, and then publishes what it changed to the user and to the queues. Each lock is
a section of the handler. What the clock, the network and the random generator answer is in
`Env`.
-/

namespace Unit3dAnnounce

open Machine

structure Announce where
  infoHash : InfoHash
  peerId : PeerId
  port : UInt16
  uploaded : UInt64
  downloaded : UInt64
  left : UInt64
  event : AnnounceEvent
  numwant : UInt64
  corrupt : Option UInt64
  key : Option Text

/-- Header names in lower case, with their values. -/
abbrev HeaderMap := List (String × List UInt8)

def HeaderMap.containsKey (headers : HeaderMap) (name : String) : Bool :=
  headers.any (fun header => header.1 == name)

def HeaderMap.get? (headers : HeaderMap) (name : String) : Option (List UInt8) := headers.lookup name

/-- `HeaderValue::to_str`. -/
def headerToStr (value : List UInt8) : Option Text :=
  if value.all (fun b => (0x20 ≤ b && b < 0x7F) || b == 0x09) then some value else none

structure AnnounceRequest where
  passkey : Text
  queries : Announce
  headers : HeaderMap
  clientIp : IpAddr

structure Env (F : Type) where
  /-- `Utc::now()` of the announce. -/
  now : DateTime
  /-- `Utc::now()` of the connectivity check. -/
  connectivityNow : DateTime
  /-- Whether the peer's socket accepts a connection in time. -/
  accepts : Bool
  /-- `SystemTime::now()` of the rate limits. -/
  systemTime : F
  /-- `choose_multiple` of the seeds, and of the leeches. -/
  chooseSeeds : List (Peer.Index × Peer) → ℕ → List (Peer.Index × Peer)
  chooseLeeches : List (Peer.Index × Peer) → ℕ → List (Peer.Index × Peer)
  /-- A number between `announceMin` and `announceMax`. -/
  interval : UInt32

/-- The sections that handlers enter, each under the lock of one store or queue. -/
inductive LockSection where
  | agentBlacklist
  | portBlacklist
  | passkey2id
  | lookUpUser (id : UInt32)
  | updateUser (id : UInt32)
  | removeUser (id : UInt32)
  | insertUser (id : UInt32)
  | infohash2id
  | connectablePorts
  | announceTorrent (id : UInt32)
  | removeTorrent (id : UInt32)
  | insertTorrent (id : UInt32)
  | deleteTorrent (id : UInt32)
  | personalFreeleeches
  | freeleechTokens
  | featuredTorrents
  | unregisteredInfoHashesQueue
  | peersQueue
  | historiesQueue
  | usersQueue
  | torrentsQueue
  | announcesQueue
deriving DecidableEq

def userAgentBlacklist : List Text :=
  ["mozilla", "browser", "chrome", "safari", "applewebkit", "opera", "links", "lynx", "bot",
    "unknown"].map ascii

/-- The user agent of a request whose headers are acceptable. -/
def validateHeaders (headers : HeaderMap) : Except AnnounceError Text :=
  if headers.containsKey "accept-language" || headers.containsKey "referer" ||
      headers.containsKey "accept-charset" || headers.containsKey "want-digest" then
    .error .abnormalAccess
  else
    match (headers.get? "user-agent").bind headerToStr with
    | none => .error .invalidUserAgent
    | some userAgent =>
      if userAgent.length > 64 then .error .userAgentTooLong else .ok userAgent

variable {F : Type}

def validate (request : AnnounceRequest) :
    Handler LockSection (AppState F) (Except AnnounceError (Text × Passkey)) :=
  match validateHeaders request.headers with
  | .error e => return .error e
  | .ok userAgent => do
    let isBlacklisted ← Handler.read .agentBlacklist fun state =>
      state.stores.agentBlacklist.entries.any fun client =>
        client.1.isPrefixOf request.queries.peerId.bytes.toList
    if isBlacklisted then return .error .blacklistedClient
    else if userAgentBlacklist.any userAgent.toAsciiLowercase.contains then
      return .error .notAClient
    else
      let isPortBlacklisted ← Handler.read .portBlacklist fun state =>
        state.stores.portBlacklist.contains request.queries.port
      if isPortBlacklisted && request.queries.event ≠ .stopped then
        return .error (.blacklistedPort request.queries.port)
      else
        match Passkey.fromStr request.passkey with
        | none => return .error .invalidPasskey
        | some passkey => return .ok (userAgent, passkey)

def lookUpUserId (passkey : Passkey) :
    Handler LockSection (AppState F) (Except AnnounceError UInt32) :=
  Handler.read .passkey2id fun state =>
    match state.stores.passkey2id.get? passkey with
    | none => .error .passkeyNotFound
    | some userId => .ok userId

def lookUpUser (userId : Except AnnounceError UInt32) :
    Handler LockSection (AppState F) (Except AnnounceError (User F)) :=
  match userId with
  | .error _ => return .error .userNotFound
  | .ok userId => Handler.read (.lookUpUser userId) fun state =>
    match state.stores.users.get? userId with
    | none => .error .userNotFound
    | some user => .ok user

def lookUpTorrentId (infoHash : InfoHash) :
    Handler LockSection (AppState F) (Except AnnounceError UInt32) :=
  Handler.read .infohash2id fun state =>
    match state.stores.infohash2id.get? infoHash with
    | none => .error .infoHashNotFound
    | some torrentId => .ok torrentId

/-- Counts an announce of a known user for a torrent that is not registered. -/
def recordUnregistered (now : DateTime) (user : Except AnnounceError (User F)) (infoHash : InfoHash)
    (state : AppState F) : AppState F :=
  match user with
  | .error _ => state
  | .ok user =>
    { state with
      queues.unregisteredInfoHashes := state.queues.unregisteredInfoHashes.upsert
        ⟨infoHash, user.id⟩ ⟨now, now⟩ }

/-- Whether the client can be reached, remembered for `connectivityCheckInterval` seconds. -/
def checkConnectivity (config : Config F) (env : Env F) (ip : IpAddr) (port : UInt16) :
    Handler LockSection (AppState F) Bool :=
  if config.isConnectivityCheckEnabled then do
    let socket : SocketAddr := ⟨ip, port⟩
    let connectablePort ← Handler.read .connectablePorts fun state =>
      state.stores.connectablePorts.get? socket
    let cached := connectablePort.filter fun connectablePort =>
      (checkedAddSigned connectablePort.updatedAt (seconds config.connectivityCheckInterval)).any
        fun cachedUntil => decide (env.connectivityNow < cachedUntil)
    match cached with
    | some connectablePort => return connectablePort.connectable
    | none =>
      let connectable := env.accepts
      Handler.write .connectablePorts fun state =>
        { state with
          stores.connectablePorts := state.stores.connectablePorts.upsert socket
            (fun _ => ⟨connectable, env.connectivityNow⟩) ⟨connectable, env.connectivityNow⟩ }
      return connectable
  else return false

/-- What an announce does to the peers of a torrent. -/
structure PeerChange where
  uploadedDelta : UInt64
  downloadedDelta : UInt64
  seederDelta : ℤ
  leecherDelta : ℤ
  timesCompletedDelta : UInt32
  isVisible : Bool
  isActiveAfterStop : Bool
  warnings : WarningCollection

/-- Whether a user has more active peers than allowed. The count is a `u16`, as the limit is. -/
def exceedsPeerLimit (maxPeers : UInt16) (userId : UInt32) :
    UInt16 → List (Peer.Index × Peer) → Bool
  | _, [] => false
  | peerCount, (index, peer) :: rest =>
    if index.userId = userId && peer.isActive then
      let peerCount := peerCount + 1
      if peerCount > maxPeers then true else exceedsPeerLimit maxPeers userId peerCount rest
    else exceedsPeerLimit maxPeers userId peerCount rest

/-- An existing peer after another announce. Its visibility is decided when it already is
a seeder or leecher as announced, but is still as active and visible as before. -/
def Peer.renew (config : Config F) (now : DateTime) (queries : Announce) (clientIp : IpAddr)
    (isConnectable hasHitDownloadSlotLimit : Bool) (peer : Peer) : Peer :=
  let peer := { peer with
    ipAddress := clientIp
    port := queries.port
    isSeeder := queries.left = 0
    isConnectable := isConnectable }
  let peer := { peer with
    isVisible := peer.isIncludedInLeechList config || !hasHitDownloadSlotLimit }
  { peer with
    isActive := true
    hasSentCompleted := peer.hasSentCompleted || queries.event = .completed
    updatedAt := now
    uploaded := queries.uploaded
    downloaded := queries.downloaded }

/-- A peer at its first announce. -/
def Peer.fresh (now : DateTime) (queries : Announce) (clientIp : IpAddr)
    (isConnectable hasHitDownloadSlotLimit : Bool) : Peer where
  ipAddress := clientIp
  port := queries.port
  isSeeder := queries.left = 0
  isActive := true
  isVisible := !hasHitDownloadSlotLimit
  isConnectable := isConnectable
  hasSentCompleted := queries.event = .completed
  updatedAt := now
  uploaded := queries.uploaded
  downloaded := queries.downloaded

section PeerSection

variable (config : Config F) (now : DateTime) (queries : Announce) (clientIp : IpAddr)
  (userId : UInt32) (isConnectable hasHitDownloadSlotLimit : Bool) (warnings : WarningCollection)

def stopPeer (peers : PeerStore) : PeerStore × Except AnnounceError PeerChange :=
  let index : Peer.Index := ⟨userId, queries.peerId⟩
  let removedPeer := peers.get? index
  let peers := peers.swapRemove index
  match removedPeer with
  | none => (peers, .error .stoppedPeerDoesNotExist)
  | some peer =>
    (peers, .ok {
      uploadedDelta := saturatingSubU64 queries.uploaded peer.uploaded
      downloadedDelta := saturatingSubU64 queries.downloaded peer.downloaded
      seederDelta := 0 - asI32 (peer.isIncludedInSeedList config)
      leecherDelta := 0 - asI32 (peer.isIncludedInLeechList config)
      timesCompletedDelta := 0
      isVisible := false
      isActiveAfterStop := peers.entries.any fun (index, peer) => index.userId = userId && peer.isActive
      warnings := warnings })

/-- Warns if the peer last announced less than `announceMinEnforced` seconds ago and this is
not its first completed event. -/
def isRateLimited (oldPeer : Peer) : Bool :=
  ((checkedAddSigned oldPeer.updatedAt (seconds config.announceMinEnforced.toNat)).any
    fun blockedUntil => decide (now < blockedUntil)) &&
  (queries.event ≠ .completed || oldPeer.hasSentCompleted)

def renewPeer (oldPeer : Peer) (peers : PeerStore) :
    PeerStore × Except AnnounceError PeerChange :=
  let newPeer := oldPeer.renew config now queries clientIp isConnectable hasHitDownloadSlotLimit
  let hasRestarted := queries.uploaded < oldPeer.uploaded || queries.downloaded < oldPeer.downloaded
  (peers.modify ⟨userId, queries.peerId⟩ (fun _ => newPeer), .ok {
    uploadedDelta := if hasRestarted then 0 else queries.uploaded - oldPeer.uploaded
    downloadedDelta := if hasRestarted then 0 else queries.downloaded - oldPeer.downloaded
    seederDelta := asI32 (newPeer.isIncludedInSeedList config) -
      asI32 (oldPeer.isIncludedInSeedList config)
    leecherDelta := asI32 (newPeer.isIncludedInLeechList config) -
      asI32 (oldPeer.isIncludedInLeechList config)
    timesCompletedDelta := if newPeer.isSeeder && !oldPeer.isSeeder then 1 else 0
    isVisible := newPeer.isVisible
    isActiveAfterStop := false
    warnings := warnings ++ (if newPeer.isVisible then [] else [.hitDownloadSlotLimit]) ++
      (if isRateLimited config now queries oldPeer then [.rateLimitExceeded] else []) })

/-- The peer is inserted first and taken out again if the user then has too many. -/
def insertPeer (peers : PeerStore) : PeerStore × Except AnnounceError PeerChange :=
  let index : Peer.Index := ⟨userId, queries.peerId⟩
  let newPeer := Peer.fresh now queries clientIp isConnectable hasHitDownloadSlotLimit
  let peers := peers.insert index newPeer
  if exceedsPeerLimit config.maxPeersPerTorrentPerUser userId 0 peers.entries then
    (peers.swapRemove index, .error (.peersPerTorrentPerUserLimit config.maxPeersPerTorrentPerUser))
  else
    (peers, .ok {
      uploadedDelta := 0
      downloadedDelta := 0
      seederDelta := asI32 (newPeer.isIncludedInSeedList config)
      leecherDelta := asI32 (newPeer.isIncludedInLeechList config)
      timesCompletedDelta := 0
      isVisible := newPeer.isVisible
      isActiveAfterStop := false
      warnings := warnings ++ (if newPeer.isVisible then [] else [.hitDownloadSlotLimit]) })

def changePeer (peers : PeerStore) : PeerStore × Except AnnounceError PeerChange :=
  if queries.event = .stopped then stopPeer config queries userId warnings peers
  else
    match peers.get? ⟨userId, queries.peerId⟩ with
    | some oldPeer =>
      renewPeer config now queries clientIp userId isConnectable hasHitDownloadSlotLimit warnings
        oldPeer peers
    | none =>
      insertPeer config now queries clientIp userId isConnectable hasHitDownloadSlotLimit warnings
        peers

end PeerSection

section PeerList

variable [RateField F]

def selectPeers (config : Config F) (env : Env F) (queries : Announce) (userId : UInt32)
    (user : User F) (torrent : Torrent) (warnings : WarningCollection) : PeerList :=
  if queries.event ≠ .stopped && torrent.leechers > 0 && warnings.isEmpty then
    -- Don't return peers with the same user id or those that are marked as inactive
    let validPeers := torrent.peers.entries.filter fun (index, peer) =>
      index.userId ≠ userId && peer.isIncludedInPeerList config
    let hasRequestedSeedList := queries.left > 0 && torrent.seeders > 0 && queries.numwant > 0
    let isUnderSeedLimit := user.receiveSeedListRates.isUnderLimit
    let seeds :=
      if hasRequestedSeedList && isUnderSeedLimit then
        env.chooseSeeds (validPeers.filter fun (_, peer) => peer.isSeeder) queries.numwant.toNat
      else []
    let hasRequestedLeechList := torrent.leechers > 0 && decide (queries.numwant.toNat > seeds.length)
    let isUnderLeechLimit := user.receiveLeechListRates.isUnderLimit
    let leeches :=
      if hasRequestedLeechList && isUnderLeechLimit then
        env.chooseLeeches (validPeers.filter fun (_, peer) => !peer.isSeeder)
          (queries.numwant.toNat - seeds.length)
      else []
    { peers := seeds ++ leeches
      hasRequestedSeedList := hasRequestedSeedList
      hasRequestedLeechList := hasRequestedLeechList
      isOverSeedListRateLimit := hasRequestedSeedList && !isUnderSeedLimit
      isOverLeechListRateLimit := hasRequestedLeechList && !isUnderLeechLimit }
  else ⟨[], false, false, false, false⟩

end PeerList

def effectiveUploadFactor (config : Config F) (group : Group) (torrent : Torrent) (user : User F) :
    UInt8 :=
  let uploadFactor := max config.uploadFactor (max group.uploadFactor torrent.uploadFactor)
  if user.isLifetime then
    match config.lifetimeDonorUploadFactorOverride with
    | some override => max uploadFactor override
    | none => uploadFactor
  else if user.isDonor then
    match config.donorUploadFactorOverride with
    | some override => max uploadFactor override
    | none => uploadFactor
  else uploadFactor

def effectiveDownloadFactor (config : Config F) (group : Group) (torrent : Torrent)
    (user : User F) : UInt8 :=
  let downloadFactor := min config.downloadFactor (min group.downloadFactor torrent.downloadFactor)
  if user.isLifetime then
    match config.lifetimeDonorDownloadFactorOverride with
    | some override => min downloadFactor override
    | none => downloadFactor
  else if user.isDonor then
    match config.donorDownloadFactorOverride with
    | some override => min downloadFactor override
    | none => downloadFactor
  else downloadFactor

/-- What the torrents section hands on. -/
structure TorrentResult (F : Type) where
  change : PeerChange
  uploadFactor : UInt8
  downloadFactor : UInt8
  user : User F
  userId : UInt32
  group : Group
  list : PeerList
  response : List UInt8

/-- Why a torrent with this moderation status takes no announces. -/
def TorrentStatus.refusal : TorrentStatus → Option AnnounceError
  | .approved => none
  | .pending => some .torrentIsPendingModeration
  | .rejected => some .torrentIsRejected
  | .postponed => some .torrentIsPostponed
  | .unknown => some .torrentUnknownModerationStatus

/-- The user and the group, if they may announce. -/
def admitUser (groups : IndexMap Int32 Group) (queries : Announce)
    (userId : Except AnnounceError UInt32) (user : Except AnnounceError (User F)) :
    Except AnnounceError (UInt32 × User F × Group) := do
  let userId ← userId
  let user ← user
  if !user.canDownload && queries.left ≠ 0 then .error .downloadPrivilegesRevoked
  else
    match groups.get? user.groupId with
    | none => .error .groupNotFound
    | some group =>
      if ["banned", "validating", "disabled"].contains group.slug then
        .error (.groupNotEnabled group.slug)
      else .ok (userId, user, group)

/-- Whether the user is leeching as many torrents as their group allows. -/
def hasHitDownloadSlotLimit (queries : Announce) (user : User F) (group : Group) : Bool :=
  queries.left > 0 && group.downloadSlots.any fun slots => user.numLeeching ≥ slots

section TorrentSection

variable [RateField F] (config : Config F) (env : Env F) (request : AnnounceRequest)
  (isConnectable : Bool)

def connectivityWarnings : WarningCollection :=
  if !isConnectable && config.requirePeerConnectivity then [.connectivityIssueDetected] else []

/-- The torrent with its counters adjusted, which comes before the peer list is generated. -/
def Torrent.withChange (torrent : Torrent) (peers : PeerStore) (change : PeerChange) : Torrent :=
  { torrent with
    peers := peers
    seeders := saturatingAddSigned torrent.seeders change.seederDelta
    leechers := saturatingAddSigned torrent.leechers change.leecherDelta
    timesCompleted := saturatingAddU32 torrent.timesCompleted change.timesCompletedDelta }

/-- The response of a changed torrent, and what is needed after its section. -/
def respond (userId : UInt32) (user : User F) (group : Group) (torrent : Torrent)
    (change : PeerChange) : TorrentResult F :=
  let list := selectPeers config env request.queries userId user torrent change.warnings
  { change := change
    uploadFactor := effectiveUploadFactor config group torrent user
    downloadFactor := effectiveDownloadFactor config group torrent user
    user := user
    userId := userId
    group := group
    list := list
    response := bencode config env.interval torrent change.warnings list }

/-- The part of the torrents section that changes the torrent. -/
def changeTorrent (userId : UInt32) (user : User F) (group : Group) (torrent : Torrent) :
    Torrent × Except AnnounceError (TorrentResult F) :=
  match changePeer config env.now request.queries request.clientIp userId isConnectable
      (hasHitDownloadSlotLimit request.queries user group)
      (connectivityWarnings config isConnectable) torrent.peers with
  | (peers, .error e) => ({ torrent with peers := peers }, .error e)
  | (peers, .ok change) =>
    let torrent := torrent.withChange peers change
    (torrent, .ok (respond config env request userId user group torrent change))

def announceTorrent (userId : Except AnnounceError UInt32) (user : Except AnnounceError (User F))
    (torrentId : UInt32) (state : AppState F) :
    AppState F × Except AnnounceError (TorrentResult F) :=
  match state.stores.torrents.get? torrentId with
  | none => (state, .error .torrentNotFound)
  | some torrent =>
    if torrent.isDeleted then
      (recordUnregistered env.now user request.queries.infoHash state, .error .torrentIsDeleted)
    else
      match torrent.status.refusal with
      | some e => (state, .error e)
      | none =>
        match admitUser state.stores.groups request.queries userId user with
        | .error e => (state, .error e)
        | .ok (userId, user, group) =>
          let (torrent, result) := changeTorrent config env request isConnectable userId user group torrent
          ({ state with stores.torrents := state.stores.torrents.modify torrentId (fun _ => torrent) },
            result)

end TorrentSection

/-- An accepted announce, with everything that it publishes. -/
structure Accepted (F : Type) extends TorrentResult F where
  torrentId : UInt32
  userAgent : Text
  isConnectable : Bool
  creditedUploadedDelta : UInt64
  creditedDownloadedDelta : UInt64

/-- `factor as u64 * delta / 100`. -/
def creditedDelta (factor : UInt8) (delta : UInt64) : UInt64 := factor.toUInt64 * delta / 100

def credit (result : TorrentResult F) (torrentId : UInt32) (userAgent : Text) (isConnectable : Bool) :
    Handler LockSection (AppState F) (Accepted F) := do
  let isPersonalFreeleech ← Handler.read .personalFreeleeches fun state =>
    state.stores.personalFreeleeches.contains result.userId
  let hasToken ← Handler.orRead isPersonalFreeleech .freeleechTokens fun state =>
    state.stores.freeleechTokens.contains ⟨result.userId, torrentId⟩
  let isFreeleech ← Handler.orRead hasToken .featuredTorrents fun state =>
    state.stores.featuredTorrents.contains torrentId
  let isFeatured ← Handler.read .featuredTorrents fun state =>
    state.stores.featuredTorrents.contains torrentId
  let downloadFactor := if isFreeleech then 0 else result.downloadFactor
  let uploadFactor := if isFeatured then 200 else result.uploadFactor
  return { result with
    torrentId := torrentId
    userAgent := userAgent
    isConnectable := isConnectable
    creditedUploadedDelta := creditedDelta uploadFactor result.change.uploadedDelta
    creditedDownloadedDelta := creditedDelta downloadFactor result.change.downloadedDelta }

namespace Accepted

variable (config : Config F) (env : Env F) (request : AnnounceRequest) (a : Accepted F)

def peerUpdate : PeerUpdate where
  ip := request.clientIp
  port := request.queries.port
  agent := a.userAgent
  uploaded := request.queries.uploaded
  downloaded := request.queries.downloaded
  isActive := request.queries.event ≠ .stopped
  isSeeder := request.queries.left = 0
  isVisible := a.change.isVisible
  left := request.queries.left
  createdAt := env.now
  updatedAt := env.now
  connectable := a.isConnectable

def historyUpdate : HistoryUpdate where
  userAgent := a.userAgent
  isActive := request.queries.event ≠ .stopped || a.change.isActiveAfterStop
  isSeeder := request.queries.left = 0
  isImmune :=
    if a.user.isLifetime then config.lifetimeDonorImmunityOverride.getD a.group.isImmune
    else if a.user.isDonor then config.donorImmunityOverride.getD a.group.isImmune
    else a.group.isImmune
  uploaded := request.queries.uploaded
  downloaded := request.queries.downloaded
  uploadedDelta := a.change.uploadedDelta
  downloadedDelta := a.change.downloadedDelta
  creditedUploadedDelta := a.creditedUploadedDelta
  creditedDownloadedDelta := a.creditedDownloadedDelta
  completedAt := if request.queries.event = .completed then some env.now else none
  createdAt := env.now
  updatedAt := env.now

def userUpdate : UserUpdate := ⟨a.creditedUploadedDelta, a.creditedDownloadedDelta⟩

def torrentUpdate : TorrentUpdate where
  seederDelta := a.change.seederDelta
  leecherDelta := a.change.leecherDelta
  timesCompletedDelta := a.change.timesCompletedDelta
  balanceDelta := toI64 a.change.uploadedDelta - toI64 a.change.downloadedDelta

def announceUpdate : AnnounceUpdate where
  userId := a.userId
  torrentId := a.torrentId
  uploaded := request.queries.uploaded
  downloaded := request.queries.downloaded
  left := request.queries.left
  corrupt := request.queries.corrupt
  peerId := request.queries.peerId
  port := request.queries.port
  numwant := if request.queries.numwant ≤ 65535 then request.queries.numwant.toUInt16 else 65535
  createdAt := env.now
  event := request.queries.event
  key := request.queries.key

/-- Whether there is anything to tell the user, the users queue and the torrents queue. -/
def touchesUser : Bool :=
  a.change.seederDelta ≠ 0 || a.change.leecherDelta ≠ 0 || a.list.hasRequestedSeedList ||
    a.list.hasRequestedLeechList

def touchesUserQueue : Bool := a.creditedUploadedDelta ≠ 0 || a.creditedDownloadedDelta ≠ 0

def touchesTorrentQueue : Bool :=
  a.change.seederDelta ≠ 0 || a.change.leecherDelta ≠ 0 || a.change.timesCompletedDelta ≠ 0 ||
    a.change.uploadedDelta ≠ 0 || a.change.downloadedDelta ≠ 0

variable [RateField F]

/-- The user after the announce. -/
def updateUser (user : User F) : User F :=
  { user with
    numSeeding := saturatingAddSigned user.numSeeding a.change.seederDelta
    numLeeching := saturatingAddSigned user.numLeeching a.change.leecherDelta
    receiveSeedListRates :=
      if a.list.hasRequestedSeedList then user.receiveSeedListRates.tick env.systemTime
      else user.receiveSeedListRates
    receiveLeechListRates :=
      if a.list.hasRequestedLeechList then user.receiveLeechListRates.tick env.systemTime
      else user.receiveLeechListRates }

def publish : Handler LockSection (AppState F) Unit := do
  Handler.writeIf a.touchesUser (.updateUser a.userId) fun state =>
    { state with stores.users := state.stores.users.modify a.userId (a.updateUser env) }
  Handler.write .peersQueue fun state =>
    { state with
      queues.peers := state.queues.peers.upsert ⟨a.userId, a.torrentId, request.queries.peerId⟩
        (a.peerUpdate env request) }
  Handler.write .historiesQueue fun state =>
    { state with
      queues.histories := state.queues.histories.upsert ⟨a.userId, a.torrentId⟩
        (a.historyUpdate config env request) }
  Handler.writeIf a.touchesUserQueue .usersQueue fun state =>
    { state with queues.users := state.queues.users.upsert ⟨a.userId⟩ a.userUpdate }
  Handler.writeIf a.touchesTorrentQueue .torrentsQueue fun state =>
    { state with queues.torrents := state.queues.torrents.upsert ⟨a.torrentId⟩ a.torrentUpdate }
  Handler.writeIf config.isAnnounceLoggingEnabled .announcesQueue fun state =>
    { state with queues.announces := state.queues.announces ++ [a.announceUpdate env request] }

end Accepted

def announce [RateField F] (config : Config F) (env : Env F) (request : AnnounceRequest) :
    Handler LockSection (AppState F) (Except AnnounceError (Accepted F)) := do
  match ← validate request with
  | .error e => return .error e
  | .ok (userAgent, passkey) =>
    let userId ← lookUpUserId passkey
    let user ← lookUpUser userId
    match ← lookUpTorrentId request.queries.infoHash with
    | .error e =>
      Handler.write .unregisteredInfoHashesQueue
        (recordUnregistered env.now user request.queries.infoHash)
      return .error e
    | .ok torrentId =>
      let isConnectable ← checkConnectivity config env request.clientIp request.queries.port
      let result ← Handler.atomically (.announceTorrent torrentId)
        (announceTorrent config env request isConnectable userId user torrentId)
      match result with
      | .error e => return .error e
      | .ok result =>
        let accepted ← credit result torrentId userAgent isConnectable
        accepted.publish config env request
        return .ok accepted

end Unit3dAnnounce
