import Unit3dAnnounce.Model.Announce

/-!
# API handlers

UNIT3D keeps the torrents and users in memory up to date through these handlers. An upsert takes
the old entity out of its store in one section and puts the new one back in a later one.
-/

namespace Unit3dAnnounce

open Machine

variable {F : Type}

inductive StatusCode where
  | ok
  | badRequest
deriving DecidableEq

structure APIInsertTorrent where
  id : UInt32
  status : TorrentStatus
  infoHash : Text
  isDeleted : Bool
  seeders : UInt32
  leechers : UInt32
  timesCompleted : UInt32
  downloadFactor : UInt8
  uploadFactor : UInt8

/-- The torrent of a request, with the peers of the old one. -/
def APIInsertTorrent.toTorrent (torrent : APIInsertTorrent) (peers : PeerStore) : Torrent where
  id := torrent.id
  status := torrent.status
  isDeleted := torrent.isDeleted
  seeders := torrent.seeders
  leechers := torrent.leechers
  timesCompleted := torrent.timesCompleted
  downloadFactor := torrent.downloadFactor
  uploadFactor := torrent.uploadFactor
  peers := peers

def upsertTorrent (torrent : APIInsertTorrent) : Handler LockSection (AppState F) StatusCode :=
  match InfoHash.fromStr torrent.infoHash with
  | some infoHash => do
    let oldTorrent ← Handler.atomically (.removeTorrent torrent.id) fun state =>
      ({ state with stores.torrents := state.stores.torrents.swapRemove torrent.id },
        state.stores.torrents.get? torrent.id)
    let peers := oldTorrent.elim IndexMap.empty Torrent.peers
    Handler.write (.insertTorrent torrent.id) fun state =>
      { state with
        stores.torrents := state.stores.torrents.insert torrent.id (torrent.toTorrent peers) }
    Handler.write .infohash2id fun state =>
      { state with stores.infohash2id := state.stores.infohash2id.insert infoHash torrent.id }
    return .ok
  | none => return .badRequest

structure APIRemoveTorrent where
  id : UInt32

def destroyTorrent (torrent : APIRemoveTorrent) : Handler LockSection (AppState F) StatusCode :=
  Handler.atomically (.deleteTorrent torrent.id) fun state =>
    if state.stores.torrents.contains torrent.id then
      ({ state with
        stores.torrents := state.stores.torrents.modify torrent.id
          fun torrent => { torrent with isDeleted := true } }, .ok)
    else (state, .badRequest)

structure APIInsertUser where
  id : UInt32
  groupId : Int32
  passkey : Text
  newPasskey : Option Text
  canDownload : Bool
  numSeeding : UInt32
  numLeeching : UInt32
  isDonor : Bool
  isLifetime : Bool

/-- The user of a request, with the rates of the old one. -/
def APIInsertUser.toUser (user : APIInsertUser) (passkey : Passkey)
    (rates : RateCollection F × RateCollection F) : User F where
  id := user.id
  groupId := user.groupId
  passkey := passkey
  canDownload := user.canDownload
  numSeeding := user.numSeeding
  numLeeching := user.numLeeching
  isDonor := user.isDonor
  isLifetime := user.isLifetime
  receiveSeedListRates := rates.1
  receiveLeechListRates := rates.2

def upsertUser (config : Config F) (user : APIInsertUser) :
    Handler LockSection (AppState F) StatusCode :=
  match Passkey.fromStr user.passkey with
  | some passkey => do
    let oldUser ← Handler.atomically (.removeUser user.id) fun state =>
      ({ state with stores.users := state.stores.users.swapRemove user.id },
        state.stores.users.get? user.id)
    let rates := oldUser.elim
      (config.userReceiveSeedListRateLimits, config.userReceiveLeechListRateLimits)
      fun user => (user.receiveSeedListRates, user.receiveLeechListRates)
    match user.newPasskey with
    | some text =>
      match Passkey.fromStr text with
      | some newPasskey => do
        Handler.write .passkey2id fun state =>
          { state with stores.passkey2id := state.stores.passkey2id.swapRemove passkey }
        insertUser newPasskey rates
      | none => return .badRequest
    | none => insertUser passkey rates
  | none => return .badRequest
where
  insertUser (newPasskey : Passkey) (rates : RateCollection F × RateCollection F) :
      Handler LockSection (AppState F) StatusCode := do
    Handler.write (.insertUser user.id) fun state =>
      { state with stores.users := state.stores.users.insert user.id (user.toUser newPasskey rates) }
    Handler.write .passkey2id fun state =>
      { state with stores.passkey2id := state.stores.passkey2id.insert newPasskey user.id }
    return .ok

structure APIRemoveUser where
  id : UInt32
  passkey : Text

def destroyUser (user : APIRemoveUser) : Handler LockSection (AppState F) StatusCode :=
  match Passkey.fromStr user.passkey with
  | some passkey => do
    Handler.write (.removeUser user.id) fun state =>
      { state with stores.users := state.stores.users.swapRemove user.id }
    Handler.write .passkey2id fun state =>
      { state with stores.passkey2id := state.stores.passkey2id.swapRemove passkey }
    return .ok
  | none => return .badRequest

structure APIInsertGroup where
  id : Int32
  slug : String
  downloadSlots : Option UInt32
  isImmune : Bool
  isFreeleech : Bool
  isDoubleUpload : Bool

def APIInsertGroup.toGroup (group : APIInsertGroup) : Group where
  id := group.id
  slug := group.slug
  downloadSlots := group.downloadSlots
  isImmune := group.isImmune
  downloadFactor := if group.isFreeleech then 0 else 100
  uploadFactor := if group.isDoubleUpload then 200 else 100

/-- From here on every handler is one section. -/
def upsertGroup (group : APIInsertGroup) (state : AppState F) : AppState F × StatusCode :=
  ({ state with stores.groups := state.stores.groups.insert group.id group.toGroup }, .ok)

structure APIRemoveGroup where
  id : Int32

def destroyGroup (group : APIRemoveGroup) (state : AppState F) : AppState F × StatusCode :=
  ({ state with stores.groups := state.stores.groups.swapRemove group.id }, .ok)

def upsertFeaturedTorrent (torrentId : UInt32) (state : AppState F) : AppState F :=
  { state with stores.featuredTorrents := state.stores.featuredTorrents.insert torrentId () }

def destroyFeaturedTorrent (torrentId : UInt32) (state : AppState F) : AppState F :=
  { state with stores.featuredTorrents := state.stores.featuredTorrents.swapRemove torrentId }

def upsertFreeleechToken (token : FreeleechToken) (state : AppState F) : AppState F :=
  { state with stores.freeleechTokens := state.stores.freeleechTokens.insert token () }

def destroyFreeleechToken (token : FreeleechToken) (state : AppState F) : AppState F :=
  { state with stores.freeleechTokens := state.stores.freeleechTokens.swapRemove token }

def upsertPersonalFreeleech (userId : UInt32) (state : AppState F) : AppState F :=
  { state with stores.personalFreeleeches := state.stores.personalFreeleeches.insert userId () }

def destroyPersonalFreeleech (userId : UInt32) (state : AppState F) : AppState F :=
  { state with stores.personalFreeleeches := state.stores.personalFreeleeches.swapRemove userId }

def upsertBlacklistedAgent (peerIdPrefix : List UInt8) (state : AppState F) : AppState F :=
  { state with stores.agentBlacklist := state.stores.agentBlacklist.insert peerIdPrefix () }

def destroyBlacklistedAgent (peerIdPrefix : List UInt8) (state : AppState F) : AppState F :=
  { state with stores.agentBlacklist := state.stores.agentBlacklist.swapRemove peerIdPrefix }

end Unit3dAnnounce
