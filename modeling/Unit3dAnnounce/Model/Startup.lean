import Unit3dAnnounce.Model.Queue

/-!
# Loading the database

At startup the counters of the torrents are synchronized with the peers table, and then every
store is loaded. A table is a map from its primary key. `none` stands for a load that fails or
panics, which happens at values that the program cannot represent.
-/

namespace Unit3dAnnounce

structure TorrentRow where
  status : ℤ
  infoHash : InfoHash
  seeders : ℤ
  leechers : ℤ
  timesCompleted : ℤ
  free : ℕ
  doubleup : Bool
  deletedAt : Option DateTime

structure UserRow where
  groupId : Int32
  passkey : Passkey
  canDownload : Bool
  isDonor : Bool
  isLifetime : Bool
  deletedAt : Option DateTime

/-- A row of the peers table, with its address as `INET6_NTOA` decodes it. -/
structure PeerRow where
  ip : Option IpAddr
  port : UInt16
  agent : Text
  uploaded : UInt64
  downloaded : UInt64
  left : UInt64
  active : Bool
  seeder : Bool
  visible : Bool
  createdAt : Option DateTime
  updatedAt : Option DateTime
  connectable : Bool

structure GroupRow where
  slug : String
  downloadSlots : Option UInt32
  isImmune : Bool
  isFreeleech : Bool
  isDoubleUpload : Bool

structure Database where
  torrents : IndexMap UInt32 TorrentRow
  users : IndexMap UInt32 UserRow
  peers : IndexMap PeerUpdate.Index PeerRow
  groups : IndexMap Int32 GroupRow
  freeleechTokens : List FreeleechToken
  personalFreeleeches : List UInt32
  featuredTorrents : List UInt32
  blacklistClients : List (List UInt8)

/-- An `INT` column read as a `u32`, byte by byte, so that a negative value wraps. A statement that
stores a value outside the range of the column fails. -/
def readInt (x : ℤ) : Option UInt32 :=
  if -2 ^ 31 ≤ x ∧ x < 2 ^ 31 then some (UInt32.ofInt x) else none

/-- A count read as a `u32`. -/
def readCount (n : ℕ) : Option UInt32 := if n < 2 ^ 32 then some (UInt32.ofNat n) else none

variable {F : Type}

/-- The number of peers that an aggregate over the peers table selects. -/
def Database.countPeers (db : Database) (p : PeerUpdate.Index → PeerRow → Bool) : ℕ := db.peers.count p

/-- `WHERE peers.active AND peers.visible`, and `AND peers.connectable` where that is required. -/
def PeerRow.isCounted (config : Config F) (row : PeerRow) : Bool :=
  row.active && row.visible && (if config.requirePeerConnectivity then row.connectable else true)

/-- The `SET` clause, where a torrent without peers has `COALESCE(NULL, 0)` of each. -/
def TorrentRow.syncPeerCounts (config : Config F) (db : Database) (id : UInt32) (row : TorrentRow) :
    TorrentRow :=
  if row.deletedAt.isNone then
    { row with
      seeders := db.countPeers fun key peer =>
        decide (key.torrentId = id) && peer.isCounted config && decide (peer.left = 0)
      leechers := db.countPeers fun key peer =>
        decide (key.torrentId = id) && peer.isCounted config && decide (peer.left > 0) }
  else row

def syncPeerCountAggregates (config : Config F) (db : Database) : Database :=
  { db with torrents := db.torrents.mapValues (TorrentRow.syncPeerCounts config db) }

/-- `MIN(CASE WHEN p THEN id END)` over the torrents with an info hash. -/
def Database.minId (db : Database) (infoHash : InfoHash) (p : TorrentRow → Bool) : Option UInt32 :=
  ((db.torrents.entries.filter fun entry => entry.2.infoHash = infoHash && p entry.2).map Prod.fst).min?

/-- Load one torrent per info hash. If multiple are found, prefer undeleted torrents. If multiple
are still found, prefer approved torrents. If multiple are still found, prefer the oldest. -/
def Database.distinctTorrent (db : Database) (infoHash : InfoHash) : Option UInt32 :=
  ((db.minId infoHash fun row => row.deletedAt.isNone && decide (row.status = 1)).or
    (db.minId infoHash fun row => row.deletedAt.isNone && decide (row.status ≠ 1))).or
    (db.minId infoHash fun row => row.deletedAt.isSome)

def Database.distinctTorrents (db : Database) : IndexMap UInt32 TorrentRow :=
  db.torrents.retain fun id row => decide (db.distinctTorrent row.infoHash = some id)

def TorrentStatus.fromI16 (status : ℤ) : TorrentStatus :=
  if status = 0 then .pending
  else if status = 1 then .approved
  else if status = 2 then .rejected
  else if status = 3 then .postponed
  else .unknown

def TorrentRow.toTorrent (id : UInt32) (row : TorrentRow) : Option Torrent := do
  let seeders ← readInt row.seeders
  let leechers ← readInt row.leechers
  let timesCompleted ← readInt row.timesCompleted
  return {
    id := id
    status := .fromI16 row.status
    isDeleted := row.deletedAt.isSome
    peers := .empty
    seeders := seeders
    leechers := leechers
    timesCompleted := timesCompleted
    downloadFactor := UInt8.ofNat (100 - min row.free 100)
    uploadFactor := if row.doubleup then 200 else 100 }

def PeerRow.toPeer (row : PeerRow) : Option Peer := do
  let ipAddress ← row.ip
  let updatedAt ← row.updatedAt
  return {
    ipAddress := ipAddress
    port := row.port
    isSeeder := row.seeder
    isActive := row.active
    isVisible := row.visible
    isConnectable := row.connectable
    hasSentCompleted := false
    updatedAt := updatedAt
    uploaded := row.uploaded
    downloaded := row.downloaded }

/-- Loads a peer into its torrent, if that is loaded. -/
def TorrentStore.loadPeer (store : TorrentStore) (row : PeerUpdate.Index × PeerRow) :
    Option TorrentStore :=
  if store.contains row.1.torrentId then
    row.2.toPeer.map fun peer => store.modify row.1.torrentId fun torrent =>
      { torrent with peers := torrent.peers.insert ⟨row.1.userId, row.1.peerId⟩ peer }
  else some store

def TorrentStore.fromDb (db : Database) : Option TorrentStore := do
  let torrents ← db.distinctTorrents.collect TorrentRow.toTorrent
  db.peers.entries.foldlM TorrentStore.loadPeer torrents

def InfoHash2IdStore.fromDb (db : Database) : IndexMap InfoHash UInt32 :=
  db.distinctTorrents.entries.foldl (fun store row => store.insert row.2.infoHash row.1) .empty

def UserRow.toUser (config : Config F) (db : Database) (id : UInt32) (row : UserRow) :
    Option (User F) := do
  let numSeeding ← readCount (db.countPeers fun key peer =>
    decide (key.userId = id) && (peer.seeder && peer.active && peer.visible))
  let numLeeching ← readCount (db.countPeers fun key peer =>
    decide (key.userId = id) && (!peer.seeder && peer.active && peer.visible))
  return {
    id := id
    groupId := row.groupId
    passkey := row.passkey
    canDownload := row.canDownload
    numSeeding := numSeeding
    numLeeching := numLeeching
    isDonor := row.isDonor
    isLifetime := row.isLifetime
    receiveSeedListRates := config.userReceiveSeedListRateLimits
    receiveLeechListRates := config.userReceiveLeechListRateLimits }

def Database.undeletedUsers (db : Database) : IndexMap UInt32 UserRow :=
  db.users.retain fun _ row => row.deletedAt.isNone

def UserStore.fromDb (config : Config F) (db : Database) : Option (UserStore F) :=
  db.undeletedUsers.collect (UserRow.toUser config db)

def Passkey2IdStore.fromDb (db : Database) : IndexMap Passkey UInt32 :=
  db.undeletedUsers.entries.foldl (fun store row => store.insert row.2.passkey row.1) .empty

def BlacklistedPortStore.default : IndexMap UInt16 Unit :=
  ([8080, 8081, 1214, 3389, 4662, 6346, 6347, 6699] ++ (List.range 1024).map UInt16.ofNat).foldl
    (fun store port => store.insert port ()) .empty

def GroupStore.fromDb (db : Database) : IndexMap Int32 Group :=
  db.groups.mapValues fun id row => {
    id := id
    slug := row.slug
    downloadSlots := row.downloadSlots
    isImmune := row.isImmune
    downloadFactor := if row.isFreeleech then 0 else 100
    uploadFactor := if row.isDoubleUpload then 200 else 100 }

/-- The sockets of the peers, with whether one of them is connectable and when the last one was
seen. -/
def Database.sockets (db : Database) : IndexMap (Option IpAddr × UInt16) (Bool × Option DateTime) :=
  db.peers.entries.foldl (fun sockets row => sockets.upsert (row.2.ip, row.2.port)
    (fun socket => (socket.1 || row.2.connectable, Option.merge max socket.2 row.2.updatedAt))
    (row.2.connectable, row.2.updatedAt)) .empty

def ConnectablePortStore.fromDb (db : Database) : Option (IndexMap SocketAddr ConnectablePort) :=
  db.sockets.entries.foldlM (fun store row => do
    let ip ← row.1.1
    let updatedAt ← row.2.2
    return store.insert ⟨ip, row.1.2⟩ ⟨row.2.1, updatedAt⟩) .empty

def setOf {K : Type} [DecidableEq K] (keys : List K) : IndexMap K Unit :=
  keys.foldl (fun store key => store.insert key ()) .empty

/-- Load all in-memory stores from the database. -/
def Stores.new (config : Config F) (db : Database) : Option (Stores F) := do
  let db := syncPeerCountAggregates config db
  let torrents ← TorrentStore.fromDb db
  let users ← UserStore.fromDb config db
  let connectablePorts ← ConnectablePortStore.fromDb db
  return {
    agentBlacklist := setOf db.blacklistClients
    connectablePorts := connectablePorts
    featuredTorrents := setOf db.featuredTorrents
    freeleechTokens := setOf db.freeleechTokens
    groups := GroupStore.fromDb db
    infohash2id := InfoHash2IdStore.fromDb db
    passkey2id := Passkey2IdStore.fromDb db
    personalFreeleeches := setOf db.personalFreeleeches
    portBlacklist := BlacklistedPortStore.default
    torrents := torrents
    users := users }

end Unit3dAnnounce
