import Unit3dAnnounce.Collections.IndexMap
import Unit3dAnnounce.Model.Config

/-!
# Stores

The in-memory entities and the maps that hold them.
-/

namespace Unit3dAnnounce

structure Peer.Index where
  userId : UInt32
  peerId : PeerId
deriving DecidableEq

structure Peer where
  ipAddress : IpAddr
  port : UInt16
  isSeeder : Bool
  isActive : Bool
  isVisible : Bool
  isConnectable : Bool
  hasSentCompleted : Bool
  updatedAt : DateTime
  uploaded : UInt64
  downloaded : UInt64
deriving DecidableEq

namespace Peer

variable {F : Type}

/-- Determines if the peer should be included in the peer list. -/
def isIncludedInPeerList (config : Config F) (peer : Peer) : Bool :=
  if config.requirePeerConnectivity then peer.isActive && peer.isVisible && peer.isConnectable
  else peer.isActive && peer.isVisible

/-- Determines if the peer should be included in the list of seeds. -/
def isIncludedInSeedList (config : Config F) (peer : Peer) : Bool :=
  peer.isSeeder && peer.isIncludedInPeerList config

/-- Determines if the peer should be included in the list of leeches. -/
def isIncludedInLeechList (config : Config F) (peer : Peer) : Bool :=
  !peer.isSeeder && peer.isIncludedInPeerList config

end Peer

abbrev PeerStore := IndexMap Peer.Index Peer

structure Torrent where
  id : UInt32
  status : TorrentStatus
  isDeleted : Bool
  peers : PeerStore
  seeders : UInt32
  leechers : UInt32
  timesCompleted : UInt32
  downloadFactor : UInt8
  uploadFactor : UInt8

structure User (F : Type) where
  id : UInt32
  groupId : Int32
  passkey : Passkey
  canDownload : Bool
  numSeeding : UInt32
  numLeeching : UInt32
  isDonor : Bool
  isLifetime : Bool
  receiveSeedListRates : RateCollection F
  receiveLeechListRates : RateCollection F

structure Group where
  id : Int32
  slug : String
  downloadSlots : Option UInt32
  isImmune : Bool
  downloadFactor : UInt8
  uploadFactor : UInt8

structure ConnectablePort where
  connectable : Bool
  updatedAt : DateTime

structure FreeleechToken where
  userId : UInt32
  torrentId : UInt32
deriving DecidableEq

abbrev TorrentStore := IndexMap UInt32 Torrent

abbrev UserStore (F : Type) := IndexMap UInt32 (User F)

/-- The stores that are sets hold the unit value. -/
structure Stores (F : Type) where
  agentBlacklist : IndexMap (List UInt8) Unit
  connectablePorts : IndexMap SocketAddr ConnectablePort
  featuredTorrents : IndexMap UInt32 Unit
  freeleechTokens : IndexMap FreeleechToken Unit
  groups : IndexMap Int32 Group
  infohash2id : IndexMap InfoHash UInt32
  passkey2id : IndexMap Passkey UInt32
  personalFreeleeches : IndexMap UInt32 Unit
  portBlacklist : IndexMap UInt16 Unit
  torrents : TorrentStore
  users : UserStore F

end Unit3dAnnounce
