import Unit3dAnnounce.Model.Queue

/-!
# The values of a statement

A flush writes a batch with one statement, to which the values of its records are bound one after
the other. The database takes at most 65535 of them.
-/

namespace Unit3dAnnounce

inductive Binding where
  | integer (value : ℤ)
  | bool (value : Bool)
  | bytes (value : List UInt8)
  | dateTime (value : Option DateTime)
deriving DecidableEq

namespace Binding

def u16 (value : UInt16) : Binding := .integer value.toNat

def u32 (value : UInt32) : Binding := .integer value.toNat

def u64 (value : UInt64) : Binding := .integer value.toNat

end Binding

def IpAddr.octets : IpAddr → List UInt8
  | .v4 octets => octets.toList
  | .v6 octets => octets.toList

class Statement (K V : Type) where
  /-- What `push_values` binds for a record. -/
  pushValues : DateTime → K → V → List Binding
  /-- What is bound after the records. -/
  pushExtra : {F : Type} → Config F → List Binding

instance : Statement HistoryUpdate.Index HistoryUpdate where
  pushValues _ index update :=
    [.u32 index.userId, .u32 index.torrentId, .bytes update.userAgent,
      .u64 update.creditedUploadedDelta, .u64 update.uploadedDelta, .u64 update.uploaded,
      .u64 update.creditedDownloadedDelta, .u64 update.downloadedDelta, .u64 update.downloaded,
      .bool update.isSeeder, .bool update.isActive, .integer 0, .bool update.isImmune,
      .dateTime (some update.createdAt), .dateTime (some update.updatedAt),
      .dateTime update.completedAt]
  pushExtra config := [.u64 (config.activePeerTtl + config.peerExpiryInterval)]

instance : Statement PeerUpdate.Index PeerUpdate where
  pushValues _ index update :=
    [.bytes index.peerId.bytes.toList, .bytes update.ip.octets, .u16 update.port,
      .bytes update.agent, .u64 update.uploaded, .u64 update.downloaded, .u64 update.left,
      .bool update.isActive, .bool update.isSeeder, .bool update.isVisible,
      .dateTime (some update.createdAt), .dateTime (some update.updatedAt), .u32 index.torrentId,
      .u32 index.userId, .bool update.connectable]
  pushExtra _ := []

instance : Statement TorrentUpdate.Index TorrentUpdate where
  pushValues now index update :=
    [.u32 index.torrentId, .bytes [], .bytes [], .bytes [], .bytes [], .integer 0, .integer 0,
      .integer update.seederDelta, .integer update.leecherDelta, .u32 update.timesCompletedDelta,
      .integer 1, .dateTime (some now), .dateTime (some now), .integer update.balanceDelta,
      .integer 0]
  pushExtra _ := []

instance : Statement UnregisteredInfoHashUpdate.Index UnregisteredInfoHashUpdate where
  pushValues _ index update :=
    [.u32 index.userId, .bytes index.infoHash.bytes.toList, .dateTime (some update.createdAt),
      .dateTime (some update.updatedAt)]
  pushExtra _ := []

instance : Statement UserUpdate.Index UserUpdate where
  pushValues _ index update :=
    [.u32 index.userId, .bytes [], .bytes [], .bytes [], .bytes [], .integer 0,
      .u64 update.uploadedDelta, .u64 update.downloadedDelta, .bytes []]
  pushExtra _ := []

/-- What `flush_to_db` binds. Without records, it sends no statement. -/
def Batch.bindings {F K V : Type} [Statement K V] (config : Config F) (now : DateTime)
    (batch : Batch K V) : List Binding :=
  if batch.size = 0 then []
  else
    batch.entries.flatMap (fun record => Statement.pushValues now record.1 record.2) ++
      Statement.pushExtra K V config

end Unit3dAnnounce
