import Mathlib.Algebra.Order.Field.Basic
import Unit3dAnnounce.Model.Types

/-!
# Configuration and rate limits

`Rate` keeps its numbers as `f64`. Here they live in an ordered field with a function in the
place of `f64::exp`.
-/

namespace Unit3dAnnounce

class RateField (F : Type) extends Field F, LinearOrder F where
  exp : F → F

structure Rate (F : Type) where
  /-- The effective current rate of requests in the window. -/
  count : F
  maxCount : F
  /-- The length of the window in seconds. -/
  window : F
  updatedAt : F

structure RateCollection (F : Type) where
  rates : List (Rate F)

section Rates

variable {F : Type} [RateField F]

def Rate.tick (now : F) (r : Rate F) : Rate F :=
  let elapsed := now - r.updatedAt
  { r with
    count := r.count * RateField.exp (-1 * elapsed / r.window) + 1
    updatedAt := now }

def Rate.isUnderLimit (r : Rate F) : Bool := decide (r.count ≤ r.maxCount)

def RateCollection.tick (now : F) (c : RateCollection F) : RateCollection F :=
  ⟨c.rates.map (Rate.tick now)⟩

def RateCollection.isUnderLimit (c : RateCollection F) : Bool := c.rates.all Rate.isUnderLimit

end Rates

structure Config (F : Type) where
  flushIntervalMilliseconds : UInt64
  maxBatchesPerFlush : UInt64
  maxRecordsPerBatch : Option UInt64
  numwantDefault : UInt64
  numwantMax : UInt64
  announceMin : UInt32
  announceMinEnforced : UInt32
  announceMax : UInt32
  uploadFactor : UInt8
  downloadFactor : UInt8
  peerExpiryInterval : UInt64
  activePeerTtl : UInt64
  inactivePeerTtl : UInt64
  apikey : Text
  listeningIpAddress : Option IpAddr
  listeningPort : Option UInt16
  listeningUnixSocket : Option Text
  maxPeersPerTorrentPerUser : UInt16
  isConnectivityCheckEnabled : Bool
  connectivityCheckInterval : ℤ
  requirePeerConnectivity : Bool
  isAnnounceLoggingEnabled : Bool
  reverseProxyClientIpHeaderName : Option Text
  userReceiveSeedListRateLimits : RateCollection F
  userReceiveLeechListRateLimits : RateCollection F
  donorImmunityOverride : Option Bool
  donorUploadFactorOverride : Option UInt8
  donorDownloadFactorOverride : Option UInt8
  lifetimeDonorImmunityOverride : Option Bool
  lifetimeDonorUploadFactorOverride : Option UInt8
  lifetimeDonorDownloadFactorOverride : Option UInt8

/-- The values of `.env.example`, with a long enough key and no rate limits. -/
def Config.envExample (F : Type) : Config F where
  flushIntervalMilliseconds := 3000
  maxBatchesPerFlush := 1
  maxRecordsPerBatch := none
  numwantDefault := 15
  numwantMax := 15
  announceMin := 1800
  announceMinEnforced := 1740
  announceMax := 3600
  uploadFactor := 100
  downloadFactor := 100
  peerExpiryInterval := 1800
  activePeerTtl := 7200
  inactivePeerTtl := 1814400
  apikey := List.replicate 32 0x61
  listeningIpAddress := some (.v4 ⟨[127, 0, 0, 1], rfl⟩)
  listeningPort := some 6969
  listeningUnixSocket := none
  maxPeersPerTorrentPerUser := 3
  isConnectivityCheckEnabled := false
  connectivityCheckInterval := 1800
  requirePeerConnectivity := false
  isAnnounceLoggingEnabled := false
  reverseProxyClientIpHeaderName := none
  userReceiveSeedListRateLimits := ⟨[]⟩
  userReceiveLeechListRateLimits := ⟨[]⟩
  donorImmunityOverride := none
  donorUploadFactorOverride := none
  donorDownloadFactorOverride := none
  lifetimeDonorImmunityOverride := none
  lifetimeDonorUploadFactorOverride := none
  lifetimeDonorDownloadFactorOverride := none

end Unit3dAnnounce
