import Unit3dAnnounce.Model.Store

/-!
# Responses

The warnings collected while an announce is served and the bencoded body it is answered
with.
-/

namespace Unit3dAnnounce

inductive AnnounceError where
  | internalTrackerError
  | invalidQueryStringKey
  | invalidQueryStringValue
  | invalidPeerId
  | invalidInfoHash
  | invalidPort
  | invalidUploaded
  | invalidDownloaded
  | invalidLeft
  | invalidCompact
  | unsupportedEvent
  | invalidNumwant
  | missingInfoHash
  | missingPeerId
  | missingPort
  | missingUploaded
  | missingDownloaded
  | missingLeft
  | abnormalAccess
  | invalidUserAgent
  | userAgentTooLong
  | blacklistedClient
  | notAClient
  | invalidPasskey
  | passkeyNotFound
  | userNotFound
  | downloadPrivilegesRevoked
  | blacklistedPort (port : UInt16)
  | infoHashNotFound
  | torrentNotFound
  | torrentIsDeleted
  | torrentIsPendingModeration
  | torrentIsRejected
  | torrentIsPostponed
  | torrentUnknownModerationStatus
  | groupNotFound
  | groupNotEnabled (slug : String)
  | peersPerTorrentPerUserLimit (limit : UInt16)
  | stoppedPeerDoesNotExist
deriving DecidableEq

def decimal (n : ℕ) : Text := ascii (toString n)

/-- `to_string` of an error. -/
def AnnounceError.toBytes : AnnounceError → Text
  | .internalTrackerError => ascii "Internal tracker error."
  | .invalidQueryStringKey => ascii "Invalid query string parameter."
  | .invalidQueryStringValue => ascii "Invalid query string value."
  | .invalidPeerId => ascii "Invalid 'peer_id'."
  | .invalidInfoHash => ascii "Invalid 'info_hash'."
  | .invalidPort => ascii "Invalid 'port' (must be greater than or equal to 0)."
  | .invalidUploaded => ascii "Invalid 'uploaded' (must be greater than or equal to 0)."
  | .invalidDownloaded => ascii "Invalid 'downloaded' (must be greater than or equal to 0)."
  | .invalidLeft => ascii "Invalid 'left' (must be greater than or equal to 0)."
  | .invalidCompact => ascii "Your client does not support compact announces."
  | .unsupportedEvent => ascii "Unsupported 'event' type."
  | .invalidNumwant => ascii "Invalid 'numwant' (must be greater than or equal to 0)."
  | .missingInfoHash => ascii "Query parameter 'info_hash' is missing."
  | .missingPeerId => ascii "Query parameter 'peer_id' is missing."
  | .missingPort => ascii "Query parameter 'port' is missing."
  | .missingUploaded => ascii "Query parameter 'uploaded' is missing."
  | .missingDownloaded => ascii "Query parameter 'downloaded' is missing."
  | .missingLeft => ascii "Query parameter 'left' is missing."
  | .abnormalAccess => ascii "Abnormal access blocked."
  | .invalidUserAgent => ascii "Invalid user agent."
  | .userAgentTooLong => ascii "The user agent of this client is too long."
  | .blacklistedClient => ascii "Client is not acceptable. Please check our blacklist."
  | .notAClient => ascii "Browser, crawler or cheater is not allowed."
  | .invalidPasskey => ascii "Invalid passkey."
  | .passkeyNotFound => ascii "Passkey does not exist. Please re-download the .torrent file."
  | .userNotFound => ascii "User does not exist. Please re-download the .torrent file."
  | .downloadPrivilegesRevoked => ascii "Your downloading privileges have been disabled."
  | .blacklistedPort port =>
    ascii "Illegal port: " ++ decimal port.toNat ++ ascii ". Port should be between 6881-64999."
  | .infoHashNotFound => ascii "InfoHash not found."
  | .torrentNotFound => ascii "Torrent not found."
  | .torrentIsDeleted => ascii "Torrent has been deleted."
  | .torrentIsPendingModeration => ascii "Torrent is pending moderation."
  | .torrentIsRejected => ascii "Torrent has been rejected."
  | .torrentIsPostponed => ascii "Torrent has been postponed."
  | .torrentUnknownModerationStatus => ascii "Torrent not approved."
  | .groupNotFound => ascii "Group not found."
  | .groupNotEnabled slug =>
    ascii "Your account is not enabled. (Current: " ++ utf8 slug ++ ascii ")."
  | .peersPerTorrentPerUserLimit limit =>
    ascii "You already have " ++ decimal limit.toNat ++ ascii " peers on this torrent. Ignoring."
  | .stoppedPeerDoesNotExist => ascii "Stopped peer doesn't exist."

/-- Announce warnings that act as an error by immediately returning an empty peer list but
are not explicit errors due to undesired side effects. -/
def AnnounceError.isCriticalWarning : AnnounceError → Bool
  | .stoppedPeerDoesNotExist
  | .torrentIsPendingModeration
  | .torrentIsPostponed
  | .torrentIsRejected => true
  | _ => false

/-- Whether the interval is reduced, so that the uploader starts seeding sooner when the
torrent is approved. -/
def AnnounceError.isModeration : AnnounceError → Bool
  | .torrentIsPendingModeration
  | .torrentIsPostponed
  | .torrentIsRejected => true
  | _ => false

def AnnounceError.intoResponse (e : AnnounceError) : List UInt8 :=
  if e.isCriticalWarning then
    ascii "d8:completei0e10:downloadedi0e10:incompletei0e" ++
    (if e.isModeration then ascii "8:intervali30e12:min intervali30e"
      else ascii "8:intervali5400e12:min intervali5400e") ++
    ascii "5:peers0:15:warning message" ++
    decimal e.toBytes.length ++ ascii ":" ++ e.toBytes ++ ascii "e"
  else
    ascii "d14:failure reason" ++
    decimal e.toBytes.length ++ ascii ":" ++ e.toBytes ++
    (if e.isModeration then ascii "8:intervali30e12:min intervali30ee"
      else ascii "8:intervali5400e12:min intervali5400ee")

inductive AnnounceWarning where
  | rateLimitExceeded
  | hitDownloadSlotLimit
  | connectivityIssueDetected
deriving DecidableEq

/-- Returns true if the warning should not be sent to the user but still used internally to
give empty peer lists. -/
def AnnounceWarning.isSilent : AnnounceWarning → Bool
  | .rateLimitExceeded => true
  | _ => false

def AnnounceWarning.toBytes : AnnounceWarning → Text
  | .rateLimitExceeded => ascii "Rate limit exceeded. Please wait."
  | .hitDownloadSlotLimit => ascii "Download slot limit reached"
  | .connectivityIssueDetected =>
    ascii "Connectivity issue detected. Enable port-forwarding to resolve."

def separator : Text := ascii "; "

abbrev WarningCollection := List AnnounceWarning

/-- Create the warning message to be returned to the user. -/
def WarningCollection.intoMessage (warnings : WarningCollection) : Option Text :=
  if warnings.isEmpty then none
  else
    let message := warnings.foldl (fun message warning =>
      if warning.isSilent then message else message ++ warning.toBytes ++ separator) []
    if message.isEmpty then none
    else some (message.take (message.length - separator.length))

/-- `u16::to_be_bytes`. -/
def toBeBytes (port : UInt16) : List UInt8 := [(port >>> 8).toUInt8, port.toUInt8]

/-- The sockets of the peers with an IPv4 address, 6 bytes each. -/
def serializeIpv4 (peers : List (Peer.Index × Peer)) : List UInt8 :=
  peers.flatMap fun (_, peer) =>
    match peer.ipAddress with
    | .v4 octets => octets.toList ++ toBeBytes peer.port
    | .v6 _ => []

/-- The sockets of the peers with an IPv6 address, 18 bytes each. -/
def serializeIpv6 (peers : List (Peer.Index × Peer)) : List UInt8 :=
  peers.flatMap fun (_, peer) =>
    match peer.ipAddress with
    | .v4 _ => []
    | .v6 octets => octets.toList ++ toBeBytes peer.port

/-- What the peer list section of an announce decides. -/
structure PeerList where
  peers : List (Peer.Index × Peer)
  hasRequestedSeedList : Bool
  hasRequestedLeechList : Bool
  isOverSeedListRateLimit : Bool
  isOverLeechListRateLimit : Bool

/-- Bencoded response to return to the client. The keys are sorted. -/
def bencode {F : Type} (config : Config F) (interval : UInt32) (torrent : Torrent)
    (warnings : WarningCollection) (list : PeerList) : List UInt8 :=
  let peersIpv4 := serializeIpv4 list.peers
  let peersIpv6 := serializeIpv6 list.peers
  ascii "d8:completei" ++
  (if list.isOverSeedListRateLimit || !warnings.isEmpty then ascii "0"
    else decimal torrent.seeders.toNat) ++
  ascii "e10:downloadedi" ++ decimal torrent.timesCompleted.toNat ++
  ascii "e10:incompletei" ++
  (if list.isOverLeechListRateLimit || !warnings.isEmpty then ascii "0"
    else decimal torrent.leechers.toNat) ++
  ascii "e8:intervali" ++ decimal interval.toNat ++
  ascii "e12:min intervali" ++ decimal config.announceMin.toNat ++
  ascii "e5:peers" ++
  (if peersIpv4.isEmpty then ascii "0:" else decimal peersIpv4.length ++ ascii ":" ++ peersIpv4) ++
  (if peersIpv6.isEmpty then []
    else ascii "6:peers6" ++ decimal peersIpv6.length ++ ascii ":" ++ peersIpv6) ++
  (match warnings.intoMessage with
    | some message =>
      ascii "15:warning message" ++ decimal message.length ++ ascii ":" ++ message
    | none => []) ++
  ascii "e"

end Unit3dAnnounce
