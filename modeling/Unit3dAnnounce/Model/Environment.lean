import Unit3dAnnounce.Format.Address
import Unit3dAnnounce.Format.Binary64
import Unit3dAnnounce.Model.Query

/-!
# Reading the configuration

The configuration is read from environment variables at startup and again whenever UNIT3D asks for
it. An error is represented by its outermost context, which is all that it shows.
-/

namespace Unit3dAnnounce

/-- The variables that are set to valid text. -/
abbrev Environment := String → Option Text

inductive EnvFailure where
  | error (context : String)
  | panic
deriving DecidableEq

section Values

variable {A : Type}

/-- `Option::context`. -/
def orContext (context : String) : Option A → Except EnvFailure A
  | some a => .ok a
  | none => .error (.error context)

/-- `Result::context`. -/
def withContext (context : String) : Except EnvFailure A → Except EnvFailure A
  | .error (.error _) => .error (.error context)
  | result => result

def ensure (condition : Bool) (message : String) : Except EnvFailure Unit :=
  if condition then .ok () else .error (.error message)

variable (env : Environment) (name : String) (parse : Text → Option A) (message : String)

def required : Except EnvFailure Text := orContext (name ++ " not found in .env file.") (env name)

/-- A variable that must be set. -/
def setting : Except EnvFailure A := do
  let value ← required env name
  orContext message (parse value)

/-- A variable that may be set. -/
def optional : Except EnvFailure (Option A) :=
  match env name with
  | none => .ok none
  | some value => (orContext message (parse value)).map some

end Values

def parseU8 (s : Text) : Option UInt8 := (parseUnsigned (2 ^ 8) s).map UInt8.ofNat

def parseU32 (s : Text) : Option UInt32 := (parseUnsigned (2 ^ 32) s).map UInt32.ofNat

def parseNonZeroU64 (s : Text) : Option UInt64 := (parseU64 s).filter (· ≠ 0)

def parseI64 (s : Text) : Option ℤ :=
  if s.head? = some 0x2D then
    if s.tail.head? = some 0x2B then none
    else (parseUnsigned (2 ^ 63 + 1) s.tail).map fun n => -n
  else (parseUnsigned (2 ^ 63) s).map Int.ofNat

def parseBool (s : Text) : Option Bool :=
  if s = ascii "true" then some true else if s = ascii "false" then some false else none

/-- `IpAddr::from_str`. -/
def IpAddr.fromStr (s : Text) : Option IpAddr := do
  let octets ← Address.parse s
  if h : octets.length = 4 then some (.v4 ⟨octets, h⟩)
  else if h : octets.length = 16 then some (.v6 ⟨octets, h⟩)
  else none

/-- The characters that are white space, encoded. -/
def whitespace : List Text :=
  [[0x09], [0x0A], [0x0B], [0x0C], [0x0D], [0x20], [0xC2, 0x85], [0xC2, 0xA0], [0xE1, 0x9A, 0x80],
    [0xE2, 0x80, 0x80], [0xE2, 0x80, 0x81], [0xE2, 0x80, 0x82], [0xE2, 0x80, 0x83],
    [0xE2, 0x80, 0x84], [0xE2, 0x80, 0x85], [0xE2, 0x80, 0x86], [0xE2, 0x80, 0x87],
    [0xE2, 0x80, 0x88], [0xE2, 0x80, 0x89], [0xE2, 0x80, 0x8A], [0xE2, 0x80, 0xA8],
    [0xE2, 0x80, 0xA9], [0xE2, 0x80, 0xAF], [0xE2, 0x81, 0x9F], [0xE3, 0x80, 0x80]]

namespace Text

/-- Removes these prefixes from the start of a text, one in a round. -/
def dropPrefixes (prefixes : List Text) : (rounds : ℕ) → Text → Text
  | 0, s => s
  | rounds + 1, s =>
    match prefixes.find? (List.isPrefixOf · s) with
    | none => s
    | some whitespace => dropPrefixes prefixes rounds (s.drop whitespace.length)

/-- `str::trim`. -/
def trim (s : Text) : Text :=
  let s := dropPrefixes whitespace s.length s
  (dropPrefixes (whitespace.map List.reverse) s.length s.reverse).reverse

end Text

section RateLimits

variable {F : Type} (ofBinary64 : Binary64 → F) (systemTime : F)

/-- A new rate with a window in nanoseconds. -/
def Rate.new (window : ℕ) (maxEventsPerWindow : Binary64) : Rate F where
  count := ofBinary64 (.finite 0)
  maxCount := ofBinary64 maxEventsPerWindow
  window := ofBinary64 (.ofNanoseconds window)
  updatedAt := systemTime

def parseF64 (s : Text) : Except EnvFailure Binary64 :=
  orContext (if s.isEmpty then "cannot parse float from empty string" else "invalid float literal")
    (Binary64.parse s)

/-- A window and its limit. A window that is no duration makes the source panic. -/
def parseRate (pair : Text) : Except EnvFailure (Rate F) := do
  let window ← parseF64 (Text.trim (pair.takeWhile (· ≠ equalSign)))
  let maxEvents ← orContext "Failed to parse rate max events per window."
    (if equalSign ∈ pair then some ((pair.dropWhile (· ≠ equalSign)).drop 1) else none)
  let maxEventsPerWindow ← parseF64 (Text.trim maxEvents)
  match window.toNanoseconds with
  | none => .error .panic
  | some window => return Rate.new ofBinary64 systemTime window maxEventsPerWindow

/-- The pairs of a string of the form `window1=max_amount1;window2=max_amount2`. -/
def ratePairs (s : Text) : List Text := (s.splitOn 0x3B).filter fun pair => !pair.isEmpty

def RateCollection.newFromString (s : Text) : Except EnvFailure (RateCollection F) := do
  let rates ← withContext "Failed to parse rate limit string."
    ((ratePairs s).mapM (parseRate ofBinary64 systemTime))
  return ⟨rates⟩

end RateLimits

/-- The settings that are read last. -/
structure UserSettings (F : Type) where
  userReceiveSeedListRateLimits : RateCollection F
  userReceiveLeechListRateLimits : RateCollection F
  donorImmunityOverride : Option Bool
  donorUploadFactorOverride : Option UInt8
  donorDownloadFactorOverride : Option UInt8
  lifetimeDonorImmunityOverride : Option Bool
  lifetimeDonorUploadFactorOverride : Option UInt8
  lifetimeDonorDownloadFactorOverride : Option UInt8
  apikey : Text

variable {F : Type}

/-- The first part of `from_env`, up to the rate limits. -/
def Config.serverFromEnv (env : Environment) : Except EnvFailure (UserSettings F → Config F) := do
  let flushIntervalMilliseconds ← setting env "FLUSH_INTERVAL_MILLISECONDS" parseNonZeroU64
    "FLUSH_INTERVAL_MILLISECONDS must be a number between 1 and 2^64 - 1"
  let maxBatchesPerFlush ← setting env "MAX_BATCHES_PER_FLUSH" parseU64
    "MAX_BATCHES_PER_FLUSH must be a number between 0 and 2^64 - 1"
  let maxRecordsPerBatch ← optional env "MAX_RECORDS_PER_BATCH" parseU64
    "MAX_RECORDS_PER_BATCH must be a number between 0 and 2^64 - 1, if provided"
  let numwantDefault ← setting env "NUMWANT_DEFAULT" parseU64
    "NUMWANT_DEFAULT must be a number between 0 and 2^64 - 1"
  let numwantMax ← setting env "NUMWANT_MAX" parseU64
    "NUMWANT_MAX must be a number between 0 and 2^64 - 1"
  let announceMin ← setting env "ANNOUNCE_MIN" parseU32
    "ANNOUNCE_MIN must be a number between 0 and 2^32 - 1"
  let announceMinEnforced ← setting env "ANNOUNCE_MIN_ENFORCED" parseU32
    "ANNOUNCE_MIN_ENFORCED must be a number between 0 and 2^32 - 1"
  ensure (announceMinEnforced ≤ announceMin)
    "ANNOUNCE_MIN_ENFORCED must be less than or equal to ANNOUNCE_MIN"
  let announceMax ← setting env "ANNOUNCE_MAX" parseU32
    "ANNOUNCE_MAX must be a number between 0 and 2^32 - 1"
  ensure (announceMax ≥ announceMin) "ANNOUNCE_MAX must be greater than or equal to ANNOUNCE_MIN"
  let uploadFactor ← setting env "UPLOAD_FACTOR" parseU8
    "UPLOAD_FACTOR must be a number between 0 and 2^8 - 1"
  let downloadFactor ← setting env "DOWNLOAD_FACTOR" parseU8
    "DOWNLOAD_FACTOR must be a number between 0 and 2^8 - 1"
  let peerExpiryInterval ← setting env "PEER_EXPIRY_INTERVAL" parseNonZeroU64
    "PEER_EXPIRY_INTERVAL must be a number between 1 and 2^64 - 1"
  let activePeerTtl ← setting env "ACTIVE_PEER_TTL" parseU64
    "ACTIVE_PEER_TTL must be a number between 0 and 2^64 - 1"
  ensure (activePeerTtl > announceMax.toUInt64) "ACTIVE_PEER_TTL must be greater than ANNOUNCE_MAX"
  let inactivePeerTtl ← setting env "INACTIVE_PEER_TTL" parseU64
    "INACTIVE_PEER_TTL must be a number between 0 and 2^64 - 1"
  let listeningIpAddress ← optional env "LISTENING_IP_ADDRESS" IpAddr.fromStr
    "LISTENING_IP_ADDRESS in .env file could not be parsed."
  let listeningPort ← optional env "LISTENING_PORT" parseU16
    "LISTENING_PORT must be a number between 0 and 2^16 - 1"
  let listeningUnixSocket ← optional env "LISTENING_UNIX_SOCKET" some
    "LISTENING_UNIX_SOCKET could not be parsed into a unix domain socket path."
  ensure (listeningIpAddress.isSome == listeningPort.isSome)
    "LISTENING_IP_ADDRESS and LISTENING PORT must be configured together."
  ensure ((listeningIpAddress.isSome && listeningPort.isSome && listeningUnixSocket.isNone) ||
      (listeningIpAddress.isNone && listeningPort.isNone && listeningUnixSocket.isSome))
    "(LISTENING_IP_ADDRESS and LISTENING_PORT) AND LISTENING_UNIX_SOCKET are mutually exclusive"
  let maxPeersPerTorrentPerUser ← setting env "MAX_PEERS_PER_TORRENT_PER_USER" parseU16
    "MAX_PEERS_PER_TORRENT_PER_USER must be a number between 0 and 2^16 - 1"
  let isConnectivityCheckEnabled ← setting env "IS_CONNECTIVITY_CHECK_ENABLED" parseBool
    "IS_CONNECTIVITY_CHECK_ENABLED must be either \x60true\x60 or \x60false\x60"
  let connectivityCheckInterval ← setting env "CONNECTIVITY_CHECK_INTERVAL" parseI64
    "CONNECTIVITY_CHECK_INTERVAL must be a number between -(2^63) and 2^63 - 1"
  let requirePeerConnectivity ← setting env "REQUIRE_PEER_CONNECTIVITY" parseBool
    "REQUIRE_PEER_CONNECTIVITY must be either \x60true\x60 or \x60false\x60"
  let isAnnounceLoggingEnabled ← setting env "IS_ANNOUNCE_LOGGING_ENABLED" parseBool
    "IS_ANNOUNCE_LOGGING_ENABLED must be either \x60true\x60 or \x60false\x60"
  let reverseProxyClientIpHeaderName := env "REVERSE_PROXY_CLIENT_IP_HEADER_NAME"
  if listeningUnixSocket.isSome then
    ensure reverseProxyClientIpHeaderName.isSome
      "LISTENING_UNIX_SOCKET requires REVERSE_PROXY_CLIENT_IP_HEADER_NAME to be configured."
  return fun user => {
    flushIntervalMilliseconds, maxBatchesPerFlush, maxRecordsPerBatch, numwantDefault, numwantMax,
    announceMin, announceMinEnforced, announceMax, uploadFactor, downloadFactor, peerExpiryInterval,
    activePeerTtl, inactivePeerTtl, listeningIpAddress, listeningPort, listeningUnixSocket,
    maxPeersPerTorrentPerUser, isConnectivityCheckEnabled, connectivityCheckInterval,
    requirePeerConnectivity, isAnnounceLoggingEnabled, reverseProxyClientIpHeaderName
    apikey := user.apikey
    userReceiveSeedListRateLimits := user.userReceiveSeedListRateLimits
    userReceiveLeechListRateLimits := user.userReceiveLeechListRateLimits
    donorImmunityOverride := user.donorImmunityOverride
    donorUploadFactorOverride := user.donorUploadFactorOverride
    donorDownloadFactorOverride := user.donorDownloadFactorOverride
    lifetimeDonorImmunityOverride := user.lifetimeDonorImmunityOverride
    lifetimeDonorUploadFactorOverride := user.lifetimeDonorUploadFactorOverride
    lifetimeDonorDownloadFactorOverride := user.lifetimeDonorDownloadFactorOverride }

variable (ofBinary64 : Binary64 → F) (systemTime : F)

/-- A rate-limit string. -/
def rateLimits (env : Environment) (name : String) : Except EnvFailure (RateCollection F) := do
  let value ← required env name
  withContext (name ++ " has incorrect format.") (RateCollection.newFromString ofBinary64 systemTime value)

/-- The second part of `from_env`. -/
def UserSettings.fromEnv (env : Environment) : Except EnvFailure (UserSettings F) := do
  let userReceiveSeedListRateLimits ←
    rateLimits ofBinary64 systemTime env "USER_RECEIVE_SEED_LIST_RATE_LIMITS"
  let userReceiveLeechListRateLimits ←
    rateLimits ofBinary64 systemTime env "USER_RECEIVE_LEECH_LIST_RATE_LIMITS"
  let donorImmunityOverride ← optional env "DONOR_IMMUNITY_OVERRIDE" parseBool
    "DONOR_IMMUNITY_OVERRIDE must be either \x60true\x60 or \x60false\x60, if provided"
  let donorUploadFactorOverride ← optional env "DONOR_UPLOAD_FACTOR_OVERRIDE" parseU8
    "DONOR_UPLOAD_FACTOR_OVERRIDE must be a number between 0 and 2^8 - 1, if provided"
  let donorDownloadFactorOverride ← optional env "DONOR_DOWNLOAD_FACTOR_OVERRIDE" parseU8
    "DONOR_DOWNLOAD_FACTOR_OVERRIDE must be a number between 0 and 2^8 - 1, if provided"
  let lifetimeDonorImmunityOverride ← optional env "LIFETIME_DONOR_IMMUNITY_OVERRIDE" parseBool
    "LIFETIME_DONOR_IMMUNITY_OVERRIDE must be either \x60true\x60 or \x60false\x60, if provided"
  let lifetimeDonorUploadFactorOverride ← optional env "LIFETIME_DONOR_UPLOAD_FACTOR_OVERRIDE" parseU8
    "LIFETIME_DONOR_UPLOAD_FACTOR_OVERRIDE must be a number between 0 and 2^8 - 1, if provided"
  let lifetimeDonorDownloadFactorOverride ←
    optional env "LIFETIME_DONOR_DOWNLOAD_FACTOR_OVERRIDE" parseU8
      "LIFETIME_DONOR_DOWNLOAD_FACTOR_OVERRIDE must be a number between 0 and 2^8 - 1, if provided"
  let apikey ← required env "APIKEY"
  ensure (apikey.length ≥ 32) "APIKEY must be at least 32 characters long"
  return {
    userReceiveSeedListRateLimits, userReceiveLeechListRateLimits, donorImmunityOverride,
    donorUploadFactorOverride, donorDownloadFactorOverride, lifetimeDonorImmunityOverride,
    lifetimeDonorUploadFactorOverride, lifetimeDonorDownloadFactorOverride, apikey }

def Config.fromEnv (env : Environment) : Except EnvFailure (Config F) := do
  let config ← Config.serverFromEnv env
  let user ← UserSettings.fromEnv ofBinary64 systemTime env
  return config user

structure ReloadResponse where
  status : ℕ
  body : String
deriving DecidableEq

/-- The configuration that is stored after a request to reload it, and the response. Where there is
an `.env` file, its variables override the others. -/
def Config.reload (environment : Option Environment) (config : Config F) :
    Config F × Option ReloadResponse :=
  match environment with
  | none => (config, some ⟨500, ".env file not found."⟩)
  | some env =>
    match Config.fromEnv ofBinary64 systemTime env with
    | .ok newConfig => (newConfig, some ⟨200, "Successfully reloaded config."⟩)
    | .error (.error e) =>
      (config, some ⟨500, "Ignoring config reload. Failed to parse config: " ++ e⟩)
    | .error .panic => (config, none)

end Unit3dAnnounce
