import Mathlib.Analysis.Complex.Exponential
import Unit3dAnnounce.Model.Environment
import Unit3dAnnounce.Model.Operation
import Unit3dAnnounce.Model.Tracker

/-!
# A small site

Rates over the reals, and the values from which small sites and requests are put together: users,
torrents and peers are told apart by one byte.
-/

namespace Unit3dAnnounce

noncomputable instance : RateField ℝ where
  exp := Real.exp

namespace Sample

def passkey (c : UInt8) : Passkey := ⟨List.Vector.replicate 32 c⟩

def infoHash (c : UInt8) : InfoHash := ⟨List.Vector.replicate 20 c⟩

def peerId (c : UInt8) : PeerId := ⟨List.Vector.replicate 20 c⟩

def address : IpAddr := .v4 ⟨[10, 0, 0, 1], rfl⟩

/-- 2025-01-01 and so many seconds. -/
def time (n : ℤ) : DateTime := seconds (1735689600 + n)

/-- The fraction of a second is dropped. -/
def truncated (time : DateTime) : ℤ := time / seconds 1

def config : Config ℝ := Config.envExample ℝ

/-- Where unconnectable peers are not in the peer lists. -/
def connectableConfig : Config ℝ := { config with requirePeerConnectivity := true }

/-- With one peer per torrent and user. -/
def onePeerConfig : Config ℝ := { config with maxPeersPerTorrentPerUser := 1 }

noncomputable def ofBinary64 : Binary64 → ℝ
  | .finite value => value
  | _ => 0

/-- The settings of `config`. -/
def settings : List (String × String) :=
  [("FLUSH_INTERVAL_MILLISECONDS", "3000"), ("MAX_BATCHES_PER_FLUSH", "1"),
    ("NUMWANT_DEFAULT", "15"), ("NUMWANT_MAX", "15"), ("ANNOUNCE_MIN", "1800"),
    ("ANNOUNCE_MIN_ENFORCED", "1740"), ("ANNOUNCE_MAX", "3600"), ("UPLOAD_FACTOR", "100"),
    ("DOWNLOAD_FACTOR", "100"), ("PEER_EXPIRY_INTERVAL", "1800"), ("ACTIVE_PEER_TTL", "7200"),
    ("INACTIVE_PEER_TTL", "1814400"), ("LISTENING_IP_ADDRESS", "127.0.0.1"),
    ("LISTENING_PORT", "6969"), ("MAX_PEERS_PER_TORRENT_PER_USER", "3"),
    ("IS_CONNECTIVITY_CHECK_ENABLED", "false"), ("CONNECTIVITY_CHECK_INTERVAL", "1800"),
    ("REQUIRE_PEER_CONNECTIVITY", "false"), ("IS_ANNOUNCE_LOGGING_ENABLED", "false"),
    ("USER_RECEIVE_SEED_LIST_RATE_LIMITS", ""), ("USER_RECEIVE_LEECH_LIST_RATE_LIMITS", ""),
    ("APIKEY", "aaaaaaaaaaaaaaaaaaaaaaaaaaaaaaaa")]

/-- An environment in which some of the settings are different. -/
def environment (changes : List (String × String)) : Environment := fun name =>
  ((changes ++ settings).lookup name).map ascii

/-- The configuration that an environment gives at the Unix epoch. -/
noncomputable def fromEnv (changes : List (String × String)) : Except EnvFailure (Config ℝ) :=
  Config.fromEnv ofBinary64 0 (environment changes)

example : fromEnv [] = .ok config := rfl

def user (id : UInt32) (c : UInt8) : User ℝ where
  id := id
  groupId := 1
  passkey := passkey c
  canDownload := true
  numSeeding := 0
  numLeeching := 0
  isDonor := false
  isLifetime := false
  receiveSeedListRates := ⟨[]⟩
  receiveLeechListRates := ⟨[]⟩

def group (slots : Option UInt32) : Group where
  id := 1
  slug := "user"
  downloadSlots := slots
  isImmune := false
  downloadFactor := 100
  uploadFactor := 100

def torrent (id : UInt32) (peers : PeerStore) : Torrent where
  id := id
  status := .approved
  isDeleted := false
  peers := peers
  seeders := 0
  leechers := 0
  timesCompleted := 0
  downloadFactor := 100
  uploadFactor := 100

/-- A site with one user, whose passkey is made of `a`s, in a group with the given slots, and with
the given torrents, whose info hashes are made of their ids. -/
def state (slots : Option UInt32) (torrents : List UInt32) : AppState ℝ where
  queues := .new
  stores := {
    agentBlacklist := .empty
    connectablePorts := .empty
    featuredTorrents := .empty
    freeleechTokens := .empty
    groups := .insert .empty 1 (group slots)
    infohash2id := torrents.foldl (fun m id => m.insert (infoHash id.toUInt8) id) .empty
    passkey2id := .insert .empty (passkey 0x61) 1
    personalFreeleeches := .empty
    portBlacklist := .empty
    torrents := torrents.foldl (fun m id => m.insert id (torrent id .empty)) .empty
    users := .insert .empty 1 (user 1 0x61) }

/-- The site with empty tables behind its queues. -/
def tracker (slots : Option UInt32) (torrents : List UInt32) : Tracker ℝ where
  state := state slots torrents
  histories := ⟨[], .empty⟩
  peers := ⟨[], .empty⟩
  torrents := ⟨[], .empty⟩
  users := ⟨[], .empty⟩

/-- A request about user 1. -/
def userRequest (passkey : UInt8) (newPasskey : Option UInt8) : APIInsertUser where
  id := 1
  groupId := 1
  passkey := List.replicate 32 passkey
  newPasskey := newPasskey.map (List.replicate 32)
  canDownload := true
  numSeeding := 0
  numLeeching := 0
  isDonor := false
  isLifetime := false

def env (now : ℤ) : Env ℝ where
  now := time now
  connectivityNow := time now
  accepts := true
  systemTime := 0
  chooseSeeds peers n := peers.take n
  chooseLeeches peers n := peers.take n
  interval := 1800

/-- An announce of the user for a torrent. -/
def request (torrent peer : UInt8) (event : AnnounceEvent) (left : UInt64) : AnnounceRequest where
  passkey := List.replicate 32 0x61
  queries := {
    infoHash := infoHash torrent
    peerId := peerId peer
    port := 51413
    uploaded := 0
    downloaded := 0
    left := left
    event := event
    numwant := 15
    corrupt := none
    key := none }
  headers := [("user-agent", ascii "Transmission/4.0")]
  clientIp := address

/-- The same announce with a total upload. -/
def uploading (uploaded : UInt64) (request : AnnounceRequest) : AnnounceRequest :=
  { request with queries.uploaded := uploaded }

/-- A request about torrent 1. -/
def torrentRequest : APIInsertTorrent where
  id := 1
  status := .approved
  infoHash := (List.replicate 20 [0x30, 0x31]).flatten
  isDeleted := false
  seeders := 0
  leechers := 0
  timesCompleted := 0
  downloadFactor := 100
  uploadFactor := 100

/-- A database with one user, one torrent and one seeder. -/
def database (connectable : Bool) : Database where
  torrents := .insert .empty 1 {
    status := 1
    infoHash := infoHash 1
    seeders := 0
    leechers := 0
    timesCompleted := 0
    free := 0
    doubleup := false
    deletedAt := none }
  users := .insert .empty 1 {
    groupId := 1
    passkey := passkey 0x61
    canDownload := true
    isDonor := false
    isLifetime := false
    deletedAt := none }
  peers := .insert .empty ⟨1, 1, peerId 1⟩ {
    ip := some address
    port := 51413
    agent := ascii "Transmission/4.0"
    uploaded := 0
    downloaded := 0
    left := 0
    active := true
    seeder := true
    visible := true
    createdAt := some (time 0)
    updatedAt := some (time 0)
    connectable := connectable }
  groups := .empty
  freeleechTokens := []
  personalFreeleeches := []
  featuredTorrents := []
  blacklistClients := []

/-- The site with one seeder, whose user is in a group. -/
def databaseWithGroup : Database :=
  { database true with groups := .insert .empty 1 {
      slug := "user"
      downloadSlots := none
      isImmune := false
      isFreeleech := false
      isDoubleUpload := false } }

/-- An update for the history of a client that goes on uploading. -/
def historyUpdate (now : ℤ) (uploaded : UInt64) : HistoryUpdate where
  userAgent := ascii "Transmission/4.0"
  isActive := true
  isSeeder := true
  isImmune := false
  uploaded := uploaded
  downloaded := 0
  uploadedDelta := 0
  downloadedDelta := 0
  creditedUploadedDelta := 0
  creditedDownloadedDelta := 0
  completedAt := none
  createdAt := time now
  updatedAt := time now

/-- An update for the row of a seeder that goes on uploading. -/
def peerUpdate (now : ℤ) (uploaded : UInt64) : PeerUpdate where
  ip := address
  port := 51413
  agent := ascii "Transmission/4.0"
  uploaded := uploaded
  downloaded := 0
  isActive := true
  isSeeder := true
  isVisible := true
  left := 0
  createdAt := time now
  updatedAt := time now
  connectable := true

/-- A whole announce between the first two sections of an upsert. -/
def missingSchedule : List (Unit ⊕ Bool) := .inr true :: List.replicate 20 (.inl ())

/-- After the announce, two upserts that both take something out before one puts it back. -/
def overlappingSchedule : List (Unit ⊕ Bool) :=
  List.replicate 20 (.inl ()) ++
    [.inr true, .inr false, .inr true, .inr true, .inr false, .inr false]

/-- The error of a result. Unlike the result of an accepted announce, it can be compared. -/
def error? {A : Type} : Except AnnounceError A → Option AnnounceError
  | .ok _ => none
  | .error e => some e

lemma eq_error_of_error? {A : Type} {r : Except AnnounceError A} {e : AnnounceError}
    (h : error? r = some e) : r = .error e := by
  cases r with
  | ok a => simp [error?] at h
  | error e' =>
    simp only [error?, Option.some_inj] at h
    rw [h]

end Sample

end Unit3dAnnounce
