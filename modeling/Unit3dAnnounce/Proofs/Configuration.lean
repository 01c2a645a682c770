import Unit3dAnnounce.Machine.Fallible
import Unit3dAnnounce.Model.Background
import Unit3dAnnounce.Model.Sample
import Unit3dAnnounce.Proofs.Batching

/-!
# Configurations and background work

Every setting is checked where it is read, and mostly for its type alone. What the scheduler, the
flush and the connectivity check compute from the settings can still go wrong.
-/

namespace Unit3dAnnounce

open Fallible

variable {F : Type}

section Settings

variable {A : Type} {env : Environment} {name message : String} {parse : Text → Option A} {a : A}

lemma orContext_eq_ok {context : String} {value : Option A} :
    orContext context value = .ok a ↔ value = some a := by
  cases value <;> simp [orContext]

lemma withContext_eq_ok {context : String} {result : Except EnvFailure A} :
    withContext context result = .ok a ↔ result = .ok a := by
  rcases result with (_ | _) | _ <;> simp [withContext]

lemma withContext_eq_panic {context : String} {result : Except EnvFailure A} :
    withContext context result = .error .panic ↔ result = .error .panic := by
  rcases result with (_ | _) | _ <;> simp [withContext]

lemma required_eq_ok {value : Text} : required env name = .ok value ↔ env name = some value :=
  orContext_eq_ok

lemma setting_eq_ok : setting env name parse message = .ok a ↔ (env name).bind parse = some a := by
  unfold setting
  simp only [bind_eq_ok, required_eq_ok, orContext_eq_ok, Option.bind_eq_some_iff]

lemma optional_eq_ok {value : Option A} :
    optional env name parse message = .ok value ↔ (env name).map parse = value.map some := by
  unfold optional orContext
  cases env name with
  | none => cases value <;> simp
  | some text =>
    cases hparse : parse text with
    | none => cases value <;> simp [Except.map, hparse]
    | some a => cases value <;> simp [Except.map, hparse]

lemma ensure_eq_ok {condition : Bool} {result : Unit} :
    ensure condition message = .ok result ↔ condition = true := by
  cases condition <;> simp [ensure]

/-- A check that is made in one case only. -/
lemma ite_ensure_eq_ok {c : Prop} [Decidable c] {condition : Bool} {result : A} :
    (if c then do ensure condition message; pure a else pure a) = (.ok result : Except EnvFailure A) ↔
      (c → condition = true) ∧ a = result := by
  by_cases hc : c
  · simp [hc, bind_eq_ok, ensure_eq_ok, pure, Except.pure]
  · simp [hc, pure, Except.pure]

/-- An error that is reported, which no panic is. -/
def IsReported (e : EnvFailure) : Prop := e ≠ .panic

lemma ne_panic {result : Except EnvFailure A} (h : Tolerable IsReported result) :
    result ≠ .error .panic :=
  fun hpanic => h .panic hpanic rfl

lemma tolerable_orContext (context : String) (value : Option A) :
    Tolerable IsReported (orContext context value) := by
  rintro e he rfl
  cases value <;> simp [orContext] at he

lemma tolerable_required : Tolerable IsReported (required env name) := tolerable_orContext _ _

lemma tolerable_setting : Tolerable IsReported (setting env name parse message) :=
  tolerable_required.bind fun _ => tolerable_orContext _ _

lemma tolerable_optional : Tolerable IsReported (optional env name parse message) := by
  rintro e he rfl
  unfold optional orContext at he
  cases hvalue : env name with
  | none => simp [hvalue] at he
  | some value => cases hparse : parse value <;> simp [hvalue, Except.map, hparse] at he

lemma tolerable_ensure {condition : Bool} : Tolerable IsReported (ensure condition message) := by
  rintro e he rfl
  cases condition <;> simp [ensure] at he

end Settings

/-- The settings that are read first. Some are compared with each other, and most are not. -/
structure ServerAccepts (env : Environment) (config : Config F) : Prop where
  flushIntervalMilliseconds : (env "FLUSH_INTERVAL_MILLISECONDS").bind parseNonZeroU64 =
    some config.flushIntervalMilliseconds
  maxBatchesPerFlush : (env "MAX_BATCHES_PER_FLUSH").bind parseU64 = some config.maxBatchesPerFlush
  maxRecordsPerBatch : (env "MAX_RECORDS_PER_BATCH").map parseU64 =
    config.maxRecordsPerBatch.map some
  numwantDefault : (env "NUMWANT_DEFAULT").bind parseU64 = some config.numwantDefault
  numwantMax : (env "NUMWANT_MAX").bind parseU64 = some config.numwantMax
  announceMin : (env "ANNOUNCE_MIN").bind parseU32 = some config.announceMin
  announceMinEnforced : (env "ANNOUNCE_MIN_ENFORCED").bind parseU32 = some config.announceMinEnforced
  announceMinEnforced_le : config.announceMinEnforced ≤ config.announceMin
  announceMax : (env "ANNOUNCE_MAX").bind parseU32 = some config.announceMax
  announceMax_ge : config.announceMax ≥ config.announceMin
  uploadFactor : (env "UPLOAD_FACTOR").bind parseU8 = some config.uploadFactor
  downloadFactor : (env "DOWNLOAD_FACTOR").bind parseU8 = some config.downloadFactor
  peerExpiryInterval : (env "PEER_EXPIRY_INTERVAL").bind parseNonZeroU64 =
    some config.peerExpiryInterval
  activePeerTtl : (env "ACTIVE_PEER_TTL").bind parseU64 = some config.activePeerTtl
  activePeerTtl_gt : config.activePeerTtl > config.announceMax.toUInt64
  inactivePeerTtl : (env "INACTIVE_PEER_TTL").bind parseU64 = some config.inactivePeerTtl
  listeningIpAddress : (env "LISTENING_IP_ADDRESS").map IpAddr.fromStr =
    config.listeningIpAddress.map some
  listeningPort : (env "LISTENING_PORT").map parseU16 = config.listeningPort.map some
  listeningUnixSocket : env "LISTENING_UNIX_SOCKET" = config.listeningUnixSocket
  socket_or_address : config.listeningUnixSocket.isNone = config.listeningIpAddress.isSome ∧
    config.listeningUnixSocket.isNone = config.listeningPort.isSome
  maxPeersPerTorrentPerUser : (env "MAX_PEERS_PER_TORRENT_PER_USER").bind parseU16 =
    some config.maxPeersPerTorrentPerUser
  isConnectivityCheckEnabled : (env "IS_CONNECTIVITY_CHECK_ENABLED").bind parseBool =
    some config.isConnectivityCheckEnabled
  connectivityCheckInterval : (env "CONNECTIVITY_CHECK_INTERVAL").bind parseI64 =
    some config.connectivityCheckInterval
  requirePeerConnectivity : (env "REQUIRE_PEER_CONNECTIVITY").bind parseBool =
    some config.requirePeerConnectivity
  isAnnounceLoggingEnabled : (env "IS_ANNOUNCE_LOGGING_ENABLED").bind parseBool =
    some config.isAnnounceLoggingEnabled
  reverseProxyClientIpHeaderName : env "REVERSE_PROXY_CLIENT_IP_HEADER_NAME" =
    config.reverseProxyClientIpHeaderName
  proxied_socket : config.listeningUnixSocket.isSome → config.reverseProxyClientIpHeaderName.isSome

/-- The configuration with the settings that are read last. -/
def Config.withUser (config : Config F) (user : UserSettings F) : Config F :=
  { config with
    apikey := user.apikey
    userReceiveSeedListRateLimits := user.userReceiveSeedListRateLimits
    userReceiveLeechListRateLimits := user.userReceiveLeechListRateLimits
    donorImmunityOverride := user.donorImmunityOverride
    donorUploadFactorOverride := user.donorUploadFactorOverride
    donorDownloadFactorOverride := user.donorDownloadFactorOverride
    lifetimeDonorImmunityOverride := user.lifetimeDonorImmunityOverride
    lifetimeDonorUploadFactorOverride := user.lifetimeDonorUploadFactorOverride
    lifetimeDonorDownloadFactorOverride := user.lifetimeDonorDownloadFactorOverride }

/-- There is an address and a port, or there is a socket. -/
lemma exclusive_iff (ip : Option IpAddr) (port : Option UInt16) (socket : Option Text) :
    ((ip.isSome == port.isSome) = true ∧
      ((ip.isSome && port.isSome && socket.isNone) ||
        (ip.isNone && port.isNone && socket.isSome)) = true) ↔
      socket.isNone = ip.isSome ∧ socket.isNone = port.isSome := by
  cases ip <;> cases port <;> cases socket <;> simp

lemma serverFromEnv_sound (env : Environment) :
    Returns (fun make => ∀ user, ServerAccepts env (make user))
      (Config.serverFromEnv env : Except EnvFailure (UserSettings F → Config F)) := by
  unfold Config.serverFromEnv
  refine .bind fun _ hflushInterval => .bind fun _ hmaxBatches => .bind fun _ hmaxRecords => ?_
  refine .bind fun _ hnumwantDefault => .bind fun _ hnumwantMax => ?_
  refine .bind fun _ hannounceMin => .bind fun _ hannounceMinEnforced => .bind fun _ hle => ?_
  refine .bind fun _ hannounceMax => .bind fun _ hge => ?_
  refine .bind fun _ huploadFactor => .bind fun _ hdownloadFactor => ?_
  refine .bind fun _ hpeerExpiryInterval => .bind fun _ hactivePeerTtl => .bind fun _ hgt => ?_
  refine .bind fun _ hinactivePeerTtl => ?_
  refine .bind fun ip hip => .bind fun port hport => .bind fun socket hsocket => ?_
  refine .bind fun _ htogether => .bind fun _ hexclusive => .bind fun _ hmaxPeers => ?_
  refine .bind fun _ hcheck => .bind fun _ hinterval => .bind fun _ hrequire => ?_
  refine .bind fun _ hlogging => ?_
  rintro make hmake user
  obtain ⟨hheader, rfl⟩ := ite_ensure_eq_ok.mp hmake
  have hlistener := (exclusive_iff ip port socket).mp
    ⟨ensure_eq_ok.mp htogether, ensure_eq_ok.mp hexclusive⟩
  exact ⟨setting_eq_ok.mp hflushInterval, setting_eq_ok.mp hmaxBatches, optional_eq_ok.mp hmaxRecords,
    setting_eq_ok.mp hnumwantDefault, setting_eq_ok.mp hnumwantMax, setting_eq_ok.mp hannounceMin,
    setting_eq_ok.mp hannounceMinEnforced, of_decide_eq_true (ensure_eq_ok.mp hle),
    setting_eq_ok.mp hannounceMax, of_decide_eq_true (ensure_eq_ok.mp hge),
    setting_eq_ok.mp huploadFactor, setting_eq_ok.mp hdownloadFactor,
    setting_eq_ok.mp hpeerExpiryInterval, setting_eq_ok.mp hactivePeerTtl,
    of_decide_eq_true (ensure_eq_ok.mp hgt), setting_eq_ok.mp hinactivePeerTtl,
    optional_eq_ok.mp hip, optional_eq_ok.mp hport,
    Option.map_injective (Option.some_injective _) (optional_eq_ok.mp hsocket), hlistener,
    setting_eq_ok.mp hmaxPeers, setting_eq_ok.mp hcheck, setting_eq_ok.mp hinterval,
    setting_eq_ok.mp hrequire, setting_eq_ok.mp hlogging, rfl, hheader⟩

lemma serverFromEnv_complete {env : Environment} {config : Config F} (h : ServerAccepts env config) :
    Config.serverFromEnv env = .ok config.withUser := by
  obtain ⟨htogether, hexclusive⟩ := (exclusive_iff _ _ _).mpr h.socket_or_address
  unfold Config.serverFromEnv
  simp only [bind_eq_ok, setting_eq_ok, optional_eq_ok, ensure_eq_ok, ite_ensure_eq_ok]
  rw [h.reverseProxyClientIpHeaderName]
  exact ⟨_, h.flushIntervalMilliseconds, _, h.maxBatchesPerFlush, _, h.maxRecordsPerBatch,
    _, h.numwantDefault, _, h.numwantMax, _, h.announceMin, _, h.announceMinEnforced,
    (), decide_eq_true h.announceMinEnforced_le, _, h.announceMax, (), decide_eq_true h.announceMax_ge,
    _, h.uploadFactor, _, h.downloadFactor, _, h.peerExpiryInterval, _, h.activePeerTtl,
    (), decide_eq_true h.activePeerTtl_gt, _, h.inactivePeerTtl, _, h.listeningIpAddress,
    _, h.listeningPort, _, congrArg (Option.map some) h.listeningUnixSocket, (), htogether,
    (), hexclusive, _, h.maxPeersPerTorrentPerUser, _, h.isConnectivityCheckEnabled,
    _, h.connectivityCheckInterval, _, h.requirePeerConnectivity, _, h.isAnnounceLoggingEnabled,
    h.proxied_socket, rfl⟩

/-- The first part of the settings never panics. -/
lemma tolerable_serverFromEnv (env : Environment) :
    Tolerable IsReported
      (Config.serverFromEnv env : Except EnvFailure (UserSettings F → Config F)) := by
  unfold Config.serverFromEnv
  refine tolerable_setting.bind fun _ => ?_ -- the flush
  refine tolerable_setting.bind fun _ => ?_
  refine tolerable_optional.bind fun _ => ?_
  refine tolerable_setting.bind fun _ => ?_ -- the numbers of peers
  refine tolerable_setting.bind fun _ => ?_
  refine tolerable_setting.bind fun _ => ?_ -- the announce intervals
  refine tolerable_setting.bind fun _ => ?_
  refine tolerable_ensure.bind fun _ => ?_
  refine tolerable_setting.bind fun _ => ?_
  refine tolerable_ensure.bind fun _ => ?_
  refine tolerable_setting.bind fun _ => ?_ -- the factors
  refine tolerable_setting.bind fun _ => ?_
  refine tolerable_setting.bind fun _ => ?_ -- the lifetime of peers
  refine tolerable_setting.bind fun _ => ?_
  refine tolerable_ensure.bind fun _ => ?_
  refine tolerable_setting.bind fun _ => ?_
  refine tolerable_optional.bind fun _ => ?_ -- the listener
  refine tolerable_optional.bind fun _ => ?_
  refine tolerable_optional.bind fun _ => ?_
  refine tolerable_ensure.bind fun _ => ?_
  refine tolerable_ensure.bind fun _ => ?_
  refine tolerable_setting.bind fun _ => ?_ -- the connectivity check
  refine tolerable_setting.bind fun _ => ?_
  refine tolerable_setting.bind fun _ => ?_
  refine tolerable_setting.bind fun _ => ?_
  refine tolerable_setting.bind fun _ => ?_
  dsimp only
  split_ifs
  · exact tolerable_ensure.bind fun _ => tolerable_pure _
  · exact tolerable_pure _

/-- The text of the window of a pair, and that of its limit. -/
def windowText (pair : Text) : Text := Text.trim (pair.takeWhile (· ≠ equalSign))

def limitText (pair : Text) : Text := Text.trim ((pair.dropWhile (· ≠ equalSign)).drop 1)

/-- A window and its limit that are numbers. -/
def HasNumbers (pair : Text) (window : Binary64) : Prop :=
  Binary64.parse (windowText pair) = some window ∧ equalSign ∈ pair ∧
    (Binary64.parse (limitText pair)).isSome

/-- A pair whose window is a duration. -/
def IsRate (pair : Text) : Prop := ∃ window, HasNumbers pair window ∧ window.toNanoseconds.isSome

/-- A pair whose window is a number and no duration. -/
def HasImpossibleWindow (pair : Text) : Prop :=
  ∃ window, HasNumbers pair window ∧ window.toNanoseconds = none

section RateLimits

variable (ofBinary64 : Binary64 → F) (systemTime : F)

lemma parseF64_eq_ok {text : Text} {value : Binary64} :
    parseF64 text = .ok value ↔ Binary64.parse text = some value := by
  unfold parseF64 orContext
  cases Binary64.parse text <;> simp

lemma parseRate_eq_ok {pair : Text} :
    (∃ rate, parseRate ofBinary64 systemTime pair = .ok rate) ↔ IsRate pair := by
  unfold parseRate
  simp only [bind_eq_ok, parseF64_eq_ok, orContext_eq_ok, Option.ite_none_right_eq_some,
    Option.some.injEq]
  constructor
  · rintro ⟨rate, window, hwindow, _, ⟨hmem, rfl⟩, maxEvents, hmaxEvents, hrate⟩
    refine ⟨window, ⟨hwindow, hmem, Option.isSome_iff_exists.mpr ⟨maxEvents, hmaxEvents⟩⟩, ?_⟩
    cases hduration : window.toNanoseconds with
    | none => simp [hduration] at hrate
    | some duration => rfl
  · rintro ⟨window, ⟨hwindow, hmem, hlimit⟩, hduration⟩
    obtain ⟨maxEvents, hmaxEvents⟩ := Option.isSome_iff_exists.mp hlimit
    obtain ⟨duration, hduration⟩ := Option.isSome_iff_exists.mp hduration
    exact ⟨Rate.new ofBinary64 systemTime duration maxEvents, window, hwindow, _, ⟨hmem, rfl⟩,
      maxEvents, hmaxEvents, by rw [hduration]; rfl⟩

lemma parseRate_eq_panic {pair : Text} :
    parseRate ofBinary64 systemTime pair = .error .panic ↔ HasImpossibleWindow pair := by
  unfold parseRate
  simp only [bind_eq_error, parseF64, orContext_eq_ok, Option.ite_none_right_eq_some,
    Option.some.injEq, ne_panic (tolerable_orContext _ _), false_or]
  constructor
  · rintro ⟨window, hwindow, _, ⟨hmem, rfl⟩, maxEvents, hmaxEvents, hrate⟩
    refine ⟨window, ⟨hwindow, hmem, Option.isSome_iff_exists.mpr ⟨maxEvents, hmaxEvents⟩⟩, ?_⟩
    cases hduration : window.toNanoseconds with
    | none => rfl
    | some duration => simp [hduration, pure, Except.pure] at hrate
  · rintro ⟨window, ⟨hwindow, hmem, hlimit⟩, hduration⟩
    obtain ⟨maxEvents, hmaxEvents⟩ := Option.isSome_iff_exists.mp hlimit
    exact ⟨window, hwindow, _, ⟨hmem, rfl⟩, maxEvents, hmaxEvents, by rw [hduration]⟩

/-- Every pair of a string is a rate. -/
def AllRates (s : Text) : Prop := ∀ pair ∈ ratePairs s, IsRate pair

/-- The first pair of a string that is no rate has a window that is a number and no duration. -/
def PanicsOn (s : Text) : Prop :=
  ∃ before pair after, ratePairs s = before ++ pair :: after ∧ (∀ rate ∈ before, IsRate rate) ∧
    HasImpossibleWindow pair

lemma rateLimits_eq_ok {env : Environment} {name : String} :
    (∃ rates, rateLimits ofBinary64 systemTime env name = .ok rates) ↔
      ∃ s, env name = some s ∧ AllRates s := by
  unfold rateLimits RateCollection.newFromString required AllRates
  simp only [bind_eq_ok, orContext_eq_ok, withContext_eq_ok]
  constructor
  · rintro ⟨_, s, hs, rates, hrates, -⟩
    refine ⟨s, hs, fun pair hpair => ?_⟩
    exact (parseRate_eq_ok ofBinary64 systemTime).mp (mapM_eq_ok.mp ⟨rates, hrates⟩ pair hpair)
  · rintro ⟨s, hs, hall⟩
    obtain ⟨rates, hrates⟩ := mapM_eq_ok.mpr fun pair hpair =>
      (parseRate_eq_ok ofBinary64 systemTime).mpr (hall pair hpair)
    exact ⟨⟨rates⟩, s, hs, rates, hrates, rfl⟩

lemma rateLimits_eq_panic {env : Environment} {name : String} :
    rateLimits ofBinary64 systemTime env name = .error .panic ↔
      ∃ s, env name = some s ∧ PanicsOn s := by
  unfold rateLimits RateCollection.newFromString required PanicsOn
  simp only [bind_eq_error, orContext_eq_ok, withContext_eq_panic,
    ne_panic (tolerable_orContext _ _), false_or,
    mapM_eq_error, parseRate_eq_ok, parseRate_eq_panic]
  constructor
  · rintro ⟨s, hs, hpanics | ⟨_, -, himpossible⟩⟩
    · exact ⟨s, hs, hpanics⟩
    · simp [pure, Except.pure] at himpossible
  · rintro ⟨s, hs, hpanics⟩
    exact ⟨s, hs, Or.inl hpanics⟩

/-- The settings that are read last. -/
structure UserAccepts (env : Environment) (user : UserSettings F) : Prop where
  userReceiveSeedListRateLimits :
    rateLimits ofBinary64 systemTime env "USER_RECEIVE_SEED_LIST_RATE_LIMITS" =
      .ok user.userReceiveSeedListRateLimits
  userReceiveLeechListRateLimits :
    rateLimits ofBinary64 systemTime env "USER_RECEIVE_LEECH_LIST_RATE_LIMITS" =
      .ok user.userReceiveLeechListRateLimits
  donorImmunityOverride : (env "DONOR_IMMUNITY_OVERRIDE").map parseBool =
    user.donorImmunityOverride.map some
  donorUploadFactorOverride : (env "DONOR_UPLOAD_FACTOR_OVERRIDE").map parseU8 =
    user.donorUploadFactorOverride.map some
  donorDownloadFactorOverride : (env "DONOR_DOWNLOAD_FACTOR_OVERRIDE").map parseU8 =
    user.donorDownloadFactorOverride.map some
  lifetimeDonorImmunityOverride : (env "LIFETIME_DONOR_IMMUNITY_OVERRIDE").map parseBool =
    user.lifetimeDonorImmunityOverride.map some
  lifetimeDonorUploadFactorOverride : (env "LIFETIME_DONOR_UPLOAD_FACTOR_OVERRIDE").map parseU8 =
    user.lifetimeDonorUploadFactorOverride.map some
  lifetimeDonorDownloadFactorOverride : (env "LIFETIME_DONOR_DOWNLOAD_FACTOR_OVERRIDE").map parseU8 =
    user.lifetimeDonorDownloadFactorOverride.map some
  apikey : env "APIKEY" = some user.apikey
  apikey_length : user.apikey.length ≥ 32

lemma userFromEnv_eq_ok {env : Environment} {user : UserSettings F} :
    UserSettings.fromEnv ofBinary64 systemTime env = .ok user ↔
      UserAccepts ofBinary64 systemTime env user := by
  unfold UserSettings.fromEnv
  simp only [bind_eq_ok, required_eq_ok, optional_eq_ok, ensure_eq_ok]
  constructor
  · rintro ⟨_, hseed, _, hleech, _, hdonorImmunity, _, hdonorUpload, _, hdonorDownload,
      _, hlifetimeImmunity, _, hlifetimeUpload, _, hlifetimeDownload, _, hapikey, _, hlength, huser⟩
    obtain rfl := Except.ok.inj huser
    exact ⟨hseed, hleech, hdonorImmunity, hdonorUpload, hdonorDownload, hlifetimeImmunity,
      hlifetimeUpload, hlifetimeDownload, hapikey, of_decide_eq_true hlength⟩
  · intro h
    exact ⟨_, h.userReceiveSeedListRateLimits, _, h.userReceiveLeechListRateLimits,
      _, h.donorImmunityOverride, _, h.donorUploadFactorOverride, _, h.donorDownloadFactorOverride,
      _, h.lifetimeDonorImmunityOverride, _, h.lifetimeDonorUploadFactorOverride,
      _, h.lifetimeDonorDownloadFactorOverride, _, h.apikey, (), decide_eq_true h.apikey_length, rfl⟩

/-- The settings that are read last, of a configuration. -/
def Config.userSettings (config : Config F) : UserSettings F where
  userReceiveSeedListRateLimits := config.userReceiveSeedListRateLimits
  userReceiveLeechListRateLimits := config.userReceiveLeechListRateLimits
  donorImmunityOverride := config.donorImmunityOverride
  donorUploadFactorOverride := config.donorUploadFactorOverride
  donorDownloadFactorOverride := config.donorDownloadFactorOverride
  lifetimeDonorImmunityOverride := config.lifetimeDonorImmunityOverride
  lifetimeDonorUploadFactorOverride := config.lifetimeDonorUploadFactorOverride
  lifetimeDonorDownloadFactorOverride := config.lifetimeDonorDownloadFactorOverride
  apikey := config.apikey

/-- The values of the environment are those of the configuration, and pass the checks. -/
def Accepts (env : Environment) (config : Config F) : Prop :=
  ServerAccepts env config ∧ UserAccepts ofBinary64 systemTime env config.userSettings

lemma fromEnv_eq_ok {env : Environment} {config : Config F} :
    Config.fromEnv ofBinary64 systemTime env = .ok config ↔
      Accepts ofBinary64 systemTime env config := by
  unfold Config.fromEnv Accepts
  simp only [bind_eq_ok, userFromEnv_eq_ok]
  constructor
  · rintro ⟨make, hmake, user, huser, hconfig⟩
    obtain rfl := Except.ok.inj hconfig
    have hserver := serverFromEnv_sound env make hmake user
    have hsame : make = (make user).withUser :=
      Except.ok.inj (hmake.symm.trans (serverFromEnv_complete hserver))
    have huserSettings : (make user).userSettings = user := by
      rw [hsame]
      rfl
    rw [huserSettings]
    exact ⟨hserver, huser⟩
  · rintro ⟨hserver, huser⟩
    exact ⟨config.withUser, serverFromEnv_complete hserver, config.userSettings, huser, rfl⟩

/-- The settings that are read after the rate limits never panic. -/
lemma userFromEnv_eq_panic {env : Environment} :
    UserSettings.fromEnv ofBinary64 systemTime env = .error .panic ↔
      rateLimits ofBinary64 systemTime env "USER_RECEIVE_SEED_LIST_RATE_LIMITS" = .error .panic ∨
      (∃ rates, rateLimits ofBinary64 systemTime env "USER_RECEIVE_SEED_LIST_RATE_LIMITS" = .ok rates) ∧
      rateLimits ofBinary64 systemTime env "USER_RECEIVE_LEECH_LIST_RATE_LIMITS" = .error .panic := by
  rw [UserSettings.fromEnv, bind_eq_error]
  constructor
  · rintro (hseed | ⟨seed, hseed, hrest⟩)
    · exact Or.inl hseed
    · rcases bind_eq_error.mp hrest with hleech | ⟨leech, -, hrest⟩
      · exact Or.inr ⟨⟨seed, hseed⟩, hleech⟩
      · refine absurd hrest (ne_panic ?_)
        refine tolerable_optional.bind fun _ => ?_ -- the overrides
        refine tolerable_optional.bind fun _ => ?_
        refine tolerable_optional.bind fun _ => ?_
        refine tolerable_optional.bind fun _ => ?_
        refine tolerable_optional.bind fun _ => ?_
        refine tolerable_optional.bind fun _ => ?_
        refine tolerable_required.bind fun _ => ?_
        exact tolerable_ensure.bind fun _ => tolerable_pure _
  · rintro (hseed | ⟨⟨seed, hseed⟩, hleech⟩)
    · exact Or.inl hseed
    · exact Or.inr ⟨seed, hseed, bind_eq_error.mpr (Or.inl hleech)⟩

/-- The settings are valid up to a rate limit whose window is a number and no duration. -/
def ReadsImpossibleWindow (F : Type) (env : Environment) : Prop :=
  (∃ config : Config F, ServerAccepts env config) ∧
    ∃ seedList, env "USER_RECEIVE_SEED_LIST_RATE_LIMITS" = some seedList ∧
      (PanicsOn seedList ∨ AllRates seedList ∧
        ∃ leechList, env "USER_RECEIVE_LEECH_LIST_RATE_LIMITS" = some leechList ∧ PanicsOn leechList)

lemma fromEnv_eq_panic {env : Environment} :
    Config.fromEnv ofBinary64 systemTime env = .error .panic ↔ ReadsImpossibleWindow F env := by
  have huser : UserSettings.fromEnv ofBinary64 systemTime env = .error .panic ↔
      ∃ seedList, env "USER_RECEIVE_SEED_LIST_RATE_LIMITS" = some seedList ∧
        (PanicsOn seedList ∨ AllRates seedList ∧
          ∃ leechList, env "USER_RECEIVE_LEECH_LIST_RATE_LIMITS" = some leechList ∧
            PanicsOn leechList) := by
    rw [userFromEnv_eq_panic, rateLimits_eq_panic, rateLimits_eq_panic, rateLimits_eq_ok]
    constructor
    · rintro (⟨seedList, hseed, hpanics⟩ | ⟨⟨seedList, hseed, hrates⟩, hleech⟩)
      · exact ⟨seedList, hseed, Or.inl hpanics⟩
      · exact ⟨seedList, hseed, Or.inr ⟨hrates, hleech⟩⟩
    · rintro ⟨seedList, hseed, hpanics | ⟨hrates, hleech⟩⟩
      · exact Or.inl ⟨seedList, hseed, hpanics⟩
      · exact Or.inr ⟨⟨seedList, hseed, hrates⟩, hleech⟩
  rw [Config.fromEnv, bind_eq_error, ReadsImpossibleWindow, ← huser]
  constructor
  · rintro (hserver | ⟨make, hmake, hrest⟩)
    · exact absurd hserver (ne_panic (tolerable_serverFromEnv env))
    · rcases bind_eq_error.mp hrest with hpanic | ⟨user, -, himpossible⟩
      · -- any settings may come last here
        have user : UserSettings F := ⟨⟨[]⟩, ⟨[]⟩, none, none, none, none, none, none, []⟩
        exact ⟨⟨make user, serverFromEnv_sound env make hmake user⟩, hpanic⟩
      · simp [pure, Except.pure] at himpossible
  · rintro ⟨⟨config, hserver⟩, hpanic⟩
    exact Or.inr ⟨config.withUser, serverFromEnv_complete hserver,
      bind_eq_error.mpr (Or.inl hpanic)⟩

end RateLimits

lemma parseNonZeroU64_ne {text : Text} {value : UInt64} (h : parseNonZeroU64 text = some value) :
    value ≠ 0 := by
  have hfilter := (Option.filter_eq_some_iff.mp h).2
  simpa using hfilter

lemma checkedAddU64_isSome (x y : UInt64) :
    (checkedAddU64 x y).isSome = true ↔ x.toNat + y.toNat < 2 ^ 64 := by
  rw [checkedAddU64, Option.isSome_ite]

lemma checkedMulU64_isSome (x y : UInt64) :
    (checkedMulU64 x y).isSome = true ↔ x.toNat * y.toNat < 2 ^ 64 := by
  rw [checkedMulU64, Option.isSome_ite]

lemma toNat_of_checkedMulU64 {x y product : UInt64} (h : checkedMulU64 x y = some product) :
    product.toNat = x.toNat * y.toNat := by
  unfold checkedMulU64 at h
  split_ifs at h with hfits
  obtain rfl := Option.some.inj h
  rw [UInt64.toNat_mul]
  exact Nat.mod_eq_of_lt hfits

lemma durationSeconds_isSome (n : ℤ) :
    (durationSeconds n).isSome = true ↔ |n| ≤ (2 ^ 63 - 1) / 1000 := by
  rw [durationSeconds, Option.isSome_ite]

lemma schedulerTick_isSome {config : Config F} (hflush : config.flushIntervalMilliseconds ≠ 0)
    (hexpiry : config.peerExpiryInterval ≠ 0) (counter : UInt64) :
    (schedulerTick config counter).isSome = true ↔
      counter.toNat + 1 < 2 ^ 64 ∧ config.peerExpiryInterval.toNat * 1000 < 2 ^ 64 := by
  have hadd : (checkedAddU64 counter 1).isSome = true ↔ counter.toNat + 1 < 2 ^ 64 :=
    checkedAddU64_isSome counter 1
  have hmul : (checkedMulU64 config.peerExpiryInterval 1000).isSome = true ↔
      config.peerExpiryInterval.toNat * 1000 < 2 ^ 64 := checkedMulU64_isSome _ 1000
  rw [← hadd, ← hmul, schedulerTick]
  cases checkedAddU64 counter 1 with
  | none => simp
  | some counter =>
    cases hproduct : checkedMulU64 config.peerExpiryInterval 1000 with
    | none => simp [checkedRemU64, hflush]
    | some peerExpiryMilliseconds =>
      have hne : peerExpiryMilliseconds ≠ 0 := by
        rintro rfl
        have hzero : 0 = config.peerExpiryInterval.toNat * 1000 := toNat_of_checkedMulU64 hproduct
        exact hexpiry (UInt64.toNat_inj.mp (by rw [UInt64.toNat_zero]; omega))
      simp [checkedRemU64, hflush, hne]

/-- Of the times of the calendar, the cutoff is the one that is so many seconds earlier. -/
lemma cutoff_isSome {now : DateTime} (hmin : DateTime.minUtc ≤ now) (hmax : now ≤ DateTime.maxUtc)
    (ttl : UInt64) : (cutoff now ttl).isSome = true ↔ DateTime.minUtc ≤ now - seconds ttl.toNat := by
  unfold cutoff checkedSubSigned checkedAddSigned
  unfold DateTime.minUtc DateTime.maxUtc seconds DateTime at *
  by_cases hduration : ttl.toNat ≤ (2 ^ 63 - 1) / 1000
  · rw [if_pos hduration, Option.isSome_ite]
    omega
  · rw [if_neg hduration]
    simp only [Option.isSome_none, Bool.false_eq_true, false_iff]
    omega

lemma reap_isSome {config : Config F} {activeNow inactiveNow : DateTime} (state : AppState F)
    (hactiveMin : DateTime.minUtc ≤ activeNow) (hactiveMax : activeNow ≤ DateTime.maxUtc)
    (hinactiveMin : DateTime.minUtc ≤ inactiveNow) (hinactiveMax : inactiveNow ≤ DateTime.maxUtc) :
    (reap config activeNow inactiveNow state).isSome = true ↔
      DateTime.minUtc ≤ activeNow - seconds config.activePeerTtl.toNat ∧
        DateTime.minUtc ≤ inactiveNow - seconds config.inactivePeerTtl.toNat := by
  rw [← cutoff_isSome hactiveMin hactiveMax, ← cutoff_isSome hinactiveMin hinactiveMax, reap]
  cases cutoff activeNow config.activePeerTtl with
  | none => simp
  | some activeCutoff => cases cutoff inactiveNow config.inactivePeerTtl <;> simp

lemma historyBindings_isSome {config : Config F} {now : DateTime}
    {batch : Batch HistoryUpdate.Index HistoryUpdate} :
    (batch.historyBindings config now).isSome = true ↔
      (batch.size ≠ 0 → config.activePeerTtl.toNat + config.peerExpiryInterval.toNat < 2 ^ 64) := by
  rw [← checkedAddU64_isSome, Batch.historyBindings]
  by_cases hzero : batch.size = 0
  · simp [hzero]
  · cases checkedAddU64 config.activePeerTtl config.peerExpiryInterval <;> simp [hzero]

/-- Where the TTL of the statement does not overflow, these are the values of the statement. -/
lemma historyBindings_eq {config : Config F}
    (hfits : config.activePeerTtl.toNat + config.peerExpiryInterval.toNat < 2 ^ 64) (now : DateTime)
    (batch : Batch HistoryUpdate.Index HistoryUpdate) :
    batch.historyBindings config now = some (batch.bindings config now) := by
  unfold Batch.historyBindings Batch.bindings checkedAddU64
  by_cases hzero : batch.size = 0
  · rw [if_pos hzero, if_pos hzero]
  · rw [if_neg hzero, if_neg hzero, if_pos hfits]
    rfl

lemma cachedConnectivity_isSome {config : Config F} {now : DateTime}
    {connectablePort : Option ConnectablePort} :
    (cachedConnectivity config now connectablePort).isSome = true ↔
      (config.isConnectivityCheckEnabled = true → connectablePort.isSome = true →
        |config.connectivityCheckInterval| ≤ (2 ^ 63 - 1) / 1000) := by
  rw [← durationSeconds_isSome]
  unfold cachedConnectivity
  cases config.isConnectivityCheckEnabled with
  | false => simp
  | true =>
    cases connectablePort with
    | none => simp
    | some connectablePort =>
      cases durationSeconds config.connectivityCheckInterval with
      | none => simp
      | some ttl => simp [apply_ite Option.isSome]

/-- Where the interval is a duration, an announce finds in the cache what its check looks for there. -/
lemma cachedConnectivity_eq {config : Config F} (henabled : config.isConnectivityCheckEnabled = true)
    (hinterval : |config.connectivityCheckInterval| ≤ (2 ^ 63 - 1) / 1000) (now : DateTime)
    (connectablePort : Option ConnectablePort) :
    cachedConnectivity config now connectablePort =
      some ((connectablePort.filter fun connectablePort =>
        (checkedAddSigned connectablePort.updatedAt (seconds config.connectivityCheckInterval)).any
          fun cachedUntil => decide (now < cachedUntil)).map ConnectablePort.connectable) := by
  unfold cachedConnectivity durationSeconds
  rw [henabled, if_pos hinterval]
  cases connectablePort with
  | none => rfl
  | some connectablePort =>
    rw [Option.filter_some, apply_ite (Option.map ConnectablePort.connectable), apply_ite some]
    rfl

/-- The number of records that a flush may take does not overflow, whatever the queue holds. -/
def TakesWithin (K V : Type) (config : Config F) (queueConfig : QueueConfig) : Prop :=
  ∀ records : IndexMap K V, (Queue.takeLimit config ⟨records, queueConfig⟩).isSome = true

lemma takesWithin_iff {K V : Type} {config : Config F} {queueConfig : QueueConfig} :
    TakesWithin K V config queueConfig ↔ queueConfig.maxFlushSize config < 2 ^ 64 := by
  unfold TakesWithin Queue.takeLimit
  simp only [checkedMulU64_isSome]
  exact ⟨fun h => h .empty, fun h _ => h⟩

/-- What runs in the background under a configuration while the clock is between `start` and the last
time of the calendar. The scheduler counts the milliseconds since then. -/
structure BackgroundSafe (start : DateTime) (config : Config F) : Prop where
  handle : ∀ counter : UInt64, start + counter.toNat * 10 ^ 6 ≤ DateTime.maxUtc →
    (schedulerTick config counter).isSome = true
  reap : ∀ activeNow inactiveNow : DateTime, start ≤ activeNow → activeNow ≤ DateTime.maxUtc →
    start ≤ inactiveNow → inactiveNow ≤ DateTime.maxUtc →
    ∀ state : AppState F, (reap config activeNow inactiveNow state).isSome = true
  takeHistories : TakesWithin HistoryUpdate.Index HistoryUpdate config Queues.new.histories.config
  takePeers : TakesWithin PeerUpdate.Index PeerUpdate config Queues.new.peers.config
  takeTorrents : TakesWithin TorrentUpdate.Index TorrentUpdate config Queues.new.torrents.config
  takeUsers : TakesWithin UserUpdate.Index UserUpdate config Queues.new.users.config
  takeUnregisteredInfoHashes : TakesWithin UnregisteredInfoHashUpdate.Index UnregisteredInfoHashUpdate
    config Queues.new.unregisteredInfoHashes.config
  historyBindings : ∀ (now : DateTime) (batch : Batch HistoryUpdate.Index HistoryUpdate),
    (batch.historyBindings config now).isSome = true
  cachedConnectivity : ∀ (now : DateTime) (connectablePort : Option ConnectablePort),
    (cachedConnectivity config now connectablePort).isSome = true

/-- The bounds of the values that the background work computes with. -/
structure Config.IsBounded (start : DateTime) (config : Config F) : Prop where
  peerExpiryInterval : config.peerExpiryInterval.toNat * 1000 < 2 ^ 64
  activePeerTtl : DateTime.minUtc ≤ start - seconds config.activePeerTtl.toNat
  inactivePeerTtl : DateTime.minUtc ≤ start - seconds config.inactivePeerTtl.toNat
  batches : config.maxBatchesPerFlush.toNat *
    min 16383 ((config.maxRecordsPerBatch.map UInt64.toNat).getD 16383) < 2 ^ 64
  connectivityCheckInterval : config.isConnectivityCheckEnabled = true →
    |config.connectivityCheckInterval| ≤ (2 ^ 63 - 1) / 1000

lemma backgroundSafe_iff {start : DateTime} {config : Config F} (hmin : DateTime.minUtc ≤ start)
    (hmax : start ≤ DateTime.maxUtc) (hflush : config.flushIntervalMilliseconds ≠ 0)
    (hexpiry : config.peerExpiryInterval ≠ 0) :
    BackgroundSafe start config ↔ config.IsBounded start := by
  constructor
  · intro h
    have htick := (schedulerTick_isSome hflush hexpiry 0).mp (h.handle 0 (by simpa using hmax))
    have state : AppState F := ⟨.new, .empty, .empty, .empty, .empty, .empty, .empty, .empty, .empty,
      .empty, .empty, .empty⟩
    have hreap := (reap_isSome state hmin hmax hmin hmax).mp
      (h.reap start start (Int.le_refl _) hmax (Int.le_refl _) hmax state)
    have hbatches := takesWithin_iff.mp h.takeUnregisteredInfoHashes
    rw [maxFlushSize_unregisteredInfoHashes] at hbatches
    refine ⟨htick.2, hreap.1, hreap.2, hbatches, fun henabled => ?_⟩
    exact cachedConnectivity_isSome.mp (h.cachedConnectivity start (some ⟨true, start⟩)) henabled rfl
  · intro h
    have hwithin : ∀ (K V : Type) (queueConfig : QueueConfig), queueConfig.maxRecords ≤ 16383 →
        TakesWithin K V config queueConfig := by
      intro K V queueConfig hrecords
      rw [takesWithin_iff]
      have hlargest : queueConfig.maxFlushSize config ≤
          Queues.new.unregisteredInfoHashes.config.maxFlushSize config :=
        QueueConfig.maxFlushSize_le hrecords
      rw [maxFlushSize_unregisteredInfoHashes] at hlargest
      exact hlargest.trans_lt h.batches
    exact {
      handle := by
        intro counter hcounter
        rw [schedulerTick_isSome hflush hexpiry]
        refine ⟨?_, h.peerExpiryInterval⟩
        unfold DateTime.minUtc DateTime.maxUtc seconds DateTime at *
        omega
      reap := by
        intro activeNow inactiveNow hactive hactiveMax hinactive hinactiveMax state
        rw [reap_isSome state (hmin.trans hactive) hactiveMax (hmin.trans hinactive) hinactiveMax]
        exact ⟨h.activePeerTtl.trans (Int.sub_le_sub_right hactive _),
          h.inactivePeerTtl.trans (Int.sub_le_sub_right hinactive _)⟩
      takeHistories := hwithin _ _ _ (by decide)
      takePeers := hwithin _ _ _ (by decide)
      takeTorrents := hwithin _ _ _ (by decide)
      takeUsers := hwithin _ _ _ (by decide)
      takeUnregisteredInfoHashes := hwithin _ _ _ (by decide)
      historyBindings := by
        intro now batch
        rw [historyBindings_isSome]
        have hexpiry := h.peerExpiryInterval
        have hactive := h.activePeerTtl
        unfold DateTime.minUtc DateTime.maxUtc seconds DateTime at *
        omega
      cachedConnectivity := fun now connectablePort =>
        cachedConnectivity_isSome.mpr fun henabled _ => h.connectivityCheckInterval henabled }

/-- The same bounds of the settings of an environment. -/
structure SettingsBounded (start : DateTime) (env : Environment) : Prop where
  peerExpiryInterval : ∀ interval, (env "PEER_EXPIRY_INTERVAL").bind parseNonZeroU64 = some interval →
    interval.toNat * 1000 < 2 ^ 64
  activePeerTtl : ∀ ttl, (env "ACTIVE_PEER_TTL").bind parseU64 = some ttl →
    DateTime.minUtc ≤ start - seconds ttl.toNat
  inactivePeerTtl : ∀ ttl, (env "INACTIVE_PEER_TTL").bind parseU64 = some ttl →
    DateTime.minUtc ≤ start - seconds ttl.toNat
  batches : ∀ maxBatches maxRecords,
    (env "MAX_BATCHES_PER_FLUSH").bind parseU64 = some maxBatches →
    (env "MAX_RECORDS_PER_BATCH").map parseU64 = Option.map some maxRecords →
    maxBatches.toNat * min 16383 ((maxRecords.map UInt64.toNat).getD 16383) < 2 ^ 64
  connectivityCheckInterval : ∀ interval,
    (env "IS_CONNECTIVITY_CHECK_ENABLED").bind parseBool = some true →
    (env "CONNECTIVITY_CHECK_INTERVAL").bind parseI64 = some interval →
    |interval| ≤ (2 ^ 63 - 1) / 1000

lemma ServerAccepts.isBounded_iff {start : DateTime} {env : Environment} {config : Config F}
    (h : ServerAccepts env config) : config.IsBounded start ↔ SettingsBounded start env := by
  constructor
  · intro hbounded
    refine ⟨?_, ?_, ?_, ?_, ?_⟩
    · intro interval hinterval
      rw [h.peerExpiryInterval, Option.some_inj] at hinterval
      exact hinterval ▸ hbounded.peerExpiryInterval
    · intro ttl httl
      rw [h.activePeerTtl, Option.some_inj] at httl
      exact httl ▸ hbounded.activePeerTtl
    · intro ttl httl
      rw [h.inactivePeerTtl, Option.some_inj] at httl
      exact httl ▸ hbounded.inactivePeerTtl
    · intro maxBatches maxRecords hmaxBatches hmaxRecords
      rw [h.maxBatchesPerFlush, Option.some_inj] at hmaxBatches
      rw [h.maxRecordsPerBatch] at hmaxRecords
      obtain rfl := Option.map_injective (Option.some_injective _) hmaxRecords
      exact hmaxBatches ▸ hbounded.batches
    · intro interval henabled hinterval
      rw [h.isConnectivityCheckEnabled, Option.some_inj] at henabled
      rw [h.connectivityCheckInterval, Option.some_inj] at hinterval
      exact hinterval ▸ hbounded.connectivityCheckInterval henabled
  · intro hbounded
    refine ⟨hbounded.peerExpiryInterval _ h.peerExpiryInterval,
      hbounded.activePeerTtl _ h.activePeerTtl, hbounded.inactivePeerTtl _ h.inactivePeerTtl,
      hbounded.batches _ _ h.maxBatchesPerFlush h.maxRecordsPerBatch, fun henabled => ?_⟩
    refine hbounded.connectivityCheckInterval _ ?_ h.connectivityCheckInterval
    rw [h.isConnectivityCheckEnabled, henabled]

lemma ServerAccepts.flushIntervalMilliseconds_ne {env : Environment} {config : Config F}
    (h : ServerAccepts env config) : config.flushIntervalMilliseconds ≠ 0 := by
  obtain ⟨text, -, hparse⟩ := Option.bind_eq_some_iff.mp h.flushIntervalMilliseconds
  exact parseNonZeroU64_ne hparse

lemma ServerAccepts.peerExpiryInterval_ne {env : Environment} {config : Config F}
    (h : ServerAccepts env config) : config.peerExpiryInterval ≠ 0 := by
  obtain ⟨text, -, hparse⟩ := Option.bind_eq_some_iff.mp h.peerExpiryInterval
  exact parseNonZeroU64_ne hparse

/-- Neither reading the settings nor what runs under them panics exactly where every window that is
read is a duration, and settings that pass the checks are bounded. -/
theorem background_never_panics_iff (ofBinary64 : Binary64 → F) (systemTime : F) (env : Environment)
    {start : DateTime} (hmin : DateTime.minUtc ≤ start) (hmax : start ≤ DateTime.maxUtc) :
    (Config.fromEnv ofBinary64 systemTime env ≠ .error .panic ∧
      ∀ config, Config.fromEnv ofBinary64 systemTime env = .ok config → BackgroundSafe start config) ↔
    ¬ ReadsImpossibleWindow F env ∧
      ((∃ config, Accepts ofBinary64 systemTime env config) → SettingsBounded start env) := by
  rw [ne_eq, fromEnv_eq_panic]
  simp only [fromEnv_eq_ok]
  apply and_congr_right
  intro _
  constructor
  · rintro h ⟨config, haccepts⟩
    have hsafe := h config haccepts
    rw [backgroundSafe_iff hmin hmax haccepts.1.flushIntervalMilliseconds_ne
      haccepts.1.peerExpiryInterval_ne] at hsafe
    exact haccepts.1.isBounded_iff.mp hsafe
  · intro h config haccepts
    rw [backgroundSafe_iff hmin hmax haccepts.1.flushIntervalMilliseconds_ne
      haccepts.1.peerExpiryInterval_ne]
    exact haccepts.1.isBounded_iff.mpr (h ⟨config, haccepts⟩)

open Sample in
theorem background_never_panics_iff_sample :
    fromEnv [] ≠ .error .panic ∧ ∀ config, fromEnv [] = .ok config → BackgroundSafe (time 0) config := by
  have haccepts : Accepts ofBinary64 0 (environment []) config := (fromEnv_eq_ok ofBinary64 0).mp rfl
  refine (background_never_panics_iff ofBinary64 0 (environment []) (by decide) (by decide)).mpr
    ⟨?_, fun _ => haccepts.1.isBounded_iff.mp ?_⟩
  · rw [← fromEnv_eq_panic ofBinary64 0, (fromEnv_eq_ok ofBinary64 0).mpr haccepts]
    simp
  · exact ⟨by decide, by decide, by decide, by decide, by decide⟩

open Sample in
/-- A window of -1 second, and an expiry interval whose milliseconds wrap to zero. -/
theorem background_panics :
    fromEnv [("USER_RECEIVE_SEED_LIST_RATE_LIMITS", "-1=5")] = .error .panic ∧
      ∃ config, fromEnv [("PEER_EXPIRY_INTERVAL", "2305843009213693952")] = .ok config ∧
        ¬ BackgroundSafe (time 0) config := by
  refine ⟨?_, { config with peerExpiryInterval := 2305843009213693952 }, rfl, fun h => ?_⟩
  · have hserver : ServerAccepts (environment [("USER_RECEIVE_SEED_LIST_RATE_LIMITS", "-1=5")]) config :=
      serverFromEnv_sound _ config.withUser rfl config.userSettings
    refine (fromEnv_eq_panic ofBinary64 0).mpr ⟨⟨config, hserver⟩, ascii "-1=5", rfl, Or.inl ?_⟩
    refine ⟨[], ascii "-1=5", [], by decide, by simp, .finite (-1), ⟨?_, by decide, ?_⟩, ?_⟩
    · decide +kernel
    · decide +kernel
    · decide +kernel
  · exact absurd (h.handle 0 (by decide)) (by decide)

end Unit3dAnnounce
