import Unit3dAnnounce.Proofs.Traffic

/-!
# What an announce is credited

The credited deltas are what a peer has transferred, times a factor in percent that the site, the
group, the torrent and the benefits of the user decide.
-/

namespace Unit3dAnnounce

variable {F : Type}

/-- Everything that decides the factors of an announce. -/
structure CreditContext (F : Type) where
  config : Config F
  group : Group
  torrent : Torrent
  user : User F
  hasPersonalFreeleech : Bool
  hasFreeleechToken : Bool
  isFeatured : Bool

namespace CreditContext

variable (context : CreditContext F)

def isFreeleech : Bool :=
  context.hasPersonalFreeleech || context.hasFreeleechToken || context.isFeatured

def uploadFactor : UInt8 :=
  if context.isFeatured then 200
  else effectiveUploadFactor context.config context.group context.torrent context.user

def downloadFactor : UInt8 :=
  if context.isFreeleech then 0
  else effectiveDownloadFactor context.config context.group context.torrent context.user

/-- The products of the factors and these deltas are 64-bit numbers. -/
def Fits (deltas : Totals) : Prop :=
  context.uploadFactor.toNat * deltas.uploaded.toNat < 2 ^ 64 ∧
    context.downloadFactor.toNat * deltas.downloaded.toNat < 2 ^ 64

instance (deltas : Totals) : Decidable (context.Fits deltas) :=
  inferInstanceAs (Decidable (_ ∧ _))

end CreditContext

/-- What decides the factors of a request that is admitted in a state. -/
def Admission.creditContext (config : Config F) (state : AppState F) (admission : Admission F) :
    CreditContext F where
  config := config
  group := admission.group
  torrent := admission.torrent
  user := admission.user
  hasPersonalFreeleech := state.stores.personalFreeleeches.contains admission.userId
  hasFreeleechToken := state.stores.freeleechTokens.contains ⟨admission.userId, admission.torrentId⟩
  isFeatured := state.stores.featuredTorrents.contains admission.torrentId

/-- What a peer has transferred since it was stored. -/
def Announce.deltas (queries : Announce) (peer : Peer) : Totals :=
  if queries.event = .stopped then peer.totals.saturatingSince ⟨queries.uploaded, queries.downloaded⟩
  else peer.totals.since ⟨queries.uploaded, queries.downloaded⟩

section Announce

variable [RateField F] {config : Config F} {env : Env F} {request : AnnounceRequest}
  {state : AppState F} {a : Accepted F} {torrent torrent' : Torrent}

/-- An accepted announce credits what its context says. -/
lemma AcceptedBy.creditedDeltas (h : AcceptedBy config env request state a torrent torrent') :
    let context := Admission.creditContext config state
      ⟨a.userId, a.torrentId, a.user, a.group, torrent⟩
    a.creditedUploadedDelta = creditedDelta context.uploadFactor a.change.uploadedDelta ∧
      a.creditedDownloadedDelta = creditedDelta context.downloadFactor a.change.downloadedDelta := by
  obtain ⟨peers', -, htorrent, hresult⟩ := changeTorrent_ok h.torrents.change
  have hup : a.uploadFactor = effectiveUploadFactor config a.group torrent a.user := by
    rw [congrArg TorrentResult.uploadFactor hresult, htorrent]
    rfl
  have hdown : a.downloadFactor = effectiveDownloadFactor config a.group torrent a.user := by
    rw [congrArg TorrentResult.downloadFactor hresult, htorrent]
    rfl
  constructor
  · rw [congrArg Accepted.creditedUploadedDelta h.credited]
    simp only [TorrentResult.creditedIn, hup]
    rfl
  · rw [congrArg Accepted.creditedDownloadedDelta h.credited]
    simp only [TorrentResult.creditedIn, hdown]
    rfl

/-- The deltas of an announce of a stored peer. -/
lemma AcceptedBy.deltas (h : AcceptedBy config env request state a torrent torrent') {peer : Peer}
    (hpeer : torrent.peers.get? ⟨a.userId, request.queries.peerId⟩ = some peer) :
    a.change.uploadedDelta = (request.queries.deltas peer).uploaded ∧
      a.change.downloadedDelta = (request.queries.deltas peer).downloaded := by
  obtain ⟨peers', hchange, -, -⟩ := changeTorrent_ok h.torrents.change
  have hrecorded := changePeer_recorded hchange
  rw [hpeer, Option.map_some] at hrecorded
  have hdeltas : (⟨a.change.uploadedDelta, a.change.downloadedDelta⟩ : Totals) =
      request.queries.deltas peer := by
    simpa [TrafficReport.Recorded, Announce.trafficReport, Announce.deltas] using hrecorded
  rw [← hdeltas]
  exact ⟨rfl, rfl⟩

end Announce

lemma toNat_creditedDelta (factor : UInt8) (delta : UInt64) :
    (creditedDelta factor delta).toNat = factor.toNat * delta.toNat % 2 ^ 64 / 100 := by
  unfold creditedDelta
  rw [UInt64.toNat_div, UInt64.toNat_mul, UInt8.toNat_toUInt64]
  rfl

lemma toNat_creditedDelta_of_fits {factor : UInt8} {delta : UInt64}
    (h : factor.toNat * delta.toNat < 2 ^ 64) :
    (creditedDelta factor delta).toNat = factor.toNat * delta.toNat / 100 := by
  rw [toNat_creditedDelta, Nat.mod_eq_of_lt h]

/-- So many percent of a delta, rounded down, or the greatest 64-bit number if that is greater. -/
def exactCredit (factor : UInt8) (delta : UInt64) : ℕ :=
  min (factor.toNat * delta.toNat / 100) (2 ^ 64 - 1)

/-- A product that wraps is never credited exactly. -/
lemma creditedDelta_exact_iff (factor : UInt8) (delta : UInt64) :
    (creditedDelta factor delta).toNat = exactCredit factor delta ↔
      factor.toNat * delta.toNat < 2 ^ 64 := by
  unfold exactCredit
  rw [toNat_creditedDelta]
  generalize factor.toNat * delta.toNat = product
  omega

/-- What the queues of an announce are handed is so many percent of the deltas, exactly. -/
def Accepted.CreditsExactly (a : Accepted F) (config : Config F) (env : Env F)
    (request : AnnounceRequest) (context : CreditContext F) (deltas : Totals) : Prop :=
  let history := a.historyUpdate config env request
  (history.creditedUploadedDelta.toNat = exactCredit context.uploadFactor deltas.uploaded ∧
      a.userUpdate.uploadedDelta.toNat = exactCredit context.uploadFactor deltas.uploaded) ∧
    history.creditedDownloadedDelta.toNat = exactCredit context.downloadFactor deltas.downloaded ∧
      a.userUpdate.downloadedDelta.toNat = exactCredit context.downloadFactor deltas.downloaded

/-- An announce of a stored peer is credited exactly if and only if neither product wraps. -/
theorem credit_exact_iff [RateField F] (config : Config F) (env : Env F) (request : AnnounceRequest)
    (state : AppState F) (admission : Admission F) (peer : Peer) (a : Accepted F)
    (hadmission : request.admission state = some admission)
    (hpeer : admission.torrent.peers.get? ⟨admission.userId, request.queries.peerId⟩ = some peer)
    (h : ((announce config env request).run state).2 = .ok a) :
    a.CreditsExactly config env request (admission.creditContext config state)
        (request.queries.deltas peer) ↔
      (admission.creditContext config state).Fits (request.queries.deltas peer) := by
  obtain ⟨torrent, torrent', haccepted⟩ := announce_ok h
  have heq := Option.some_inj.mp (hadmission.symm.trans haccepted.admission)
  subst heq
  obtain ⟨hup, hdown⟩ := haccepted.creditedDeltas
  obtain ⟨hdu, hdd⟩ := haccepted.deltas hpeer
  rw [hdu] at hup
  rw [hdd] at hdown
  simp only [Accepted.CreditsExactly, Accepted.historyUpdate, Accepted.userUpdate, hup, hdown,
    creditedDelta_exact_iff, and_self, CreditContext.Fits]

/-- The site with a peer that has transferred nothing yet. -/
noncomputable def Sample.oneSeeder : AppState ℝ :=
  ((announce config (env 0) (request 1 1 .started 0)).run (state none [1])).1

/-- The peer, and the user and the torrent it is announced for. -/
def Sample.seederAdmission : Admission ℝ where
  userId := 1
  torrentId := 1
  user := { user 1 0x61 with numSeeding := 1 }
  group := group none
  torrent := { torrent 1 (.insert .empty ⟨1, peerId 1⟩ seeder) with seeders := 1 }
where
  seeder := Peer.fresh (time 0) (request 1 1 .started 0).queries address false false

theorem credit_exact_iff_sample :
    ∃ a : Accepted ℝ, a.CreditsExactly Sample.config (Sample.env 60)
      (Sample.uploading 1000 (Sample.request 1 1 .empty 0))
      (Sample.seederAdmission.creditContext Sample.config Sample.oneSeeder) ⟨1000, 0⟩ :=
  ⟨_, (credit_exact_iff Sample.config (Sample.env 60)
    (Sample.uploading 1000 (Sample.request 1 1 .empty 0)) Sample.oneSeeder Sample.seederAdmission
    Sample.seederAdmission.seeder _ rfl rfl rfl).mpr (by decide +kernel)⟩

/-- At a factor of 100, an upload of 2^60 wraps. -/
theorem credit_wraps :
    ¬ ∀ (admission : Admission ℝ) peer (a : Accepted ℝ),
      (Sample.uploading 1152921504606846976 (Sample.request 1 1 .empty 0)).admission Sample.oneSeeder =
        some admission →
      admission.torrent.peers.get? ⟨admission.userId, Sample.peerId 1⟩ = some peer →
      ((announce Sample.config (Sample.env 60)
        (Sample.uploading 1152921504606846976 (Sample.request 1 1 .empty 0))).run
          Sample.oneSeeder).2 = .ok a →
      a.CreditsExactly Sample.config (Sample.env 60)
        (Sample.uploading 1152921504606846976 (Sample.request 1 1 .empty 0))
        (admission.creditContext Sample.config Sample.oneSeeder)
        ((Sample.uploading 1152921504606846976 (Sample.request 1 1 .empty 0)).queries.deltas peer) := by
  intro h
  have hexact := (h Sample.seederAdmission Sample.seederAdmission.seeder _ rfl rfl rfl).1.2
  revert hexact
  decide +kernel

/-- The factors without what donors have. -/
def baseUploadFactor (config : Config F) (group : Group) (torrent : Torrent) : UInt8 :=
  max config.uploadFactor (max group.uploadFactor torrent.uploadFactor)

def baseDownloadFactor (config : Config F) (group : Group) (torrent : Torrent) : UInt8 :=
  min config.downloadFactor (min group.downloadFactor torrent.downloadFactor)

lemma toNat_maxU8 (x y : UInt8) : (max x y).toNat = max x.toNat y.toNat := by
  change (if x ≤ y then y else x).toNat = _
  by_cases h : x ≤ y
  · rw [if_pos h, Nat.max_eq_right (UInt8.le_iff_toNat_le.mp h)]
  · rw [if_neg h, Nat.max_eq_left (by rw [UInt8.le_iff_toNat_le] at h; omega)]

lemma toNat_minU8 (x y : UInt8) : (min x y).toNat = min x.toNat y.toNat := by
  change (if x ≤ y then x else y).toNat = _
  by_cases h : x ≤ y
  · rw [if_pos h, Nat.min_eq_left (UInt8.le_iff_toNat_le.mp h)]
  · rw [if_neg h, Nat.min_eq_right (by rw [UInt8.le_iff_toNat_le] at h; omega)]

/-- The better of two factors, the second one of which need not be there. -/
lemma toNat_effectiveUploadFactor (config : Config F) (group : Group) (torrent : Torrent)
    (user : User F) :
    (effectiveUploadFactor config group torrent user).toNat =
      max (baseUploadFactor config group torrent).toNat
        (if user.isLifetime then (config.lifetimeDonorUploadFactorOverride.map UInt8.toNat).getD 0
        else if user.isDonor then (config.donorUploadFactorOverride.map UInt8.toNat).getD 0
        else 0) := by
  unfold effectiveUploadFactor
  simp only
  split_ifs with hlifetime hdonor
  · cases config.lifetimeDonorUploadFactorOverride with
    | none => exact (Nat.max_zero _).symm
    | some override => exact toNat_maxU8 _ _
  · cases config.donorUploadFactorOverride with
    | none => exact (Nat.max_zero _).symm
    | some override => exact toNat_maxU8 _ _
  · exact (Nat.max_zero _).symm

lemma toNat_effectiveDownloadFactor (config : Config F) (group : Group) (torrent : Torrent)
    (user : User F) :
    (effectiveDownloadFactor config group torrent user).toNat =
      min (baseDownloadFactor config group torrent).toNat
        (if user.isLifetime then (config.lifetimeDonorDownloadFactorOverride.map UInt8.toNat).getD 255
        else if user.isDonor then (config.donorDownloadFactorOverride.map UInt8.toNat).getD 255
        else 255) := by
  have hbase : (baseDownloadFactor config group torrent).toNat ≤ 255 := by
    have := (baseDownloadFactor config group torrent).toNat_lt
    omega
  unfold effectiveDownloadFactor
  simp only
  split_ifs with hlifetime hdonor
  · cases config.lifetimeDonorDownloadFactorOverride with
    | none => exact (Nat.min_eq_left hbase).symm
    | some override => exact toNat_minU8 _ _
  · cases config.donorDownloadFactorOverride with
    | none => exact (Nat.min_eq_left hbase).symm
    | some override => exact toNat_minU8 _ _
  · exact (Nat.min_eq_left hbase).symm

/-- One override is as good as another one where it is no better than the base or than the other. -/
lemma max_override_le_iff (base : UInt8) (override lifetime : Option UInt8) :
    max base.toNat ((override.map UInt8.toNat).getD 0) ≤
        max base.toNat ((lifetime.map UInt8.toNat).getD 0) ↔
      ∀ x, override = some x → x ≤ base ∨ ∃ y, lifetime = some y ∧ x ≤ y := by
  cases override with
  | none => simp
  | some x =>
    cases lifetime with
    | none => simp [UInt8.le_iff_toNat_le]
    | some y =>
      simp only [Option.map_some, Option.getD_some, Option.some_inj, forall_eq', exists_eq_left',
        UInt8.le_iff_toNat_le]
      omega

lemma le_min_override_iff (base : UInt8) (override lifetime : Option UInt8) :
    min base.toNat ((lifetime.map UInt8.toNat).getD 255) ≤
        min base.toNat ((override.map UInt8.toNat).getD 255) ↔
      ∀ x, override = some x → base ≤ x ∨ ∃ y, lifetime = some y ∧ y ≤ x := by
  have hbase := base.toNat_lt
  cases override with
  | none =>
    simp only [Option.map_none, Option.getD_none, reduceCtorEq, false_implies, implies_true, iff_true]
    omega
  | some x =>
    have hx := x.toNat_lt
    cases lifetime with
    | none =>
      simp only [Option.map_some, Option.map_none, Option.getD_some, Option.getD_none, Option.some_inj,
        forall_eq', reduceCtorEq, false_and, exists_false, or_false, UInt8.le_iff_toNat_le]
      omega
    | some y =>
      simp only [Option.map_some, Option.getD_some, Option.some_inj, forall_eq', exists_eq_left',
        UInt8.le_iff_toNat_le]
      omega

/-- What can be granted to a user or a torrent. -/
inductive Benefit where
  | featuredTorrent
  | freeleechToken
  | personalFreeleech
  | donor
  | lifetimeDonor

namespace CreditContext

variable (context : CreditContext F)

def grant : Benefit → CreditContext F
  | .featuredTorrent => { context with isFeatured := true }
  | .freeleechToken => { context with hasFreeleechToken := true }
  | .personalFreeleech => { context with hasPersonalFreeleech := true }
  | .donor => { context with user := { context.user with isDonor := true } }
  | .lifetimeDonor => { context with user := { context.user with isLifetime := true } }

/-- The benefit lowers no credited upload and raises no credited download. -/
def NeverPunishes (benefit : Benefit) : Prop :=
  ∀ deltas, context.Fits deltas → (context.grant benefit).Fits deltas →
    creditedDelta context.uploadFactor deltas.uploaded ≤
        creditedDelta (context.grant benefit).uploadFactor deltas.uploaded ∧
      creditedDelta (context.grant benefit).downloadFactor deltas.downloaded ≤
        creditedDelta context.downloadFactor deltas.downloaded

/-- What donors have is not better than what lifetime donors have. -/
def LifetimeOutdoesDonor : Prop :=
  (context.isFeatured = true ∨ ∀ override, context.config.donorUploadFactorOverride = some override →
      override ≤ baseUploadFactor context.config context.group context.torrent ∨
        ∃ lifetime, context.config.lifetimeDonorUploadFactorOverride = some lifetime ∧
          override ≤ lifetime) ∧
    (context.isFreeleech = true ∨
      ∀ override, context.config.donorDownloadFactorOverride = some override →
        baseDownloadFactor context.config context.group context.torrent ≤ override ∨
          ∃ lifetime, context.config.lifetimeDonorDownloadFactorOverride = some lifetime ∧
            lifetime ≤ override)

/-- Where a benefit is none: featuring sets the factor to 200, whatever it was, and a lifetime donor
loses what donors have. -/
def Rewards : Benefit → Prop
  | .featuredTorrent => context.isFeatured = true ∨
      effectiveUploadFactor context.config context.group context.torrent context.user ≤ 200
  | .freeleechToken => True
  | .personalFreeleech => True
  | .donor => True
  | .lifetimeDonor => context.user.isDonor = true → context.user.isLifetime = false →
      context.LifetimeOutdoesDonor

variable {context}

lemma creditedDelta_mono {factor factor' : UInt8} {delta : UInt64} (h : factor ≤ factor')
    (hfits : factor'.toNat * delta.toNat < 2 ^ 64) :
    creditedDelta factor delta ≤ creditedDelta factor' delta := by
  have hle : factor.toNat * delta.toNat ≤ factor'.toNat * delta.toNat :=
    Nat.mul_le_mul_right _ (UInt8.le_iff_toNat_le.mp h)
  rw [UInt64.le_iff_toNat_le, toNat_creditedDelta_of_fits (lt_of_le_of_lt hle hfits),
    toNat_creditedDelta_of_fits hfits]
  exact Nat.div_le_div_right hle

/-- A delta of one hundred is credited with its factor. -/
lemma toNat_creditedDelta_hundred (factor : UInt8) : (creditedDelta factor 100).toNat = factor.toNat := by
  have hlt := factor.toNat_lt
  have hhundred : (100 : UInt64).toNat = 100 := rfl
  rw [toNat_creditedDelta_of_fits (by rw [hhundred]; omega), hhundred]
  exact Nat.mul_div_cancel _ (by norm_num)

/-- Over all deltas, credits compare as their factors do. -/
lemma neverPunishes_iff {benefit : Benefit} :
    context.NeverPunishes benefit ↔
      context.uploadFactor ≤ (context.grant benefit).uploadFactor ∧
        (context.grant benefit).downloadFactor ≤ context.downloadFactor := by
  constructor
  · intro h
    have hfits (context : CreditContext F) : context.Fits ⟨100, 100⟩ := by
      have hup := context.uploadFactor.toNat_lt
      have hdown := context.downloadFactor.toNat_lt
      have hhundred : (100 : UInt64).toNat = 100 := rfl
      unfold Fits
      rw [hhundred]
      omega
    obtain ⟨hup, hdown⟩ := h ⟨100, 100⟩ (hfits _) (hfits _)
    rw [UInt64.le_iff_toNat_le, toNat_creditedDelta_hundred, toNat_creditedDelta_hundred] at hup hdown
    exact ⟨UInt8.le_iff_toNat_le.mpr hup, UInt8.le_iff_toNat_le.mpr hdown⟩
  · rintro ⟨hup, hdown⟩ deltas hfits hfits'
    exact ⟨creditedDelta_mono hup hfits'.1, creditedDelta_mono hdown hfits.2⟩

/-- Unless the torrent is featured, upload factors compare as those of the users. -/
lemma uploadFactor_le_iff {user : User F} :
    context.uploadFactor ≤ { context with user := user }.uploadFactor ↔
      context.isFeatured = true ∨
        effectiveUploadFactor context.config context.group context.torrent context.user ≤
          effectiveUploadFactor context.config context.group context.torrent user := by
  unfold uploadFactor
  by_cases h : context.isFeatured = true
  · simp [h]
  · simp [h]

lemma downloadFactor_le_iff {user : User F} :
    { context with user := user }.downloadFactor ≤ context.downloadFactor ↔
      context.isFreeleech = true ∨
        effectiveDownloadFactor context.config context.group context.torrent user ≤
          effectiveDownloadFactor context.config context.group context.torrent context.user := by
  have hfree : { context with user := user }.isFreeleech = context.isFreeleech := rfl
  unfold downloadFactor
  rw [hfree]
  by_cases h : context.isFreeleech = true
  · simp [h]
  · simp [h]

/-- A user who becomes a donor loses nothing. -/
lemma neverPunishes_donor (context : CreditContext F) : context.NeverPunishes .donor := by
  rw [neverPunishes_iff, grant, uploadFactor_le_iff, downloadFactor_le_iff, UInt8.le_iff_toNat_le,
    UInt8.le_iff_toNat_le]
  simp only [toNat_effectiveUploadFactor, toNat_effectiveDownloadFactor, if_true]
  have hbase := (baseDownloadFactor context.config context.group context.torrent).toNat_lt
  split_ifs <;> omega

/-- A donor loses by becoming a lifetime donor what lifetime donors do not have. -/
lemma neverPunishes_lifetimeDonor_iff :
    context.NeverPunishes .lifetimeDonor ↔ context.Rewards .lifetimeDonor := by
  rw [neverPunishes_iff, grant, uploadFactor_le_iff, downloadFactor_le_iff, UInt8.le_iff_toNat_le,
    UInt8.le_iff_toNat_le]
  simp only [toNat_effectiveUploadFactor, toNat_effectiveDownloadFactor, if_true]
  unfold Rewards LifetimeOutdoesDonor
  by_cases hlifetime : context.user.isLifetime = true
  · simp [hlifetime]
  · by_cases hdonor : context.user.isDonor = true
    · simp only [hlifetime, hdonor, Bool.false_eq_true, if_false, if_true, max_override_le_iff,
        le_min_override_iff, true_implies]
    · have hdown := (baseDownloadFactor context.config context.group context.torrent).toNat_lt
      simp only [hlifetime, hdonor, Bool.false_eq_true, if_false, false_implies, iff_true]
      omega

/-- A benefit is none for a user in no case but the two. -/
theorem benefits_monotone_iff (context : CreditContext F) (benefit : Benefit) :
    context.NeverPunishes benefit ↔ context.Rewards benefit := by
  cases benefit with
  | featuredTorrent =>
    rw [neverPunishes_iff]
    unfold uploadFactor downloadFactor Rewards
    by_cases hfeatured : context.isFeatured = true
    · simp [grant, isFreeleech, hfeatured]
    · simp [grant, isFreeleech, hfeatured]
  | freeleechToken =>
    refine iff_of_true (neverPunishes_iff.mpr ⟨UInt8.le_refl _, ?_⟩) trivial
    simp [downloadFactor, grant, isFreeleech]
  | personalFreeleech =>
    refine iff_of_true (neverPunishes_iff.mpr ⟨UInt8.le_refl _, ?_⟩) trivial
    simp [downloadFactor, grant, isFreeleech]
  | donor => exact iff_of_true context.neverPunishes_donor trivial
  | lifetimeDonor => exact neverPunishes_lifetimeDonor_iff

end CreditContext

/-- A donor at a site with an upload factor of 255, where donors alone have free downloads. -/
def Sample.donorContext : CreditContext ℝ where
  config := { config with
    uploadFactor := 255
    donorDownloadFactorOverride := some 0 }
  group := group none
  torrent := torrent 1 .empty
  user := { user 1 0x61 with isDonor := true }
  hasPersonalFreeleech := false
  hasFreeleechToken := false
  isFeatured := false

/-- Featuring the torrent lowers the credit for an upload, and as a lifetime donor the user pays for
a download. -/
theorem benefits_punish :
    ¬ (Sample.donorContext.NeverPunishes .featuredTorrent ∨
      Sample.donorContext.NeverPunishes .lifetimeDonor) := by
  rintro (h | h)
  · have hup := (h ⟨100, 100⟩ (by decide +kernel) (by decide +kernel)).1
    revert hup
    decide +kernel
  · have hdown := (h ⟨100, 100⟩ (by decide +kernel) (by decide +kernel)).2
    revert hdown
    decide +kernel

end Unit3dAnnounce
