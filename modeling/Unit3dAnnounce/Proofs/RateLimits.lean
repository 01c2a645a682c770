import Mathlib.Analysis.SpecialFunctions.Log.Basic
import Unit3dAnnounce.Arithmetic.Decay
import Unit3dAnnounce.Model.Sample

/-!
# Rate limits and the current rate

A rate is brought up to date by a tick and read as it was left. What is read is the decayed sum of
the ticks at the time of the last one, so a rate that was over its limit stays over it until the next
tick, however long the user waits.
-/

namespace Unit3dAnnounce

open Decay

variable {F : Type} [RateField F]

/-- How much of a tick is left after some time. -/
def Rate.decay (r : Rate F) (elapsed : F) : F := RateField.exp (-1 * elapsed / r.window)

def Rate.ticks (r : Rate F) (times : List F) : Rate F := times.foldl (fun r now => r.tick now) r

namespace RateCollection

def ticks (c : RateCollection F) (times : List F) : RateCollection F :=
  times.foldl (fun c now => c.tick now) c

/-- A collection as it was created. -/
def IsFresh (c : RateCollection F) : Prop := ∀ rate ∈ c.rates, rate.count = 0

/-- At the time `t`, ticks at the given times are within every limit. -/
def IsWithin (c : RateCollection F) (times : List F) (t : F) : Prop :=
  ∀ rate ∈ c.rates, decayedSum rate.decay times t ≤ rate.maxCount

end RateCollection

lemma Rate.ticks_concat (r : Rate F) (times : List F) (now : F) :
    r.ticks (times ++ [now]) = (r.ticks times).tick now := by
  rw [ticks, List.foldl_concat]
  rfl

/-- The ticks change nothing but the count and its time. -/
lemma Rate.ticks_limits (r : Rate F) (times : List F) :
    (r.ticks times).maxCount = r.maxCount ∧ (r.ticks times).window = r.window := by
  induction times using List.reverseRecOn with
  | nil => exact ⟨rfl, rfl⟩
  | append_singleton times now ih =>
    rw [ticks_concat]
    exact ih

lemma Rate.updatedAt_ticks (r : Rate F) (times : List F) :
    (r.ticks times).updatedAt = times.getLastD r.updatedAt := by
  induction times using List.reverseRecOn with
  | nil => rfl
  | append_singleton times now ih =>
    rw [ticks_concat, List.getLastD_concat]
    rfl

lemma RateCollection.rates_ticks (c : RateCollection F) (times : List F) :
    (c.ticks times).rates = c.rates.map (fun rate => rate.ticks times) := by
  induction times using List.reverseRecOn with
  | nil => simp [ticks, Rate.ticks]
  | append_singleton times now ih =>
    rw [ticks, List.foldl_concat]
    simp only [Rate.ticks_concat]
    rw [← ticks, tick, ih, List.map_map]
    rfl

/-- No tick is later than the last one. -/
lemma le_getLastD {times : List F} (hsorted : times.Pairwise (· ≤ ·)) (t : F) :
    ∀ time ∈ times, time ≤ times.getLastD t := by
  intro time htime
  rcases List.eq_nil_or_concat times with rfl | ⟨init, last, rfl⟩
  · simp at htime
  · rw [List.concat_eq_append] at *
    rw [List.getLastD_concat]
    rcases List.mem_append.mp htime with hinit | hlast
    · exact (List.pairwise_append.mp hsorted).2.2 time hinit last (List.mem_singleton_self _)
    · exact (List.mem_singleton.mp hlast).le

lemma getLastD_le {times : List F} {t : F} (hsorted : (times ++ [t]).Pairwise (· ≤ ·)) :
    times.getLastD t ≤ t := by
  have hlast := (List.pairwise_append.mp hsorted).2.2
  rcases List.eq_nil_or_concat times with rfl | ⟨init, last, rfl⟩
  · exact le_rfl
  · rw [List.concat_eq_append] at *
    rw [List.getLastD_concat]
    exact hlast last (List.mem_append_right _ (List.mem_singleton_self _)) t (List.mem_singleton_self _)

variable [IsStrictOrderedRing F]

/-- The count is what is left of the ticks at the time of the last one. -/
lemma Rate.count_ticks {r : Rate F} (hcount : r.count = 0) (hdecay : IsDecay r.decay) {times : List F}
    (hsorted : times.Pairwise (· ≤ ·)) (t : F) :
    (r.ticks times).count = decayedSum r.decay times (times.getLastD t) := by
  induction times using List.reverseRecOn with
  | nil => exact hcount
  | append_singleton times now ih =>
    obtain ⟨hinit, -, hlast⟩ := List.pairwise_append.mp hsorted
    have hweight : decayedSum r.decay times now =
        (r.ticks times).count * r.decay (now - (r.ticks times).updatedAt) := by
      rcases List.eq_nil_or_concat times with rfl | ⟨init, last, hconcat⟩
      · have hzero : (r.ticks []).count = 0 := hcount
        rw [hzero, zero_mul]
        rfl
      · have hend : ∀ s, times.getLastD s = last := by
          intro s
          rw [hconcat, List.concat_eq_append, List.getLastD_concat]
        have hle := le_getLastD hinit t
        have hnow : last ≤ now := by
          apply hlast last _ now (List.mem_singleton_self _)
          rw [hconcat, List.concat_eq_append]
          exact List.mem_append_right _ (List.mem_singleton_self _)
        rw [hend] at hle
        rw [ih hinit, updatedAt_ticks, hend, hend]
        exact decayedSum_later hdecay hle hnow
    rw [ticks_concat, List.getLastD_concat, decayedSum_concat, sub_self, hdecay.zero, hweight]
    simp only [tick, (r.ticks_limits times).2]
    rfl

namespace RateCollection

/-- A collection is judged by its rates at the last tick. -/
lemma isUnderLimit_ticks {c : RateCollection F} (hfresh : c.IsFresh)
    (hdecay : ∀ rate ∈ c.rates, IsDecay rate.decay) {times : List F}
    (hsorted : times.Pairwise (· ≤ ·)) (t : F) :
    (c.ticks times).isUnderLimit = true ↔ c.IsWithin times (times.getLastD t) := by
  rw [isUnderLimit, rates_ticks, List.all_map, List.all_eq_true]
  apply forall₂_congr
  intro rate hrate
  rw [Function.comp_apply, Rate.isUnderLimit, decide_eq_true_iff,
    Rate.count_ticks (hfresh rate hrate) (hdecay rate hrate) hsorted t, (rate.ticks_limits times).1]

/-- What was within the limits stays within them. -/
lemma IsWithin.later {c : RateCollection F} (hdecay : ∀ rate ∈ c.rates, IsDecay rate.decay)
    {times : List F} {s t : F} (htimes : ∀ time ∈ times, time ≤ s) (hst : s ≤ t)
    (h : c.IsWithin times s) : c.IsWithin times t :=
  fun rate hrate => (decayedSum_anti (hdecay rate hrate) htimes hst).trans (h rate hrate)

/-- At the time `t` the limits are applied to the current rates if and only if the rates were within
them at the last tick already, or are not within them yet. -/
theorem isUnderLimit_current_iff (c : RateCollection F) (hfresh : c.IsFresh)
    (hdecay : ∀ rate ∈ c.rates, IsDecay rate.decay) (times : List F) (t : F)
    (hsorted : (times ++ [t]).Pairwise (· ≤ ·)) :
    ((c.ticks times).isUnderLimit = true ↔ c.IsWithin times t) ↔
      (c.IsWithin times (times.getLastD t) ∨ ¬ c.IsWithin times t) := by
  have hlate := getLastD_le hsorted
  have htimes := (List.pairwise_append.mp hsorted).1
  have hlater : c.IsWithin times (times.getLastD t) → c.IsWithin times t :=
    IsWithin.later hdecay (le_getLastD htimes t) hlate
  rw [isUnderLimit_ticks hfresh hdecay htimes t]
  tauto

/-- A rate is over its limit as long as what the last tick left of it has not decayed to the limit. -/
lemma isWithin_iff_count_mul_decay {c : RateCollection F} (hfresh : c.IsFresh)
    (hdecay : ∀ rate ∈ c.rates, IsDecay rate.decay) {times : List F} {t : F}
    (hsorted : (times ++ [t]).Pairwise (· ≤ ·)) : c.IsWithin times t ↔
      ∀ rate ∈ c.rates, (rate.ticks times).count * rate.decay (t - times.getLastD t) ≤ rate.maxCount := by
  have htimes := (List.pairwise_append.mp hsorted).1
  apply forall₂_congr
  intro rate hrate
  rw [Rate.count_ticks (hfresh rate hrate) (hdecay rate hrate) htimes t,
    ← decayedSum_later (hdecay rate hrate) (le_getLastD htimes t) (getLastD_le hsorted)]

/-- A user who was over a limit at the last tick is refused at every time from which no rate is left
that could be over its limit, and there is such a time. -/
theorem refused_after_idling {c : RateCollection F} (hfresh : c.IsFresh)
    (hdecay : ∀ rate ∈ c.rates, IsDecay rate.decay) (hpos : ∀ rate ∈ c.rates, 0 < rate.maxCount)
    {times : List F} (hsorted : times.Pairwise (· ≤ ·))
    (hover : ¬ c.IsWithin times (times.getLastD 0)) :
    ∃ T, ∀ t, T ≤ t → c.IsWithin times t ∧ (c.ticks times).isUnderLimit = false := by
  have hidle : ∃ T, times.getLastD 0 ≤ T ∧ ∀ t, T ≤ t → c.IsWithin times t := by
    apply exists_forall_later
    intro rate hrate
    exact exists_decayedSum_le (hdecay rate hrate) (le_getLastD hsorted 0) (hpos rate hrate)
  obtain ⟨T, -, hwithin⟩ := hidle
  rw [← isUnderLimit_ticks hfresh hdecay hsorted, Bool.not_eq_true] at hover
  exact ⟨T, fun t ht => ⟨hwithin t ht, hover⟩⟩

end RateCollection

omit [IsStrictOrderedRing F] in
/-- A list that is asked for is refused where its rates are not under the limit. -/
lemma selectPeers_isOver (config : Config F) (env : Env F) (queries : Announce) (userId : UInt32)
    (user : User F) (torrent : Torrent) (warnings : WarningCollection) :
    let list := selectPeers config env queries userId user torrent warnings
    (list.isOverSeedListRateLimit =
        (list.hasRequestedSeedList && !user.receiveSeedListRates.isUnderLimit)) ∧
      (list.isOverLeechListRateLimit =
        (list.hasRequestedLeechList && !user.receiveLeechListRates.isUnderLimit)) := by
  unfold selectPeers
  split_ifs
  · exact ⟨rfl, rfl⟩
  · exact ⟨rfl, rfl⟩

/-- The list of seeders is refused to those who were over a limit when they last asked for it. -/
theorem selectPeers_refuses_iff {c : RateCollection F} (hfresh : c.IsFresh)
    (hdecay : ∀ rate ∈ c.rates, IsDecay rate.decay) {times : List F}
    (hsorted : times.Pairwise (· ≤ ·)) (config : Config F) (env : Env F) (queries : Announce)
    (userId : UInt32) {user : User F} (huser : user.receiveSeedListRates = c.ticks times)
    (torrent : Torrent) (warnings : WarningCollection) :
    let list := selectPeers config env queries userId user torrent warnings
    list.isOverSeedListRateLimit = true ↔ list.hasRequestedSeedList = true ∧
      ¬ c.IsWithin times (times.getLastD env.systemTime) := by
  intro list
  have hover := (selectPeers_isOver config env queries userId user torrent warnings).1
  rw [hover, Bool.and_eq_true, Bool.not_eq_true', huser, ← Bool.not_eq_true,
    RateCollection.isUnderLimit_ticks hfresh hdecay hsorted env.systemTime]

lemma isDecay_exp {window : ℝ} (hwindow : 0 < window) :
    IsDecay (fun elapsed => Real.exp (-1 * elapsed / window)) where
  zero := by simp
  pos _ _ := Real.exp_pos _
  lt e e' _ hlt := by
    apply Real.exp_lt_exp.mpr
    apply div_lt_div_of_pos_right _ hwindow
    linarith
  add e e' _ _ := by
    rw [← Real.exp_add]
    ring_nf
  vanishes ε hε := by
    refine ⟨window / ε, (div_pos hwindow hε).le, fun e he => ?_⟩
    have hle : 1 / ε ≤ e / window := by
      rw [div_le_div_iff₀ hε hwindow, one_mul]
      exact (div_le_iff₀ hε).mp he
    have hexp : 1 / ε < Real.exp (e / window) := by
      have := Real.add_one_le_exp (e / window)
      linarith
    have hneg : -1 * e / window = -(e / window) := by ring
    rw [hneg, Real.exp_neg]
    exact inv_lt_of_inv_lt₀ hε (by rwa [inv_eq_one_div])

section Elapsed

/-- How long it takes until a rate has decayed to its limit. -/
noncomputable def Rate.idleTime (r : Rate ℝ) : ℝ := r.window * Real.log (r.count / r.maxCount)

lemma Rate.maxCount_lt_decay_iff {r : Rate ℝ} (hcount : 0 ≤ r.count) (hmax : 0 < r.maxCount)
    (hwindow : 0 < r.window) {elapsed : ℝ} (helapsed : 0 ≤ elapsed) :
    r.maxCount < r.count * r.decay elapsed ↔ elapsed < r.idleTime := by
  rcases hcount.eq_or_lt with hzero | hpos
  · rw [idleTime, ← hzero, zero_mul, zero_div, Real.log_zero, mul_zero]
    exact iff_of_false hmax.not_gt helapsed.not_gt
  · have hdecay : r.decay elapsed = (Real.exp (elapsed / r.window))⁻¹ := by
      rw [← Real.exp_neg, ← neg_div, ← neg_one_mul]
      rfl
    rw [hdecay, ← div_eq_mul_inv, lt_div_iff₀ (Real.exp_pos _), mul_comm, ← lt_div_iff₀ hmax,
      ← Real.lt_log_iff_exp_lt (div_pos hpos hmax), div_lt_iff₀ hwindow, idleTime, mul_comm]

/-- The limits are applied to the current rates if and only if no rate was over its limit at the last
tick, or one of them has not had its time to decay since. -/
theorem RateCollection.isUnderLimit_current_iff_idleTime {c : RateCollection ℝ} (hfresh : c.IsFresh)
    (hmax : ∀ rate ∈ c.rates, 0 < rate.maxCount) (hwindow : ∀ rate ∈ c.rates, 0 < rate.window)
    {times : List ℝ} {t : ℝ} (hsorted : (times ++ [t]).Pairwise (· ≤ ·)) :
    ((c.ticks times).isUnderLimit = true ↔ c.IsWithin times t) ↔
      (∀ rate ∈ c.rates, (rate.ticks times).count ≤ rate.maxCount) ∨
        ∃ rate ∈ c.rates, t - times.getLastD t < (rate.ticks times).idleTime := by
  have hdecay (rate : Rate ℝ) (hrate : rate ∈ c.rates) : IsDecay rate.decay :=
    isDecay_exp (hwindow rate hrate)
  have htimes := (List.pairwise_append.mp hsorted).1
  have hwithin : c.IsWithin times (times.getLastD t) ↔
      ∀ rate ∈ c.rates, (rate.ticks times).count ≤ rate.maxCount :=
    forall₂_congr fun rate hrate => by
      rw [Rate.count_ticks (hfresh rate hrate) (hdecay rate hrate) htimes t]
  have hidle : ¬ c.IsWithin times t ↔
      ∃ rate ∈ c.rates, t - times.getLastD t < (rate.ticks times).idleTime := by
    simp only [isWithin_iff_count_mul_decay hfresh hdecay hsorted, not_forall, not_le, exists_prop]
    refine exists_congr fun rate => and_congr_right fun hrate => ?_
    have hlimits := rate.ticks_limits times
    have hcount : 0 ≤ (rate.ticks times).count := by
      rw [Rate.count_ticks (hfresh rate hrate) (hdecay rate hrate) htimes t]
      exact decayedSum_nonneg (hdecay rate hrate) (le_getLastD htimes t)
    have hiff := Rate.maxCount_lt_decay_iff hcount (hlimits.1.symm ▸ hmax rate hrate)
      (hlimits.2.symm ▸ hwindow rate hrate) (sub_nonneg.mpr (getLastD_le hsorted))
    rw [hlimits.1] at hiff
    rw [← hiff]
    simp only [Rate.decay, hlimits.2]
  have hlater : c.IsWithin times (times.getLastD t) → c.IsWithin times t :=
    IsWithin.later hdecay (le_getLastD htimes t) (getLastD_le hsorted)
  rw [isUnderLimit_ticks hfresh hdecay htimes t, ← hwithin, ← hidle]
  tauto

end Elapsed

namespace Sample

/-- One peer list a second. -/
noncomputable def rateLimit : RateCollection ℝ := ⟨[⟨0, 1, 1, 0⟩]⟩

lemma isFresh_rateLimit : rateLimit.IsFresh := by
  simp [RateCollection.IsFresh, rateLimit]

lemma isDecay_rateLimit : ∀ rate ∈ rateLimit.rates, IsDecay rate.decay := by
  simp only [rateLimit, List.mem_singleton, forall_eq]
  exact isDecay_exp one_pos

end Sample

theorem RateCollection.isUnderLimit_current_sample :
    ((Sample.rateLimit.ticks [0]).isUnderLimit = true ↔ Sample.rateLimit.IsWithin [0] 1) ↔
      (Sample.rateLimit.IsWithin [0] 0 ∨ ¬ Sample.rateLimit.IsWithin [0] 1) :=
  RateCollection.isUnderLimit_current_iff Sample.rateLimit Sample.isFresh_rateLimit
    Sample.isDecay_rateLimit [0] 1 (by simp)

/-- Two peer lists at one time are too many at that time, and are within the limit a second later.
The limit still refuses the third one. -/
theorem RateCollection.refused_when_decayed :
    ¬ ∀ c : RateCollection ℝ, c.IsFresh → (∀ rate ∈ c.rates, IsDecay rate.decay) →
      ∀ (times : List ℝ) (t : ℝ), (times ++ [t]).Pairwise (· ≤ ·) →
        ((c.ticks times).isUnderLimit = true ↔ c.IsWithin times t) := by
  intro h
  have hiff := h Sample.rateLimit Sample.isFresh_rateLimit Sample.isDecay_rateLimit [0, 0] 1 (by simp)
  have hwithin : Sample.rateLimit.IsWithin [0, 0] 1 := by
    have hexp := Real.add_one_le_exp 1
    have hhalf : Real.exp (-1) ≤ 1 / 2 := by
      rw [Real.exp_neg, ← one_div]
      exact one_div_le_one_div_of_le two_pos (by linarith)
    have hweight : decayedSum (Rate.decay (⟨0, 1, 1, 0⟩ : Rate ℝ)) [0, 0] 1 =
        Real.exp (-1) + Real.exp (-1) := by
      simp [decayedSum, Rate.decay, RateField.exp]
    simp only [RateCollection.IsWithin, Sample.rateLimit, List.mem_singleton, forall_eq, hweight]
    linarith
  have hover : ¬ Sample.rateLimit.IsWithin [0, 0] 0 := by
    simp [RateCollection.IsWithin, Sample.rateLimit, decayedSum, Rate.decay, RateField.exp]
  have hrefused : (Sample.rateLimit.ticks [0, 0]).isUnderLimit = false := by
    rw [← Bool.not_eq_true,
      RateCollection.isUnderLimit_ticks Sample.isFresh_rateLimit Sample.isDecay_rateLimit (by simp) 0]
    exact hover
  rw [hrefused] at hiff
  exact absurd (hiff.mpr hwithin) Bool.false_ne_true

end Unit3dAnnounce
