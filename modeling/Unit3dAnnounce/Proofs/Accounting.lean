import Mathlib.Algebra.BigOperators.Ring.Finset
import Mathlib.Data.FinEnum
import Unit3dAnnounce.Model.Sample
import Unit3dAnnounce.Proofs.Tracker

/-!
# Accounting for deltas

The deltas of announces and reaps reach the database exactly once, however they are merged,
batched, and put back when a statement fails.
-/

namespace Unit3dAnnounce

open Machine WriteBehind

/-- A column that a flush adds to, with the amount of an update. Merging adds up exactly as long
as the sum is in the range of the machine type of the amount. -/
structure Additive (V R : Type) [Mergeable V] [Flushable V R] where
  amount : V → ℤ
  column : R → ℤ
  low : ℤ
  high : ℤ
  values : ∀ value, column (Flushable.values value) = amount value
  update : ∀ {F : Type} (config : Config F) row value,
    column (Flushable.onDuplicateKeyUpdate config row value) = column row + amount value
  merge : ∀ value value', low ≤ amount value + amount value' →
    amount value + amount value' ≤ high →
    amount (Mergeable.merge value value') = amount value + amount value'

lemma toNat_add_of_fits {x y : UInt64} (h : (x.toNat : ℤ) + y.toNat ≤ 2 ^ 64 - 1) :
    ((x + y).toNat : ℤ) = x.toNat + y.toNat := by
  rw [UInt64.toNat_add, Nat.mod_eq_of_lt (by omega)]
  omega

lemma toNat_saturatingAddU64_of_fits {x y : UInt64} (h : (x.toNat : ℤ) + y.toNat ≤ 2 ^ 64 - 1) :
    ((saturatingAddU64 x y).toNat : ℤ) = x.toNat + y.toNat := by
  rw [toNat_saturatingAddU64]
  omega

lemma toNat_saturatingAddU32_of_fits {x y : UInt32} (h : (x.toNat : ℤ) + y.toNat ≤ 2 ^ 32 - 1) :
    ((saturatingAddU32 x y).toNat : ℤ) = x.toNat + y.toNat := by
  rw [toNat_saturatingAddU32]
  omega

namespace HistoryUpdate

def uploadedColumn : Additive HistoryUpdate HistoryRow where
  amount update := update.creditedUploadedDelta.toNat
  column row := row.uploaded
  low := 0
  high := 2 ^ 64 - 1
  values _ := rfl
  update _ _ _ := Nat.cast_add _ _
  merge _ _ _ h := toNat_add_of_fits h

def actualUploadedColumn : Additive HistoryUpdate HistoryRow where
  amount update := update.uploadedDelta.toNat
  column row := row.actualUploaded
  low := 0
  high := 2 ^ 64 - 1
  values _ := rfl
  update _ _ _ := Nat.cast_add _ _
  merge _ _ _ h := toNat_add_of_fits h

def downloadedColumn : Additive HistoryUpdate HistoryRow where
  amount update := update.creditedDownloadedDelta.toNat
  column row := row.downloaded
  low := 0
  high := 2 ^ 64 - 1
  values _ := rfl
  update _ _ _ := Nat.cast_add _ _
  merge _ _ _ h := toNat_add_of_fits h

def actualDownloadedColumn : Additive HistoryUpdate HistoryRow where
  amount update := update.downloadedDelta.toNat
  column row := row.actualDownloaded
  low := 0
  high := 2 ^ 64 - 1
  values _ := rfl
  update _ _ _ := Nat.cast_add _ _
  merge _ _ _ h := toNat_add_of_fits h

def additiveColumns : List (Additive HistoryUpdate HistoryRow) :=
  [uploadedColumn, actualUploadedColumn, downloadedColumn, actualDownloadedColumn]

end HistoryUpdate

namespace UserUpdate

def uploadedColumn : Additive UserUpdate UserTotals where
  amount update := update.uploadedDelta.toNat
  column row := row.uploaded
  low := 0
  high := 2 ^ 64 - 1
  values _ := rfl
  update _ _ _ := Nat.cast_add _ _
  merge _ _ _ h := toNat_saturatingAddU64_of_fits h

def downloadedColumn : Additive UserUpdate UserTotals where
  amount update := update.downloadedDelta.toNat
  column row := row.downloaded
  low := 0
  high := 2 ^ 64 - 1
  values _ := rfl
  update _ _ _ := Nat.cast_add _ _
  merge _ _ _ h := toNat_saturatingAddU64_of_fits h

def additiveColumns : List (Additive UserUpdate UserTotals) := [uploadedColumn, downloadedColumn]

end UserUpdate

namespace TorrentUpdate

def seedersColumn : Additive TorrentUpdate TorrentTotals where
  amount update := update.seederDelta
  column row := row.seeders
  low := -2 ^ 31
  high := 2 ^ 31 - 1
  values _ := rfl
  update _ _ _ := rfl
  merge value value' hlow hhigh := by
    simp only [Mergeable.merge, saturatingAddI32]
    omega

def leechersColumn : Additive TorrentUpdate TorrentTotals where
  amount update := update.leecherDelta
  column row := row.leechers
  low := -2 ^ 31
  high := 2 ^ 31 - 1
  values _ := rfl
  update _ _ _ := rfl
  merge value value' hlow hhigh := by
    simp only [Mergeable.merge, saturatingAddI32]
    omega

def timesCompletedColumn : Additive TorrentUpdate TorrentTotals where
  amount update := update.timesCompletedDelta.toNat
  column row := row.timesCompleted
  low := 0
  high := 2 ^ 32 - 1
  values _ := rfl
  update _ _ _ := rfl
  merge _ _ _ h := toNat_saturatingAddU32_of_fits h

def balanceColumn : Additive TorrentUpdate TorrentTotals where
  amount update := update.balanceDelta
  column row := row.balance
  low := -2 ^ 63
  high := 2 ^ 63 - 1
  values _ := rfl
  update _ _ _ := rfl
  merge value value' hlow hhigh := by
    simp only [Mergeable.merge, saturatingAddI64]
    omega

def additiveColumns : List (Additive TorrentUpdate TorrentTotals) :=
  [seedersColumn, leechersColumn, timesCompletedColumn, balanceColumn]

end TorrentUpdate

section Pipelines

variable {F K V R : Type} [DecidableEq K]

def valuesOf (key : K) (records : List (K × V)) : List V :=
  records.filterMap fun record => if record.1 = key then some record.2 else none

lemma valuesOf_append (key : K) (records records' : List (K × V)) :
    valuesOf key (records ++ records') = valuesOf key records ++ valuesOf key records' :=
  List.filterMap_append

lemma mem_valuesOf {key : K} {records : List (K × V)} {value : V} :
    value ∈ valuesOf key records ↔ (key, value) ∈ records := by
  simp only [valuesOf, List.mem_filterMap, Option.ite_none_right_eq_some, Option.some_inj]
  constructor
  · rintro ⟨record, hmem, rfl, rfl⟩
    exact hmem
  · exact fun h => ⟨_, h, rfl, rfl⟩

variable [Ord K] [Mergeable V] [Flushable V R]

/-- No sum of some of the updates leaves the range of the machine type. -/
def Additive.Fits (column : Additive V R) (updates : List V) : Prop :=
  ∀ part ≤ Multiset.ofList updates,
    column.low ≤ (part.map column.amount).sum ∧ (part.map column.amount).sum ≤ column.high

/-- What the database holds for a key, what is being written, and what is waiting. -/
def Pipeline.total (column : Additive V R) (pipeline : Pipeline K V R) (key : K) : ℤ :=
  (pipeline.writes.table.get? key).elim 0 column.column +
    ((pipeline.writes.running.filterMap fun batch => batch.get? key).map column.amount).sum +
    (pipeline.queue.records.get? key).elim 0 column.amount

/-- The record that an event adds to the queue. -/
def PipelineEvent.record? : PipelineEvent F K V → Option (K × V)
  | .upsert key value => some (key, value)
  | .flush _ => none

omit [DecidableEq K] [Ord K] [Mergeable V] [Flushable V R] in
lemma PipelineEvent.record?_eq_some {event : PipelineEvent F K V} {record : K × V} :
    event.record? = some record ↔ event = .upsert record.1 record.2 := by
  cases event with
  | upsert key value => simp [record?, Prod.ext_iff]
  | flush event => simp [record?]

omit [Ord K] in
lemma Pipeline.total_eq_cell (column : Additive V R) (pipeline : Pipeline K V R) (key : K) :
    pipeline.total column key = (pipeline.channel.cell key).total column.amount
      (fun row => row.elim 0 column.column) := by
  unfold Pipeline.total Cell.total Channel.cell Pipeline.channel
  rw [Multiset.map_coe, Multiset.sum_coe]

lemma Additive.column_writeRow (column : Additive V R) (config : Config F) (row : Option R)
    (value : V) : (some (writeRow config row value)).elim 0 column.column =
      row.elim 0 column.column + column.amount value := by
  cases row with
  | none =>
    rw [Option.elim_none, zero_add]
    exact column.values value
  | some row => exact column.update config row value

omit [Mergeable V] in
/-- The last of updates with increasing times is the latest one. -/
lemma getLast?_of_latest {time : V → DateTime} {updates : List V}
    (hsorted : updates.Pairwise fun update update' => time update < time update') {update : V}
    (hmem : update ∈ updates) (hlatest : ∀ update' ∈ updates, time update' ≤ time update) :
    updates.getLast? = some update := by
  rcases List.eq_nil_or_concat updates with rfl | ⟨init, last, rfl⟩
  · simp at hmem
  · rw [List.concat_eq_append] at *
    rw [List.getLast?_append, List.getLast?_singleton, Option.some_or, Option.some_inj]
    rcases List.mem_append.mp hmem with hinit | hlast
    · have hlt := (List.pairwise_append.mp hsorted).2.2 update hinit last (by simp)
      have hle := hlatest last (by simp)
      exact absurd hlt (not_lt.mpr hle)
    · exact (List.mem_singleton.mp hlast).symm

omit [Ord K] [Mergeable V] in
lemma valuesOf_filterMap_cons (key : K) (event : PipelineEvent F K V)
    (events : List (PipelineEvent F K V)) :
    valuesOf key ((event :: events).filterMap PipelineEvent.record?) =
      valuesOf key event.record?.toList ++ valuesOf key (events.filterMap PipelineEvent.record?) := by
  rw [← valuesOf_append, List.filterMap_cons]
  cases event.record? <;> rfl

lemma Pipeline.enqueued_log (pipeline : Pipeline K V R) (events : List (PipelineEvent F K V)) (key : K) :
    ((Machine.log Pipeline.step (fun pipeline event => (pipeline.channelEvent event).toList)
      pipeline events).map (Event.enqueued key)).sum =
      Multiset.ofList (valuesOf key (events.filterMap PipelineEvent.record?)) := by
  induction events generalizing pipeline with
  | nil => rfl
  | cons event events ih =>
    rw [log, List.map_append, List.sum_append, ih]
    cases event with
    | upsert key' value =>
      by_cases hkey : key' = key
      · simp [channelEvent, Event.enqueued, PipelineEvent.record?, valuesOf, hkey]
      · simp [channelEvent, Event.enqueued, PipelineEvent.record?, valuesOf, hkey]
    | flush event =>
      have hzero : (((pipeline.channelEvent (.flush event)).toList).map (Event.enqueued key)).sum = 0 := by
        cases event with
        | takeBatches config => rfl
        | finish config index succeeded =>
          simp only [channelEvent]
          cases pipeline.writes.running[index]? with
          | none => rfl
          | some batch => cases succeeded <;> rfl
      rw [hzero, zero_add]
      rfl

/-- The records of a key are deltas of it, and those that are left out add up to nothing. -/
structure Summed (column : Additive V R) (key : K) (records deltas : List (K × V)) : Prop where
  sublist : (valuesOf key records).Sublist (valuesOf key deltas)
  sum : ((valuesOf key records).map column.amount).sum =
    ((valuesOf key deltas).map column.amount).sum

omit [Ord K] in
lemma Summed.refl (column : Additive V R) (key : K) (records : List (K × V)) :
    Summed column key records records := ⟨List.Sublist.refl _, rfl⟩

omit [Ord K] in
lemma Summed.append {column : Additive V R} {key : K} {records deltas records' deltas' : List (K × V)}
    (h : Summed column key records deltas) (h' : Summed column key records' deltas') :
    Summed column key (records ++ records') (deltas ++ deltas') := by
  constructor
  · rw [valuesOf_append, valuesOf_append]
    exact h.sublist.append h'.sublist
  · simp only [valuesOf_append, List.map_append, List.sum_append, h.sum, h'.sum]

omit [Ord K] in
lemma Summed.skip {column : Additive V R} {key : K} {delta : K × V} (h : column.amount delta.2 = 0) :
    Summed column key [] [delta] := by
  constructor
  · exact List.nil_sublist _
  · by_cases hkey : delta.1 = key
    · simp [valuesOf, hkey, h]
    · simp [valuesOf, hkey]

omit [Ord K] in
/-- A loop that enqueues the deltas that matter. -/
lemma Summed.filterMap {A : Type} {column : Additive V R} {key : K} (entries : List A)
    {record : A → Option (K × V)} {delta : A → K × V}
    (h : ∀ a, record a = some (delta a) ∨ record a = none ∧ column.amount (delta a).2 = 0) :
    Summed column key (entries.filterMap record) (entries.map delta) := by
  induction entries with
  | nil => exact Summed.refl column key []
  | cons entry entries ih =>
    rw [List.filterMap_cons, List.map_cons]
    rcases h entry with hsome | ⟨hnone, hzero⟩
    · rw [hsome]
      exact (Summed.refl column key [delta entry]).append ih
    · rw [hnone]
      exact (Summed.skip hzero).append ih

omit [Ord K] in
lemma Additive.Fits.sublist {column : Additive V R} {values values' : List V}
    (h : column.Fits values') (hsub : values.Sublist values') : column.Fits values :=
  fun part hpart => h part (hpart.trans hsub.subperm)

end Pipelines

section Tracker

variable {F : Type} [RateField F]

namespace Tracker

end Tracker

end Tracker

end Unit3dAnnounce
