import Unit3dAnnounce.Collections.Cuts
import Unit3dAnnounce.Model.Flush
import Unit3dAnnounce.Model.Sample

/-!
# The timing of flushes

Updates of a history that wait for the same flush are merged, and the row sees only the merged one.
Its seedtime and its immunity depend on every single update, so they depend on when flushes happen.
The columns for times hold whole seconds. How a time is rounded to one is a parameter.
-/

namespace Unit3dAnnounce

open Cuts

variable {F : Type}

/-- The updates that come in between two flushes, as the queue merges them. -/
def coalesce : List HistoryUpdate → Option HistoryUpdate
  | [] => none
  | update :: updates => some (updates.foldl Mergeable.merge update)

/-- The values of an update as the columns hold them. -/
def HistoryUpdate.stored (second : DateTime → ℤ) (update : HistoryUpdate) : HistoryUpdate :=
  { update with
    completedAt := update.completedAt.map (storedTime second)
    createdAt := storedTime second update.createdAt
    updatedAt := storedTime second update.updatedAt }

namespace HistoryRow

def flushGroup (config : Config F) (second : DateTime → ℤ) (row : HistoryRow)
    (group : List HistoryUpdate) : HistoryRow :=
  (coalesce group).elim row fun update =>
    Flushable.onDuplicateKeyUpdate config row (update.stored second)

/-- A row after one flush for every group. -/
def flushCut (config : Config F) (second : DateTime → ℤ) (row : HistoryRow)
    (cut : List (List HistoryUpdate)) : HistoryRow :=
  cut.foldl (flushGroup config second) row

end HistoryRow

lemma Queue.get?_foldl_upsert {K : Type} [DecidableEq K] {queue : Queue K HistoryUpdate} {key : K}
    {update : HistoryUpdate} (h : queue.records.get? key = some update) (updates : List HistoryUpdate) :
    (updates.foldl (fun queue update => queue.upsert key update) queue).records.get? key =
      some (updates.foldl Mergeable.merge update) := by
  induction updates generalizing queue update with
  | nil => exact h
  | cons next updates ih =>
    apply ih
    simp only [upsert, IndexMap.get?_upsert, if_true, h, Option.elim_some]

/-- A queue merges the updates of a key. -/
lemma Queue.get?_upserts {K : Type} [DecidableEq K] {queue : Queue K HistoryUpdate} {key : K}
    (h : queue.records.get? key = none) (group : List HistoryUpdate) :
    (group.foldl (fun queue update => queue.upsert key update) queue).records.get? key =
      coalesce group := by
  cases group with
  | nil => exact h
  | cons update updates =>
    rw [List.foldl_cons]
    apply get?_foldl_upsert
    simp only [upsert, IndexMap.get?_upsert, if_true, h, Option.elim_none]

/-- A flush writes the merged update of a key to its row. -/
lemma Batch.get?_flushToDb {K : Type} [DecidableEq K] {table : IndexMap K HistoryRow}
    {batch : Batch K HistoryUpdate} {key : K} {row : HistoryRow} {group : List HistoryUpdate}
    (config : Config F) (second : DateTime → ℤ) (htable : table.get? key = some row)
    (hbatch : batch.get? key = coalesce group) :
    (Batch.flushToDb config table (batch.mapValues fun _ => HistoryUpdate.stored second)).get? key =
      some (row.flushGroup config second group) := by
  rw [Batch.flushToDb, IndexMap.get?_upsertAll, IndexMap.get?_mapValues, hbatch,
    HistoryRow.flushGroup]
  cases coalesce group with
  | none => exact htable
  | some update =>
    simp only [htable]
    rfl

/-- What a seedtime depends on, at a second. -/
structure Presence where
  second : ℤ
  isSeeder : Bool
  isActive : Bool
  deriving DecidableEq

def HistoryRow.presence (row : HistoryRow) (second : ℤ) : Presence :=
  ⟨second, row.seeder, row.active⟩

def HistoryUpdate.presence (second : DateTime → ℤ) (update : HistoryUpdate) : Presence :=
  ⟨second update.updatedAt, update.isSeeder, update.isActive⟩

/-- The first one leaves a peer that goes on seeding, and the second one seeds and comes soon
enough. -/
def Presence.SeedsUntil (config : Config F) (x y : Presence) : Prop :=
  x.isSeeder = true ∧ x.isActive = true ∧ y.isSeeder = true ∧
    y.second < x.second + (config.activePeerTtl + config.peerExpiryInterval).toNat

instance (config : Config F) (x y : Presence) : Decidable (x.SeedsUntil config y) :=
  inferInstanceAs (Decidable (_ ∧ _ ∧ _ ∧ _))

/-- The seedtime between two announces. -/
def accrued (config : Config F) : Presence → Presence → ℤ :=
  wayCost Presence.second (Presence.SeedsUntil config)

lemma seconds_lt_seconds_add {m n k : ℤ} : seconds m < seconds n + seconds k ↔ m < n + k := by
  simp only [seconds]
  omega

lemma timestampDiffSeconds_seconds (m n : ℤ) :
    timestampDiffSeconds (seconds m) (seconds n) = n - m := by
  rw [timestampDiffSeconds, seconds, seconds, seconds, ← sub_mul, one_mul]
  exact Int.mul_tdiv_cancel _ (by norm_num)

lemma HistoryRow.seedtimeDelta_eq (config : Config F) (second : DateTime → ℤ) {row : HistoryRow}
    {n : ℤ} (hrow : row.updatedAt = some (seconds n)) (update : HistoryUpdate) :
    row.seedtimeDelta config (update.stored second) =
      accrued config (row.presence n) (update.presence second) := by
  simp only [seedtimeDelta, hrow, accrued, wayCost, HistoryUpdate.stored, storedTime]
  rw [timestampDiffSeconds_seconds]
  congr 1
  simp only [Presence.SeedsUntil, HistoryRow.presence, HistoryUpdate.presence,
    seconds_lt_seconds_add, Bool.and_eq_true, decide_eq_true_eq, eq_iff_iff]
  tauto

lemma HistoryUpdate.presence_merge (second : DateTime → ℤ) {u v : HistoryUpdate}
    (h : u.updatedAt ≤ v.updatedAt) :
    (Mergeable.merge u v).presence second = v.presence second := by
  simp only [presence, Mergeable.merge, max_eq_right h]

/-- Merged updates are like the last one of them. -/
lemma presence_foldl_merge (second : DateTime → ℤ) {update : HistoryUpdate}
    {updates : List HistoryUpdate}
    (hsorted : (update :: updates).Pairwise fun u v => u.updatedAt ≤ v.updatedAt) :
    ((update :: updates).map (HistoryUpdate.presence second)).getLast? =
      some ((updates.foldl Mergeable.merge update).presence second) := by
  induction updates generalizing update with
  | nil => rfl
  | cons next updates ih =>
    obtain ⟨hfirst, hrest⟩ := List.pairwise_cons.mp hsorted
    have hnext : update.updatedAt ≤ next.updatedAt := hfirst next List.mem_cons_self
    have hpresence := HistoryUpdate.presence_merge second hnext
    have hmerged : (Mergeable.merge update next :: updates).Pairwise
        fun u v => u.updatedAt ≤ v.updatedAt := by
      obtain ⟨hsecond, hrest⟩ := List.pairwise_cons.mp hrest
      refine List.pairwise_cons.mpr ⟨?_, hrest⟩
      intro v hv
      have htime : (Mergeable.merge update next).updatedAt = next.updatedAt := max_eq_right hnext
      rw [htime]
      exact hsecond v hv
    rw [List.foldl_cons, ← ih hmerged, List.map_cons, List.map_cons, List.map_cons,
      List.getLast?_cons_cons, hpresence]

lemma isImmune_foldl_merge (update : HistoryUpdate) (updates : List HistoryUpdate) :
    (updates.foldl Mergeable.merge update).isImmune = update.isImmune := by
  induction updates generalizing update with
  | nil => rfl
  | cons next updates ih => exact ih (Mergeable.merge update next)

/-- A flush leaves the row as the last update of the group does, and adds the seedtime up to it. -/
lemma HistoryRow.flushGroup_presence (config : Config F) (second : DateTime → ℤ) {row : HistoryRow}
    {n : ℤ} (hrow : row.updatedAt = some (seconds n)) {group : List HistoryUpdate} (hne : group ≠ [])
    (hsorted : group.Pairwise fun u v => u.updatedAt ≤ v.updatedAt) :
    ∃ last, (group.map (HistoryUpdate.presence second)).getLast? = some last ∧
      (row.flushGroup config second group).updatedAt = some (seconds last.second) ∧
      (row.flushGroup config second group).presence last.second = last ∧
      (row.flushGroup config second group).seedtime =
        row.seedtime + accrued config (row.presence n) last := by
  cases group with
  | nil => exact absurd rfl hne
  | cons update updates =>
    refine ⟨_, presence_foldl_merge second hsorted, rfl, rfl, ?_⟩
    rw [← seedtimeDelta_eq config second hrow]
    rfl

lemma HistoryRow.seedtime_flushCut (config : Config F) (second : DateTime → ℤ) {row : HistoryRow}
    {n : ℤ} (hrow : row.updatedAt = some (seconds n)) {cut : List (List HistoryUpdate)}
    {updates : List HistoryUpdate} (hcut : IsCut cut updates)
    (hsorted : updates.Pairwise fun u v => u.updatedAt ≤ v.updatedAt) :
    (row.flushCut config second cut).seedtime = row.seedtime + total (accrued config)
      (row.presence n) (lasts (cut.map (List.map (HistoryUpdate.presence second)))) := by
  induction cut generalizing row n updates with
  | nil => simp [flushCut, lasts, total]
  | cons group cut ih =>
    have hflatten := hcut.flatten
    rw [List.flatten_cons] at hflatten
    rw [← hflatten, List.pairwise_append] at hsorted
    obtain ⟨last, hlast, hupdatedAt, hpresence, hseedtime⟩ :=
      flushGroup_presence config second hrow (hcut.ne_nil group List.mem_cons_self) hsorted.1
    have hlasts : lasts ((group :: cut).map (List.map (HistoryUpdate.presence second))) =
        last :: lasts (cut.map (List.map (HistoryUpdate.presence second))) := by
      rw [List.map_cons, lasts, List.filterMap_cons_some hlast]
      rfl
    have hnext := ih hupdatedAt hcut.tail hsorted.2.1
    rw [hpresence, hseedtime] at hnext
    rw [hlasts, total, ← add_assoc]
    exact hnext

lemma HistoryRow.immune_flushCut (config : Config F) (second : DateTime → ℤ) (row : HistoryRow)
    {cut : List (List HistoryUpdate)} {updates : List HistoryUpdate} (hcut : IsCut cut updates) :
    (row.flushCut config second cut).immune =
      (row.immune && cut.all fun group => group.head?.all HistoryUpdate.isImmune) := by
  induction cut generalizing row updates with
  | nil => simp [flushCut]
  | cons group cut ih =>
    have hnext := ih (row.flushGroup config second group) hcut.tail
    have hgroup : (row.flushGroup config second group).immune =
        (row.immune && group.head?.all HistoryUpdate.isImmune) := by
      cases group with
      | nil => exact absurd rfl (hcut.ne_nil [] List.mem_cons_self)
      | cons update updates =>
        change (row.immune && (updates.foldl Mergeable.merge update).isImmune) = _
        rw [isImmune_foldl_merge]
        rfl
    rw [List.all_cons, ← Bool.and_assoc, ← hgroup]
    exact hnext

/-- A flush for every update. -/
lemma isCut_singletons (updates : List HistoryUpdate) :
    IsCut (updates.map fun update => [update]) updates := by
  refine ⟨?_, by simp⟩
  induction updates with
  | nil => rfl
  | cons update updates ih => rw [List.map_cons, List.flatten_cons, ih, List.singleton_append]

/-- Where all updates are like the first of them, the timing does not show. -/
lemma HistoryRow.immune_flushCut_of_immune (config : Config F) (second : DateTime → ℤ) {row : HistoryRow}
    {cut : List (List HistoryUpdate)} {updates : List HistoryUpdate} (hcut : IsCut cut updates)
    (h : row.immune = true → updates.head?.all HistoryUpdate.isImmune = true →
      ∀ update ∈ updates, update.isImmune = true) :
    (row.flushCut config second cut).immune =
      (row.immune && updates.head?.all HistoryUpdate.isImmune) := by
  rw [immune_flushCut config second row hcut]
  have hflatten := hcut.flatten
  cases cut with
  | nil =>
    rw [← hflatten]
    rfl
  | cons group cut =>
    have hne := hcut.ne_nil group List.mem_cons_self
    have hhead : updates.head? = group.head? := by
      rw [← hflatten, List.flatten_cons, List.head?_append_of_ne_nil _ hne]
    rw [List.all_cons, hhead, ← Bool.and_assoc]
    cases hfirst : row.immune && group.head?.all HistoryUpdate.isImmune with
    | false => rfl
    | true =>
      rw [Bool.and_eq_true, ← hhead] at hfirst
      have hall := h hfirst.1 hfirst.2
      rw [Bool.true_and, List.all_eq_true]
      intro g hg
      rw [Option.all_eq_true]
      intro update hupdate
      apply hall
      rw [← hflatten, List.flatten_cons]
      exact List.mem_append_right _ (List.mem_flatten_of_mem hg (List.mem_of_head? hupdate))

/-- The immunity of the first update of a group counts, so all of them have to be like it. -/
lemma HistoryRow.immune_flushCut_iff (config : Config F) (second : DateTime → ℤ) (row : HistoryRow)
    (updates : List HistoryUpdate) :
    (∀ cut cut', IsCut cut updates → IsCut cut' updates →
      (row.flushCut config second cut).immune = (row.flushCut config second cut').immune) ↔
      (row.immune = true → updates.head?.all HistoryUpdate.isImmune = true →
        ∀ update ∈ updates, update.isImmune = true) := by
  constructor
  · intro h hrow hfirst
    cases updates with
    | nil => simp
    | cons first updates =>
      have hone : IsCut [first :: updates] (first :: updates) := ⟨by simp, by simp⟩
      have himmune := h _ _ hone (isCut_singletons _)
      rw [immune_flushCut config second row hone,
        immune_flushCut config second row (isCut_singletons _)] at himmune
      have hhead : first.isImmune = true := hfirst
      simpa [hrow, hhead] using himmune
  · intro h cut cut' hcut hcut'
    rw [immune_flushCut_of_immune config second hcut h, immune_flushCut_of_immune config second hcut' h]

/-- The timing of flushes does not change the immunity and the seedtime of a row exactly where all
updates are as immune as the row and the first of them, and of the announces at different seconds,
the row's among them, either every earlier one goes on seeding until every later one, or none does. -/
theorem flush_timing_iff (config : Config F) (second : DateTime → ℤ) (row : HistoryRow) (n : ℤ)
    (hrow : row.updatedAt = some (seconds n)) (updates : List HistoryUpdate)
    (hsorted : updates.Pairwise fun u v => u.updatedAt ≤ v.updatedAt) :
    (∀ cut cut', IsCut cut updates → IsCut cut' updates →
      (row.flushCut config second cut).immune = (row.flushCut config second cut').immune ∧
      (row.flushCut config second cut).seedtime = (row.flushCut config second cut').seedtime) ↔
    (row.immune = true → updates.head?.all HistoryUpdate.isImmune = true →
      ∀ update ∈ updates, update.isImmune = true) ∧
    (((row.presence n :: updates.map (HistoryUpdate.presence second)).Pairwise
      fun x y => x.second ≠ y.second → x.SeedsUntil config y) ∨
    (row.presence n :: updates.map (HistoryUpdate.presence second)).Pairwise
      fun x y => x.second ≠ y.second → ¬ x.SeedsUntil config y) := by
  rw [← row.immune_flushCut_iff config second updates, ← additive_iff]
  have hseedtime : (∀ cut cut', IsCut cut updates → IsCut cut' updates →
      (row.flushCut config second cut).seedtime = (row.flushCut config second cut').seedtime) ↔
      Additive (accrued config) (row.presence n :: updates.map (HistoryUpdate.presence second)) := by
    rw [← total_lasts_iff]
    constructor
    · intro h cut cut' hcut hcut'
      obtain ⟨groups, hgroups, rfl⟩ := hcut.exists_map
      obtain ⟨groups', hgroups', rfl⟩ := hcut'.exists_map
      have hsame := h groups groups' hgroups hgroups'
      rw [HistoryRow.seedtime_flushCut config second hrow hgroups hsorted,
        HistoryRow.seedtime_flushCut config second hrow hgroups' hsorted] at hsame
      exact add_left_cancel hsame
    · intro h cut cut' hcut hcut'
      rw [HistoryRow.seedtime_flushCut config second hrow hcut hsorted,
        HistoryRow.seedtime_flushCut config second hrow hcut' hsorted, h _ _ (hcut.map _) (hcut'.map _)]
  constructor
  · intro h
    exact ⟨fun cut cut' hcut hcut' => (h cut cut' hcut hcut').1,
      hseedtime.mp fun cut cut' hcut hcut' => (h cut cut' hcut hcut').2⟩
  · rintro ⟨himmune, hadditive⟩ cut cut' hcut hcut'
    exact ⟨himmune cut cut' hcut hcut', hseedtime.mpr hadditive cut cut' hcut hcut'⟩

namespace Sample

/-- The row of a client that seeds and is immune. -/
def historyRow : HistoryRow :=
  { Flushable.values (historyUpdate 0 0) with immune := true }

/-- The next announces of that client. -/
def seedingUpdate (now : ℤ) : HistoryUpdate := { historyUpdate now 0 with isImmune := true }

def stoppingUpdate (now : ℤ) : HistoryUpdate := { seedingUpdate now with isActive := false }

end Sample

open Sample in
theorem flush_timing_sample :
    (historyRow.flushCut config truncated [[seedingUpdate 1800, seedingUpdate 3600]]).seedtime =
      (historyRow.flushCut config truncated [[seedingUpdate 1800], [seedingUpdate 3600]]).seedtime :=
  ((flush_timing_iff config truncated historyRow 1735689600 (by decide)
    [seedingUpdate 1800, seedingUpdate 3600] (by decide)).mpr
      ⟨by decide, Or.inl (by decide +kernel)⟩ _ _ ⟨rfl, by decide⟩ ⟨rfl, by decide⟩).2

open Sample in
/-- A client that is immune stops, and starts again when it is not immune any more. -/
theorem flush_timing_matters :
    ∃ updates : List HistoryUpdate, 2 ≤ updates.length ∧
      updates.Pairwise (fun u v => u.updatedAt < v.updatedAt) ∧
      (∀ update ∈ updates, time 0 < update.updatedAt ∧ update.updatedAt < time 0 +
        seconds (config.activePeerTtl.toNat + config.peerExpiryInterval.toNat)) ∧
      historyRow.updatedAt = some (time 0) ∧
      ∃ cut cut', IsCut cut updates ∧ IsCut cut' updates ∧
        (historyRow.flushCut config truncated cut).immune ≠
          (historyRow.flushCut config truncated cut').immune ∧
        (historyRow.flushCut config truncated cut).seedtime ≠
          (historyRow.flushCut config truncated cut').seedtime := by
  refine ⟨[stoppingUpdate 1800, historyUpdate 3600 0], by decide, by decide, by decide +kernel, rfl,
    [[stoppingUpdate 1800, historyUpdate 3600 0]], [[stoppingUpdate 1800], [historyUpdate 3600 0]],
    ⟨rfl, by decide⟩, ⟨rfl, by decide⟩, by decide +kernel, by decide +kernel⟩

end Unit3dAnnounce
