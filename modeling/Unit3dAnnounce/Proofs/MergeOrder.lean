import Unit3dAnnounce.Arithmetic.Saturating
import Unit3dAnnounce.Proofs.Accounting

/-!
# The order of merges

Updates for one key are merged as they come, and a batch that was not written is merged into what
has come since. The unsigned deltas of a user may be merged in any order and grouping. The signed
deltas of a torrent may be, unless values of both signs meet and one sign alone leaves the range.
-/

namespace Unit3dAnnounce

open Machine MergeTree Saturating WriteBehind

lemma saturatingAddU32_comm (x y : UInt32) : saturatingAddU32 x y = saturatingAddU32 y x := by
  apply UInt32.toNat_inj.mp
  rw [toNat_saturatingAddU32, toNat_saturatingAddU32, Nat.add_comm]

lemma saturatingAddU32_assoc (x y z : UInt32) :
    saturatingAddU32 (saturatingAddU32 x y) z = saturatingAddU32 x (saturatingAddU32 y z) := by
  apply UInt32.toNat_inj.mp
  simp only [toNat_saturatingAddU32]
  omega

lemma saturatingAddU32_zero (x : UInt32) : saturatingAddU32 x 0 = x := by
  apply UInt32.toNat_inj.mp
  have := x.toNat_lt
  rw [toNat_saturatingAddU32, UInt32.toNat_zero]
  omega

lemma saturatingAddU64_comm (x y : UInt64) : saturatingAddU64 x y = saturatingAddU64 y x := by
  apply UInt64.toNat_inj.mp
  rw [toNat_saturatingAddU64, toNat_saturatingAddU64, Nat.add_comm]

lemma saturatingAddU64_assoc (x y z : UInt64) :
    saturatingAddU64 (saturatingAddU64 x y) z = saturatingAddU64 x (saturatingAddU64 y z) := by
  apply UInt64.toNat_inj.mp
  simp only [toNat_saturatingAddU64]
  omega

lemma saturatingAddU64_zero (x : UInt64) : saturatingAddU64 x 0 = x := by
  apply UInt64.toNat_inj.mp
  have := x.toNat_lt
  rw [toNat_saturatingAddU64, UInt64.toNat_zero]
  omega

instance : Std.Commutative saturatingAddU32 := ⟨saturatingAddU32_comm⟩

instance : Std.Associative saturatingAddU32 := ⟨saturatingAddU32_assoc⟩

instance : Std.Commutative (Mergeable.merge : UserUpdate → UserUpdate → UserUpdate) where
  comm a b := by
    simp only [Mergeable.merge]
    rw [saturatingAddU64_comm, saturatingAddU64_comm a.downloadedDelta]

instance : Std.Associative (Mergeable.merge : UserUpdate → UserUpdate → UserUpdate) where
  assoc a b c := by
    simp only [Mergeable.merge]
    rw [saturatingAddU64_assoc, saturatingAddU64_assoc]

lemma UserUpdate.orderIndependent (updates : Multiset UserUpdate) :
    OrderIndependent Mergeable.merge updates := by
  apply orderIndependent_of_comm (e := ⟨0, 0⟩)
  intro a
  simp only [Mergeable.merge, saturatingAddU64_zero]

namespace TorrentUpdate

/-- The signed fields are values of `i32` and `i64`. -/
structure Representable (update : TorrentUpdate) : Prop where
  seederDelta : -2 ^ 31 ≤ update.seederDelta ∧ update.seederDelta ≤ 2 ^ 31 - 1
  leecherDelta : -2 ^ 31 ≤ update.leecherDelta ∧ update.leecherDelta ≤ 2 ^ 31 - 1
  balanceDelta : -2 ^ 63 ≤ update.balanceDelta ∧ update.balanceDelta ≤ 2 ^ 63 - 1

/-- The record does not depend on the order if and only if no field does. -/
lemma orderIndependent_fields {updates : Multiset TorrentUpdate} :
    OrderIndependent Mergeable.merge updates ↔
      OrderIndependent saturatingAddI32 (updates.map seederDelta) ∧
      OrderIndependent saturatingAddI32 (updates.map leecherDelta) ∧
      OrderIndependent saturatingAddU32 (updates.map timesCompletedDelta) ∧
      OrderIndependent saturatingAddI64 (updates.map balanceDelta) := by
  rw [@orderIndependent_map _ _ Mergeable.merge saturatingAddI32 seederDelta (fun _ _ => rfl),
    @orderIndependent_map _ _ Mergeable.merge saturatingAddI32 leecherDelta (fun _ _ => rfl),
    @orderIndependent_map _ _ Mergeable.merge saturatingAddU32 timesCompletedDelta (fun _ _ => rfl),
    @orderIndependent_map _ _ Mergeable.merge saturatingAddI64 balanceDelta (fun _ _ => rfl)]
  constructor
  · intro h
    refine ⟨?_, ?_, ?_, ?_⟩
    all_goals
      intro t t' ht ht'
      rw [h t t' ht ht']
  · rintro ⟨hseeder, hleecher, hcompleted, hbalance⟩ t t' ht ht'
    rw [TorrentUpdate.mk.injEq]
    exact ⟨hseeder t t' ht ht', hleecher t t' ht ht', hcompleted t t' ht ht', hbalance t t' ht ht'⟩

lemma orderIndependent_iff {updates : Multiset TorrentUpdate}
    (h : ∀ update ∈ updates, update.Representable) :
    OrderIndependent Mergeable.merge updates ↔
      Reorderable (-2 ^ 31) (2 ^ 31 - 1) (updates.map seederDelta) ∧
      Reorderable (-2 ^ 31) (2 ^ 31 - 1) (updates.map leecherDelta) ∧
      Reorderable (-2 ^ 63) (2 ^ 63 - 1) (updates.map balanceDelta) := by
  have hcompleted : OrderIndependent saturatingAddU32 (updates.map timesCompletedDelta) :=
    orderIndependent_of_comm saturatingAddU32_zero _
  have hseeder : OrderIndependent (saturatingAdd (-2 ^ 31) (2 ^ 31 - 1)) (updates.map seederDelta) ↔
      Reorderable (-2 ^ 31) (2 ^ 31 - 1) (updates.map seederDelta) :=
    orderIndependent_saturatingAdd_iff (by norm_num) (by norm_num)
      (Multiset.forall_mem_map_iff.mpr fun update hu => (h update hu).seederDelta)
  have hleecher : OrderIndependent (saturatingAdd (-2 ^ 31) (2 ^ 31 - 1)) (updates.map leecherDelta) ↔
      Reorderable (-2 ^ 31) (2 ^ 31 - 1) (updates.map leecherDelta) :=
    orderIndependent_saturatingAdd_iff (by norm_num) (by norm_num)
      (Multiset.forall_mem_map_iff.mpr fun update hu => (h update hu).leecherDelta)
  have hbalance : OrderIndependent (saturatingAdd (-2 ^ 63) (2 ^ 63 - 1)) (updates.map balanceDelta) ↔
      Reorderable (-2 ^ 63) (2 ^ 63 - 1) (updates.map balanceDelta) :=
    orderIndependent_saturatingAdd_iff (by norm_num) (by norm_num)
      (Multiset.forall_mem_map_iff.mpr fun update hu => (h update hu).balanceDelta)
  rw [orderIndependent_fields, ← hseeder, ← hleecher, ← hbalance]
  exact and_congr Iff.rfl (and_congr Iff.rfl (and_iff_right hcompleted))

end TorrentUpdate

/-- Merging the deltas of a user never depends on the order. Merging those of a torrent depends on it
exactly when values of both signs meet in a field and those of one sign leave its range. -/
theorem merge_orderIndependent_iff :
    (∀ updates : Multiset UserUpdate, OrderIndependent Mergeable.merge updates) ∧
    ∀ updates : Multiset TorrentUpdate, (∀ update ∈ updates, update.Representable) →
      (OrderIndependent Mergeable.merge updates ↔
        Reorderable (-2 ^ 31) (2 ^ 31 - 1) (updates.map TorrentUpdate.seederDelta) ∧
        Reorderable (-2 ^ 31) (2 ^ 31 - 1) (updates.map TorrentUpdate.leecherDelta) ∧
        Reorderable (-2 ^ 63) (2 ^ 63 - 1) (updates.map TorrentUpdate.balanceDelta)) :=
  ⟨UserUpdate.orderIndependent, fun _ h => TorrentUpdate.orderIndependent_iff h⟩

/-- The update of an announce that changes nothing but the traffic. -/
def trafficUpdate (uploadedDelta downloadedDelta : UInt64) : TorrentUpdate :=
  ⟨0, 0, 0, toI64 uploadedDelta - toI64 downloadedDelta⟩

/-- The difference of two clamped deltas is an `i64`. -/
lemma representable_trafficUpdate (uploadedDelta downloadedDelta : UInt64) :
    (trafficUpdate uploadedDelta downloadedDelta).Representable where
  seederDelta := ⟨by norm_num [trafficUpdate], by norm_num [trafficUpdate]⟩
  leecherDelta := ⟨by norm_num [trafficUpdate], by norm_num [trafficUpdate]⟩
  balanceDelta := by
    simp only [trafficUpdate, toI64]
    omega

/-- Some bytes up and some down. -/
theorem merge_orderIndependent_sample :
    OrderIndependent Mergeable.merge ({trafficUpdate 5 0, trafficUpdate 0 3} : Multiset TorrentUpdate) := by
  apply (merge_orderIndependent_iff.2 _ _).mpr
  · refine ⟨.inr (.inr ?_), .inr (.inr ?_), .inr (.inr ?_)⟩
    all_goals decide +kernel
  · simp only [Multiset.insert_eq_cons, Multiset.forall_mem_cons, Multiset.mem_singleton, forall_eq]
    exact ⟨representable_trafficUpdate 5 0, representable_trafficUpdate 0 3⟩

/-- The largest upload, then one byte up and one byte down. -/
theorem merge_order_matters :
    ¬ ∀ updates : Multiset TorrentUpdate,
      (∀ update ∈ updates, ∃ uploadedDelta downloadedDelta,
        update = trafficUpdate uploadedDelta downloadedDelta) →
      OrderIndependent Mergeable.merge updates := by
  intro h
  have heq := h {trafficUpdate (2 ^ 64 - 1) 0, trafficUpdate 1 0, trafficUpdate 0 1} ?_
    (.merge (.merge (.record (trafficUpdate (2 ^ 64 - 1) 0)) (.record (trafficUpdate 1 0)))
      (.record (trafficUpdate 0 1)))
    (.merge (.record (trafficUpdate (2 ^ 64 - 1) 0))
      (.merge (.record (trafficUpdate 1 0)) (.record (trafficUpdate 0 1)))) rfl rfl
  · revert heq
    decide +kernel
  · simp only [Multiset.insert_eq_cons, Multiset.forall_mem_cons, Multiset.mem_singleton, forall_eq]
    exact ⟨⟨_, _, rfl⟩, ⟨_, _, rfl⟩, ⟨_, _, rfl⟩⟩

namespace Pipeline

variable {F K V R : Type} [DecidableEq K] [Mergeable V] [Flushable V R]

omit [DecidableEq K] in
/-- A waiting record stands for the updates that were merged into it. -/
lemma represents_tree (total : Multiset V) :
    Cell.Represents Mergeable.merge (writeRow (F := F)) total
      (fun part value => ∃ t : MergeTree V, t.leaves = part ∧ t.value Mergeable.merge = value)
      (fun part (row : Option R) => row = none → part = 0) where
  single value _ := ⟨.record value, rfl, rfl⟩
  merge part part' value value' _ := by
    rintro ⟨t, rfl, rfl⟩ ⟨t', rfl, rfl⟩
    exact ⟨.merge t t', rfl, rfl⟩
  write _ _ _ _ _ _ _ _ hrow := by simp at hrow

variable [Ord K]

/-- As long as nothing has been written for a key and nothing is in flight, its waiting record is a
merge of all its updates, however often batches of them were taken and put back. -/
theorem queued_eq_value {pipeline : Pipeline K V R} {events : List (PipelineEvent F K V)} {key : K}
    (hqueue : pipeline.queue.records.get? key = none) (hrunning : pipeline.writes.running = [])
    (hrow : (run step pipeline events).writes.table.get? key = none)
    (hidle : ∀ batch ∈ (run step pipeline events).writes.running, batch.get? key = none)
    {value : V} (hvalue : (run step pipeline events).queue.records.get? key = some value) :
    ∃ t : MergeTree V, t.leaves = Multiset.ofList (valuesOf key (events.filterMap PipelineEvent.record?)) ∧
      t.value Mergeable.merge = value := by
  obtain ⟨queued, written, inflight, hsplit, hq, hi, -, hw⟩ :=
    (pipeline.run_channel events).accounted key (represents_tree _) le_rfl hqueue hrunning
      (fun _ => rfl)
  have hinflight : inflight = 0 := by
    rw [inflight_eq_zero hidle] at hi
    exact Multiset.map_eq_zero.mp hi
  have hwritten : written = 0 := hw hrow
  have hcell : ((run step pipeline events).channel.cell key).queued = some value := hvalue
  rw [hcell, Option.elim_some] at hq
  rw [pipeline.enqueued_log events key, hinflight, hwritten, Multiset.map_zero, Multiset.sum_zero,
    add_zero, add_zero] at hsplit
  rwa [hsplit]

/-- So where the order does not matter, only the updates do. -/
theorem queued_unique {pipeline pipeline' : Pipeline K V R} {events events' : List (PipelineEvent F K V)}
    {key : K} (hqueue : pipeline.queue.records.get? key = none)
    (hrunning : pipeline.writes.running = [])
    (hqueue' : pipeline'.queue.records.get? key = none) (hrunning' : pipeline'.writes.running = [])
    (hrow : (run step pipeline events).writes.table.get? key = none)
    (hidle : ∀ batch ∈ (run step pipeline events).writes.running, batch.get? key = none)
    (hrow' : (run step pipeline' events').writes.table.get? key = none)
    (hidle' : ∀ batch ∈ (run step pipeline' events').writes.running, batch.get? key = none)
    (hperm : (valuesOf key (events.filterMap PipelineEvent.record?)).Perm
      (valuesOf key (events'.filterMap PipelineEvent.record?)))
    (hmerge : OrderIndependent Mergeable.merge
      (Multiset.ofList (valuesOf key (events.filterMap PipelineEvent.record?))))
    {value value' : V} (hvalue : (run step pipeline events).queue.records.get? key = some value)
    (hvalue' : (run step pipeline' events').queue.records.get? key = some value') :
    value = value' := by
  obtain ⟨t, ht, rfl⟩ := queued_eq_value hqueue hrunning hrow hidle hvalue
  obtain ⟨t', ht', rfl⟩ := queued_eq_value hqueue' hrunning' hrow' hidle' hvalue'
  exact hmerge t t' ht (ht'.trans (Multiset.coe_eq_coe.mpr hperm).symm)

end Pipeline

end Unit3dAnnounce
