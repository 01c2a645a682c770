import Unit3dAnnounce.Model.Sample
import Unit3dAnnounce.Model.Statement
import Unit3dAnnounce.Proofs.Pipeline

/-!
# Batches

What a flush takes from a queue is its first records, sorted by key and split into batches that
fit into one statement each. A flush takes something only where the two settings that limit it are
not zero and their product does not wrap.
-/

namespace Unit3dAnnounce

open Std

variable {F K V : Type}

section Keys

variable {A B : Type} [Ord A] [Ord B] [LawfulEqOrd A] [LawfulEqOrd B]

lemma transOrd_of_eq [Ord K] {cmp : K → K → Ordering} [TransCmp cmp]
    (h : (compare : K → K → Ordering) = cmp) : TransOrd K := by
  rw [TransOrd, h]
  infer_instance

/-- An order by a part of the keys is lawful where that part tells the keys apart. -/
lemma lawfulEqOrd_of_compareOn [Ord K] [TransOrd K] {f : K → A}
    (h : (compare : K → K → Ordering) = compareOn f) (hf : Function.Injective f) : LawfulEqOrd K where
  eq_of_compare {a b} heq := by
    rw [h] at heq
    exact hf (LawfulEqOrd.eq_of_compare heq)

/-- An order by two parts of the keys is lawful where the two tell the keys apart. -/
lemma lawfulEqOrd_of_compareLex [Ord K] [TransOrd K] {f : K → A} {g : K → B}
    (h : (compare : K → K → Ordering) = compareLex (compareOn f) (compareOn g))
    (hparts : ∀ a b, f a = f b → g a = g b → a = b) : LawfulEqOrd K where
  eq_of_compare {a b} heq := by
    rw [h] at heq
    obtain ⟨hf, hg⟩ := compareLex_eq_eq.mp heq
    exact hparts a b (LawfulEqOrd.eq_of_compare hf) (LawfulEqOrd.eq_of_compare hg)

end Keys

lemma InfoHash.compare_eq : (compare : InfoHash → InfoHash → Ordering) =
    compareOn (fun infoHash => infoHash.bytes.toList) := rfl

instance : TransOrd InfoHash := transOrd_of_eq InfoHash.compare_eq

instance : LawfulEqOrd InfoHash := by
  apply lawfulEqOrd_of_compareOn InfoHash.compare_eq
  rintro ⟨bytes⟩ ⟨bytes'⟩ hbytes
  congr 1
  exact List.Vector.eq _ _ hbytes

lemma PeerId.compare_eq : (compare : PeerId → PeerId → Ordering) =
    compareOn (fun peerId => peerId.bytes.toList) := rfl

instance : TransOrd PeerId := transOrd_of_eq PeerId.compare_eq

instance : LawfulEqOrd PeerId := by
  apply lawfulEqOrd_of_compareOn PeerId.compare_eq
  rintro ⟨bytes⟩ ⟨bytes'⟩ hbytes
  congr 1
  exact List.Vector.eq _ _ hbytes

lemma HistoryUpdate.compare_eq : (compare : Index → Index → Ordering) =
    compareLex (compareOn Index.userId) (compareOn Index.torrentId) := by
  funext a b
  cases a
  cases b
  simp [compare, instOrdIndex.ord, compareLex, compareOn]

instance : TransOrd HistoryUpdate.Index := transOrd_of_eq HistoryUpdate.compare_eq

instance : LawfulEqOrd HistoryUpdate.Index := by
  apply lawfulEqOrd_of_compareLex HistoryUpdate.compare_eq
  rintro ⟨userId, torrentId⟩ ⟨userId', torrentId'⟩ huser htorrent
  congr 1

lemma PeerUpdate.compare_eq : (compare : Index → Index → Ordering) =
    compareLex (compareOn Index.userId)
      (compareLex (compareOn Index.torrentId) (compareOn Index.peerId)) := by
  funext a b
  cases a
  cases b
  simp [compare, instOrdIndex.ord, compareLex, compareOn]

instance : TransOrd PeerUpdate.Index := transOrd_of_eq PeerUpdate.compare_eq

instance : LawfulEqOrd PeerUpdate.Index where
  eq_of_compare {a b} h := by
    rw [PeerUpdate.compare_eq] at h
    obtain ⟨huser, hrest⟩ := compareLex_eq_eq.mp h
    obtain ⟨htorrent, hpeer⟩ := compareLex_eq_eq.mp hrest
    have huser := LawfulEqOrd.eq_of_compare huser
    have htorrent := LawfulEqOrd.eq_of_compare htorrent
    have hpeer := LawfulEqOrd.eq_of_compare hpeer
    cases a
    cases b
    congr 1

lemma TorrentUpdate.compare_eq : (compare : Index → Index → Ordering) =
    compareOn Index.torrentId := by
  funext a b
  cases a
  cases b
  simp [compare, instOrdIndex.ord, compareOn]

instance : TransOrd TorrentUpdate.Index := transOrd_of_eq TorrentUpdate.compare_eq

instance : LawfulEqOrd TorrentUpdate.Index := by
  apply lawfulEqOrd_of_compareOn TorrentUpdate.compare_eq
  rintro ⟨torrentId⟩ ⟨torrentId'⟩ htorrent
  congr 1

lemma UnregisteredInfoHashUpdate.compare_eq : (compare : Index → Index → Ordering) =
    compareLex (compareOn Index.infoHash) (compareOn Index.userId) := by
  funext a b
  cases a
  cases b
  simp [compare, instOrdIndex.ord, compareLex, compareOn]

instance : TransOrd UnregisteredInfoHashUpdate.Index :=
  transOrd_of_eq UnregisteredInfoHashUpdate.compare_eq

instance : LawfulEqOrd UnregisteredInfoHashUpdate.Index := by
  apply lawfulEqOrd_of_compareLex UnregisteredInfoHashUpdate.compare_eq
  rintro ⟨infoHash, userId⟩ ⟨infoHash', userId'⟩ hinfoHash huser
  congr 1

lemma UserUpdate.compare_eq : (compare : Index → Index → Ordering) = compareOn Index.userId := by
  funext a b
  cases a
  cases b
  simp [compare, instOrdIndex.ord, compareOn]

instance : TransOrd UserUpdate.Index := transOrd_of_eq UserUpdate.compare_eq

instance : LawfulEqOrd UserUpdate.Index := by
  apply lawfulEqOrd_of_compareOn UserUpdate.compare_eq
  rintro ⟨userId⟩ ⟨userId'⟩ huser
  congr 1

/-- Keys are distinct, so sorted keys are strictly increasing. -/
lemma sortByKey_pairwise [Ord K] [TransOrd K] [LawfulEqOrd K] (records : IndexMap K V) :
    records.sortByKey.entries.Pairwise fun a b => compare a.1 b.1 = .lt := by
  have hsorted : records.sortByKey.entries.Pairwise fun a b => (compare a.1 b.1).isLE = true := by
    have htotal : Std.Total fun a b : K × V => (compare a.1 b.1).isLE = true := by
      constructor
      intro a b
      rw [OrientedOrd.eq_swap (a := b.1), Ordering.isLE_swap]
      cases compare a.1 b.1 <;> simp
    have htrans : IsTrans (K × V) fun a b => (compare a.1 b.1).isLE = true :=
      ⟨fun a b c => TransOrd.isLE_trans⟩
    exact List.pairwise_insertionSort _ _
  have hdistinct : records.sortByKey.entries.Pairwise fun a b => a.1 ≠ b.1 :=
    List.pairwise_map.mp records.sortByKey.nodup
  refine (hsorted.and hdistinct).imp ?_
  rintro a b ⟨hle, hne⟩
  cases hcompare : compare a.1 b.1 with
  | lt => rfl
  | eq => exact absurd (LawfulEqOrd.eq_of_compare hcompare) hne
  | gt => simp [hcompare] at hle

lemma size_sortByKey [Ord K] (records : IndexMap K V) : records.sortByKey.size = records.size :=
  List.length_insertionSort _ _

namespace Queue

/-- The loop of `take_batches`: from its records and batches, it ends with these batches. -/
inductive SplitLoop (size : ℕ) : IndexMap K V → List (Batch K V) → List (Batch K V) → Prop
  | done {records : IndexMap K V} (batches : List (Batch K V)) (h : records.size = 0) :
    SplitLoop size records batches batches
  | round {records : IndexMap K V} {batches result : List (Batch K V)} (h : records.size ≠ 0)
      (hnext : SplitLoop size (records.take (records.size - min records.size size))
        (records.drop (records.size - min records.size size) :: batches) result) :
    SplitLoop size records batches result

lemma size_take (records : IndexMap K V) (n : ℕ) : (records.take n).size = min n records.size :=
  List.length_take

lemma size_drop (records : IndexMap K V) (n : ℕ) : (records.drop n).size = records.size - n :=
  List.length_drop

/-- With a positive size, the loop ends after at most as many rounds as there are records. -/
lemma splitLoop_splitBatches {size : ℕ} (rounds : ℕ) (records : IndexMap K V)
    (batches : List (Batch K V)) (hrounds : records.size ≤ rounds)
    (hsize : size = 0 → records.size = 0) :
    SplitLoop size records batches (splitBatches size rounds records batches) := by
  induction rounds generalizing records batches with
  | zero => exact .done batches (Nat.le_zero.mp hrounds)
  | succ rounds ih =>
    unfold splitBatches
    by_cases hzero : records.size = 0
    · rw [if_pos hzero]
      exact .done batches hzero
    · rw [if_neg hzero]
      have hpos : 0 < size := Nat.pos_of_ne_zero fun h => hzero (hsize h)
      have htake := size_take records (records.size - min records.size size)
      exact .round hzero (ih _ _ (by omega) (by omega))

lemma SplitLoop.eq_of_size_eq_zero {size : ℕ} {records : IndexMap K V}
    {batches result : List (Batch K V)} (h : SplitLoop size records batches result)
    (hzero : records.size = 0) : result = batches := by
  cases h with
  | done _ _ => rfl
  | round hne _ => exact absurd hzero hne

/-- No batch is empty or too large, and at most one of them is smaller than the others. -/
lemma SplitLoop.batches {size : ℕ} {records : IndexMap K V} {batches result : List (Batch K V)}
    (h : SplitLoop size records batches result) (hsize : 0 < size) :
    ∃ split, result = split ++ batches ∧ (∀ batch ∈ split, batch.size ≠ 0 ∧ batch.size ≤ size) ∧
      split.length * size ≤ records.size + (size - 1) := by
  induction h with
  | done batches hzero => exact ⟨[], rfl, by simp, by simp⟩
  | @round records batches result hzero hnext ih =>
    obtain ⟨split, hresult, hbatches, hlength⟩ := ih
    rw [size_take] at hlength
    refine ⟨split ++ [records.drop (records.size - min records.size size)], ?_, ?_, ?_⟩
    · rw [hresult, List.append_assoc, List.singleton_append]
    · intro batch hbatch
      rcases List.mem_append.mp hbatch with hsplit | hlast
      · exact hbatches batch hsplit
      · rw [List.mem_singleton.mp hlast, size_drop]
        omega
    · rw [List.length_append, List.length_singleton, Nat.add_mul, Nat.one_mul]
      by_cases hfull : size ≤ records.size
      · omega
      · -- the records that are left fit into this batch, so it is the only one
        have hnone : split.length = 0 := by
          by_contra hsome
          have := Nat.le_mul_of_pos_left size (Nat.pos_of_ne_zero hsome)
          omega
        rw [hnone]
        omega

end Queue

namespace QueueConfig

/-- The number of records that a flush takes at most, where it does not wrap. -/
def maxFlushSize (config : Config F) (queue : QueueConfig) : ℕ :=
  config.maxBatchesPerFlush.toNat * (queue.maxBatchSize config).toNat

lemma toNat_minU64 (a b : UInt64) : (min a b).toNat = min a.toNat b.toNat := by
  change (if a ≤ b then a else b).toNat = _
  rw [apply_ite UInt64.toNat, min_def]
  rfl

/-- The number of records whose values fit into a statement. -/
def maxRecords (queue : QueueConfig) : ℕ :=
  (queue.maxBindingsPerFlush - queue.extraBindingsPerFlush).toNat / queue.bindingsPerRecord.toNat

/-- The option only ever makes batches smaller. -/
lemma toNat_maxBatchSize (config : Config F) (queue : QueueConfig) :
    (queue.maxBatchSize config).toNat =
      min queue.maxRecords ((config.maxRecordsPerBatch.map UInt64.toNat).getD queue.maxRecords) := by
  unfold maxBatchSize maxRecords
  cases config.maxRecordsPerBatch with
  | none => simp
  | some maxRecords => simp [toNat_minU64]

lemma maxBatchSize_le (config : Config F) (queue : QueueConfig) :
    (queue.maxBatchSize config).toNat ≤ queue.maxRecords := by
  rw [toNat_maxBatchSize]
  exact Nat.min_le_left _ _

end QueueConfig

namespace Queue

variable [Ord K]

/-- The first records of the queue are taken, sorted by key and split into batches, each of which
is written with one statement. The others stay where they are. -/
structure Partition [Statement K V] (config : Config F) (now : DateTime) (queue : Queue K V) :
    Prop where
  terminates : SplitLoop (queue.config.maxBatchSize config).toNat
    (queue.records.take (queue.config.maxFlushSize config)).sortByKey [] (queue.takeBatches config).1
  length_le : (queue.takeBatches config).1.length ≤ config.maxBatchesPerFlush.toNat
  size_batch : ∀ batch ∈ (queue.takeBatches config).1,
    batch.size ≠ 0 ∧ batch.size ≤ (queue.config.maxBatchSize config).toNat
  perm : ((queue.takeBatches config).1.flatMap IndexMap.entries).Perm
    (queue.records.entries.take (queue.config.maxFlushSize config))
  sorted : ((queue.takeBatches config).1.flatMap IndexMap.entries).Pairwise
    fun a b => compare a.1 b.1 = .lt
  rest : (queue.takeBatches config).2 =
    { queue with records := queue.records.drop (queue.config.maxFlushSize config) }
  bindings_le : ∀ batch ∈ (queue.takeBatches config).1, (batch.bindings config now).length ≤ 65535

lemma takeBatches_eq {config : Config F} {queueConfig : QueueConfig}
    (hfits : queueConfig.maxFlushSize config < 2 ^ 64) (records : IndexMap K V) :
    takeBatches config ⟨records, queueConfig⟩ =
      (splitBatches (queueConfig.maxBatchSize config).toNat
        (records.take (queueConfig.maxFlushSize config)).sortByKey.size
        (records.take (queueConfig.maxFlushSize config)).sortByKey [],
        ⟨records.drop (queueConfig.maxFlushSize config), queueConfig⟩) := by
  have hproduct : (config.maxBatchesPerFlush * queueConfig.maxBatchSize config).toNat =
      queueConfig.maxFlushSize config := by
    rw [UInt64.toNat_mul]
    exact Nat.mod_eq_of_lt hfits
  have htake : records.take (min records.size (queueConfig.maxFlushSize config)) =
      records.take (queueConfig.maxFlushSize config) := by
    apply IndexMap.ext
    rw [Nat.min_comm]
    exact List.take_eq_take_min.symm
  have hdrop : records.drop (min records.size (queueConfig.maxFlushSize config)) =
      records.drop (queueConfig.maxFlushSize config) := by
    apply IndexMap.ext
    rw [Nat.min_comm]
    exact List.drop_eq_drop_min.symm
  simp only [takeBatches, hproduct, htake, hdrop]

omit [Ord K] in
lemma length_bindings_le [Statement K V] {config : Config F} {now : DateTime} {batch : Batch K V}
    {perRecord extra size : ℕ}
    (hvalues : ∀ (key : K) (value : V), (Statement.pushValues now key value).length = perRecord)
    (hextra : (Statement.pushExtra K V config).length = extra) (hsize : batch.size ≤ size) :
    (batch.bindings config now).length ≤ size * perRecord + extra := by
  unfold Batch.bindings
  by_cases hzero : batch.size = 0
  · rw [if_pos hzero]
    exact Nat.zero_le _
  · rw [if_neg hzero, List.length_append, hextra, List.length_flatMap]
    simp only [hvalues, List.map_const', List.sum_replicate, smul_eq_mul]
    exact Nat.add_le_add_right (Nat.mul_le_mul_right perRecord hsize) extra

/-- Where the product does not wrap, a flush takes a partition of the queue. The bindings of the
largest batch that the queue's configuration allows are few enough. -/
lemma partition [TransOrd K] [LawfulEqOrd K] [Statement K V] {config : Config F} {now : DateTime}
    {queueConfig : QueueConfig} (perRecord extra : ℕ)
    (hvalues : ∀ (key : K) (value : V), (Statement.pushValues now key value).length = perRecord)
    (hextra : (Statement.pushExtra K V config).length = extra)
    (hbindings : queueConfig.maxRecords * perRecord + extra ≤ 65535) (records : IndexMap K V)
    (hfits : queueConfig.maxFlushSize config < 2 ^ 64) :
    Partition config now ⟨records, queueConfig⟩ := by
  have hqueue := takeBatches_eq hfits records
  set queue : Queue K V := ⟨records, queueConfig⟩
  set limit := (queueConfig.maxBatchSize config).toNat
  set taken := (records.take (queueConfig.maxFlushSize config)).sortByKey with htaken
  have hcount : taken.size ≤ config.maxBatchesPerFlush.toNat * limit := by
    rw [htaken, size_sortByKey, size_take]
    exact Nat.min_le_left _ _
  have hempty : limit = 0 → taken.size = 0 := by
    intro hzero
    rw [hzero, Nat.mul_zero] at hcount
    exact Nat.le_zero.mp hcount
  have hbatches : (queue.takeBatches config).1 = splitBatches limit taken.size taken [] := by
    rw [hqueue]
  have hloop : SplitLoop limit taken [] (queue.takeBatches config).1 := by
    rw [hbatches]
    exact splitLoop_splitBatches _ _ _ (Nat.le_refl _) hempty
  have hconcat : (queue.takeBatches config).1.flatMap IndexMap.entries = taken.entries := by
    rw [hbatches, splitBatches_flatMap _ _ _ (Nat.le_refl _) hempty, List.flatMap_nil, List.append_nil]
  have hsplit : (queue.takeBatches config).1.length ≤ config.maxBatchesPerFlush.toNat ∧
      ∀ batch ∈ (queue.takeBatches config).1, batch.size ≠ 0 ∧ batch.size ≤ limit := by
    rcases Nat.eq_zero_or_pos limit with hzero | hpos
    · rw [hloop.eq_of_size_eq_zero (hempty hzero)]
      exact ⟨Nat.zero_le _, by simp⟩
    · obtain ⟨split, hresult, hsizes, hlength⟩ := hloop.batches hpos
      rw [hresult, List.append_nil]
      refine ⟨?_, hsizes⟩
      have hlt : split.length * limit < (config.maxBatchesPerFlush.toNat + 1) * limit := by
        rw [Nat.add_mul, Nat.one_mul]
        omega
      exact Nat.lt_succ_iff.mp (Nat.lt_of_mul_lt_mul_right hlt)
  exact {
    terminates := hloop
    length_le := hsplit.1
    size_batch := hsplit.2
    perm := by
      rw [hconcat]
      exact List.perm_insertionSort _ _
    sorted := by
      rw [hconcat]
      exact sortByKey_pairwise _
    rest := by rw [hqueue]
    bindings_le := by
      intro batch hbatch
      have hsize : batch.size ≤ queueConfig.maxRecords :=
        (hsplit.2 batch hbatch).2.trans (queueConfig.maxBatchSize_le config)
      exact (length_bindings_le hvalues hextra hsize).trans hbindings }

end Queue

/-- Whatever the five queues hold, batching is a partition within the binding limit. -/
theorem batches_partition (config : Config F) (now : DateTime) :
    (∀ records : IndexMap HistoryUpdate.Index HistoryUpdate,
      Queues.new.histories.config.maxFlushSize config < 2 ^ 64 →
      Queue.Partition config now ⟨records, Queues.new.histories.config⟩) ∧
    (∀ records : IndexMap PeerUpdate.Index PeerUpdate,
      Queues.new.peers.config.maxFlushSize config < 2 ^ 64 →
      Queue.Partition config now ⟨records, Queues.new.peers.config⟩) ∧
    (∀ records : IndexMap TorrentUpdate.Index TorrentUpdate,
      Queues.new.torrents.config.maxFlushSize config < 2 ^ 64 →
      Queue.Partition config now ⟨records, Queues.new.torrents.config⟩) ∧
    (∀ records : IndexMap UnregisteredInfoHashUpdate.Index UnregisteredInfoHashUpdate,
      Queues.new.unregisteredInfoHashes.config.maxFlushSize config < 2 ^ 64 →
      Queue.Partition config now ⟨records, Queues.new.unregisteredInfoHashes.config⟩) ∧
    (∀ records : IndexMap UserUpdate.Index UserUpdate,
      Queues.new.users.config.maxFlushSize config < 2 ^ 64 →
      Queue.Partition config now ⟨records, Queues.new.users.config⟩) := by
  refine ⟨?_, ?_, ?_, ?_, ?_⟩
  · exact Queue.partition 16 1 (fun _ _ => rfl) rfl (by decide)
  · exact Queue.partition 15 0 (fun _ _ => rfl) rfl (by decide)
  · exact Queue.partition 15 0 (fun _ _ => rfl) rfl (by decide)
  · exact Queue.partition 4 0 (fun _ _ => rfl) rfl (by decide)
  · exact Queue.partition 9 0 (fun _ _ => rfl) rfl (by decide)

namespace Sample

/-- Three histories in the wrong order. -/
def historyRecords : IndexMap HistoryUpdate.Index HistoryUpdate :=
  ((IndexMap.empty.insert ⟨2, 1⟩ (historyUpdate 0 0)).insert ⟨1, 2⟩ (historyUpdate 0 0)).insert
    ⟨1, 1⟩ (historyUpdate 0 0)

/-- With at most two batches of at most two records. -/
def smallBatches : Config ℝ :=
  { config with maxBatchesPerFlush := 2, maxRecordsPerBatch := some 2 }

end Sample

open Sample in
theorem batches_partition_sample :
    Queue.Partition smallBatches (time 0) ⟨historyRecords, Queues.new.histories.config⟩ ∧
      (((⟨historyRecords, Queues.new.histories.config⟩ : Queue _ _).takeBatches smallBatches).1.map
        fun batch => batch.entries.map Prod.fst) = [[⟨1, 1⟩], [⟨1, 2⟩, ⟨2, 1⟩]] :=
  ⟨(batches_partition smallBatches (time 0)).1 historyRecords (by decide +kernel), by decide +kernel⟩

namespace Queue

variable [DecidableEq K] [Ord K] [Mergeable V]

/-- With a working database, nothing comes back into the queue. -/
lemma flush_of_isWritten (config : Config F) (queue : Queue K V) :
    queue.flush config (fun _ => true) = (queue.takeBatches config).2 := by
  unfold flush
  simp only [if_true]
  induction (queue.takeBatches config).1 with
  | nil => rfl
  | cons batch batches ih => exact ih

/-- A flush of a queue with something in it takes some of that, and working flushes empty it. -/
structure MakesProgress (K V : Type) [DecidableEq K] [Ord K] [Mergeable V] (config : Config F)
    (queueConfig : QueueConfig) : Prop where
  fits : queueConfig.maxFlushSize config < 2 ^ 64
  takes : ∀ records : IndexMap K V, records.size ≠ 0 →
    ∃ batch ∈ (takeBatches config ⟨records, queueConfig⟩).1, batch.size ≠ 0
  empties : ∀ records : IndexMap K V, ∃ flushes : ℕ,
    ((flush config fun _ => true)^[flushes] ⟨records, queueConfig⟩).isNotEmpty = false

/-- Working flushes take the records away from the front. -/
lemma flushes_eq {config : Config F} {queueConfig : QueueConfig}
    (hfits : queueConfig.maxFlushSize config < 2 ^ 64) (flushes : ℕ) (records : IndexMap K V) :
    (flush config fun _ => true)^[flushes] ⟨records, queueConfig⟩ =
      ⟨records.drop (flushes * queueConfig.maxFlushSize config), queueConfig⟩ := by
  induction flushes generalizing records with
  | zero =>
    rw [Nat.zero_mul]
    rfl
  | succ flushes ih =>
    rw [Function.iterate_succ_apply, flush_of_isWritten, takeBatches_eq hfits, ih]
    congr 1
    apply IndexMap.ext
    rw [Nat.add_mul, Nat.one_mul, Nat.add_comm]
    exact List.drop_drop

omit [DecidableEq K] [Mergeable V] in
/-- The batches of a flush hold the first records of the queue. -/
lemma size_takeBatches {config : Config F} {queueConfig : QueueConfig}
    (hfits : queueConfig.maxFlushSize config < 2 ^ 64) (records : IndexMap K V) :
    ((takeBatches config ⟨records, queueConfig⟩).1.map IndexMap.size).sum =
      min (queueConfig.maxFlushSize config) records.size := by
  have hperm : records.size = ((takeBatches config ⟨records, queueConfig⟩).1.map IndexMap.size).sum +
      (takeBatches config ⟨records, queueConfig⟩).2.records.size := by
    have hlength := (takeBatches_perm config ⟨records, queueConfig⟩).length_eq
    rw [List.length_append, List.length_flatMap] at hlength
    exact hlength
  have hrest : (takeBatches config ⟨records, queueConfig⟩).2.records.size =
      records.size - queueConfig.maxFlushSize config := by
    rw [takeBatches_eq hfits]
    exact size_drop _ _
  omega

lemma makesProgress {config : Config F} {queueConfig : QueueConfig}
    (hpos : 0 < queueConfig.maxFlushSize config)
    (hfits : queueConfig.maxFlushSize config < 2 ^ 64) : MakesProgress K V config queueConfig := by
  refine ⟨hfits, ?_, ?_⟩
  · intro records hne
    by_contra hnone
    push Not at hnone
    have hzero : ((takeBatches config ⟨records, queueConfig⟩).1.map IndexMap.size).sum = 0 := by
      rw [List.sum_eq_zero_iff]
      intro n hn
      obtain ⟨batch, hbatch, rfl⟩ := List.mem_map.mp hn
      exact hnone batch hbatch
    rw [size_takeBatches hfits] at hzero
    omega
  · intro records
    refine ⟨records.size, ?_⟩
    rw [flushes_eq hfits, isNotEmpty, size_drop]
    have := Nat.le_mul_of_pos_right records.size hpos
    simp only [decide_eq_false_iff_not, not_not]
    omega

/-- A queue with a single record shows that a flush takes something. -/
lemma MakesProgress.maxFlushSize_pos {config : Config F} {queueConfig : QueueConfig}
    (h : MakesProgress K V config queueConfig) (key : K) (value : V) :
    0 < queueConfig.maxFlushSize config := by
  have hsum := size_takeBatches h.fits (⟨[(key, value)], by simp⟩ : IndexMap K V)
  obtain ⟨batch, hbatch, hsize⟩ := h.takes ⟨[(key, value)], by simp⟩ (by simp [IndexMap.size])
  have hle : batch.size ≤ _ := List.le_sum_of_mem (List.mem_map_of_mem hbatch)
  omega

end Queue

/-- The five queues make progress. -/
structure FlushesProgress (config : Config F) : Prop where
  histories : Queue.MakesProgress HistoryUpdate.Index HistoryUpdate config Queues.new.histories.config
  peers : Queue.MakesProgress PeerUpdate.Index PeerUpdate config Queues.new.peers.config
  torrents : Queue.MakesProgress TorrentUpdate.Index TorrentUpdate config Queues.new.torrents.config
  unregisteredInfoHashes : Queue.MakesProgress UnregisteredInfoHashUpdate.Index
    UnregisteredInfoHashUpdate config Queues.new.unregisteredInfoHashes.config
  users : Queue.MakesProgress UserUpdate.Index UserUpdate config Queues.new.users.config

lemma QueueConfig.maxFlushSize_pos_iff {config : Config F} {queue : QueueConfig}
    (hqueue : 0 < queue.maxRecords) : 0 < queue.maxFlushSize config ↔
      0 < config.maxBatchesPerFlush ∧ config.maxRecordsPerBatch ≠ some 0 := by
  have hrecords : 0 < (queue.maxBatchSize config).toNat ↔ config.maxRecordsPerBatch ≠ some 0 := by
    rw [toNat_maxBatchSize, Nat.lt_min]
    cases config.maxRecordsPerBatch with
    | none => simp [hqueue]
    | some maxRecords =>
      have hzero : maxRecords.toNat = 0 ↔ maxRecords = 0 := UInt64.toNat_inj (b := 0)
      simp [hqueue, Nat.pos_iff_ne_zero, hzero]
  rw [maxFlushSize, CanonicallyOrderedAdd.mul_pos, hrecords]
  exact Iff.rfl

lemma QueueConfig.maxFlushSize_le {config : Config F} {queue queue' : QueueConfig}
    (h : queue.maxRecords ≤ queue'.maxRecords) :
    queue.maxFlushSize config ≤ queue'.maxFlushSize config := by
  unfold maxFlushSize
  apply Nat.mul_le_mul_left
  rw [toNat_maxBatchSize, toNat_maxBatchSize]
  cases config.maxRecordsPerBatch with
  | none => simpa using h
  | some maxRecords => exact min_le_min_right _ h

/-- The queue with the smallest records takes the most of them. -/
lemma maxFlushSize_unregisteredInfoHashes (config : Config F) :
    Queues.new.unregisteredInfoHashes.config.maxFlushSize config =
      config.maxBatchesPerFlush.toNat *
        min 16383 ((config.maxRecordsPerBatch.map UInt64.toNat).getD 16383) := by
  rw [QueueConfig.maxFlushSize, QueueConfig.toNat_maxBatchSize]
  rfl

/-- Every flush makes progress exactly where a flush may have batches, a batch may have records, and
the product of the two does not wrap for the smallest records. -/
theorem flushes_progress_iff (config : Config F) :
    FlushesProgress config ↔
      0 < config.maxBatchesPerFlush ∧ config.maxRecordsPerBatch ≠ some 0 ∧
        config.maxBatchesPerFlush.toNat *
          min 16383 ((config.maxRecordsPerBatch.map UInt64.toNat).getD 16383) < 2 ^ 64 := by
  rw [← maxFlushSize_unregisteredInfoHashes]
  constructor
  · intro h
    obtain ⟨hbatches, hrecords⟩ := (QueueConfig.maxFlushSize_pos_iff (by decide)).mp
      (h.users.maxFlushSize_pos ⟨0⟩ ⟨0, 0⟩)
    exact ⟨hbatches, hrecords, h.unregisteredInfoHashes.fits⟩
  · rintro ⟨hbatches, hrecords, hfits⟩
    have hpos : ∀ queue : QueueConfig, 0 < queue.maxRecords → 0 < queue.maxFlushSize config :=
      fun queue hqueue => (QueueConfig.maxFlushSize_pos_iff hqueue).mpr ⟨hbatches, hrecords⟩
    have hfits : ∀ queue : QueueConfig, queue.maxRecords ≤ 16383 →
        queue.maxFlushSize config < 2 ^ 64 :=
      fun queue hqueue => (QueueConfig.maxFlushSize_le hqueue).trans_lt hfits
    exact {
      histories := Queue.makesProgress (hpos _ (by decide)) (hfits _ (by decide))
      peers := Queue.makesProgress (hpos _ (by decide)) (hfits _ (by decide))
      torrents := Queue.makesProgress (hpos _ (by decide)) (hfits _ (by decide))
      unregisteredInfoHashes := Queue.makesProgress (hpos _ (by decide)) (hfits _ (by decide))
      users := Queue.makesProgress (hpos _ (by decide)) (hfits _ (by decide)) }

open Sample in
theorem flush_takes_nothing : ∃ config, fromEnv [("MAX_BATCHES_PER_FLUSH", "0")] = .ok config ∧
    ¬ FlushesProgress config := by
  refine ⟨{ config with maxBatchesPerFlush := 0 }, rfl, ?_⟩
  intro h
  obtain ⟨batch, hbatch, -⟩ := h.histories.takes historyRecords (by decide)
  have hnone : (Queue.takeBatches { config with maxBatchesPerFlush := 0 }
      ⟨historyRecords, Queues.new.histories.config⟩).1 = [] := rfl
  rw [hnone] at hbatch
  exact List.not_mem_nil hbatch

end Unit3dAnnounce
