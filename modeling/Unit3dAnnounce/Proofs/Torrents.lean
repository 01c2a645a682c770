import Unit3dAnnounce.Proofs.Accounting
import Unit3dAnnounce.Proofs.Counters

/-!
# The counters of a torrent in memory and in the database

Memory is ahead of the database by the deltas that are waiting or being written. An upsert brings the
counters of the database row, and so loses whatever is still on its way there.
-/

namespace Unit3dAnnounce

open Machine WriteBehind

variable {F : Type}

/-- The counters that a torrent has both in memory and in the database. -/
inductive TorrentCounter where
  | seeders
  | leechers
  | timesCompleted

namespace TorrentCounter

def column : TorrentCounter → Additive TorrentUpdate TorrentTotals
  | .seeders => TorrentUpdate.seedersColumn
  | .leechers => TorrentUpdate.leechersColumn
  | .timesCompleted => TorrentUpdate.timesCompletedColumn

def value : TorrentCounter → Torrent → UInt32
  | .seeders => Torrent.seeders
  | .leechers => Torrent.leechers
  | .timesCompleted => Torrent.timesCompleted

def requested : TorrentCounter → APIInsertTorrent → UInt32
  | .seeders => APIInsertTorrent.seeders
  | .leechers => APIInsertTorrent.leechers
  | .timesCompleted => APIInsertTorrent.timesCompleted

end TorrentCounter

/-- No delta is at an end of the range of its type. -/
def TorrentUpdate.InRange (update : TorrentUpdate) : Prop :=
  (-2 ^ 31 < update.seederDelta ∧ update.seederDelta < 2 ^ 31 - 1) ∧
    (-2 ^ 31 < update.leecherDelta ∧ update.leecherDelta < 2 ^ 31 - 1) ∧
      update.timesCompletedDelta.toNat < 2 ^ 32 - 1

/-- No counter is at the upper end of the range of its type. -/
def Torrent.InRange (torrent : Torrent) : Prop :=
  torrent.seeders.toNat < 2 ^ 32 - 1 ∧ torrent.leechers.toNat < 2 ^ 32 - 1 ∧
    torrent.timesCompleted.toNat < 2 ^ 32 - 1

instance (update : TorrentUpdate) : Decidable update.InRange :=
  inferInstanceAs (Decidable (_ ∧ _))

instance (torrent : Torrent) : Decidable torrent.InRange :=
  inferInstanceAs (Decidable (_ ∧ _))

/-- A merge whose result is in range has added up exactly. -/
lemma TorrentCounter.amount_merge (counter : TorrentCounter) {update update' : TorrentUpdate}
    (h : (Mergeable.merge update update').InRange) :
    counter.column.amount (Mergeable.merge update update') =
      counter.column.amount update + counter.column.amount update' := by
  obtain ⟨hseeders, hleechers, hcompleted⟩ := h
  cases counter with
  | seeders =>
    simp only [Mergeable.merge, saturatingAddI32] at hseeders
    simp only [column, TorrentUpdate.seedersColumn, Mergeable.merge, saturatingAddI32]
    omega
  | leechers =>
    simp only [Mergeable.merge, saturatingAddI32] at hleechers
    simp only [column, TorrentUpdate.leechersColumn, Mergeable.merge, saturatingAddI32]
    omega
  | timesCompleted =>
    simp only [Mergeable.merge, toNat_saturatingAddU32] at hcompleted
    simp only [column, TorrentUpdate.timesCompletedColumn, Mergeable.merge, toNat_saturatingAddU32]
    omega

section Agreement

/-- What is waiting or being written for a key. -/
def Pipeline.pending {K V R : Type} [DecidableEq K] [Mergeable V] [Flushable V R]
    (column : Additive V R) (pipeline : Pipeline K V R) (key : K) : ℤ :=
  ((pipeline.writes.running.filterMap fun batch => batch.get? key).map column.amount).sum +
    (pipeline.queue.records.get? key).elim 0 column.amount

abbrev TorrentPipeline := Pipeline TorrentUpdate.Index TorrentUpdate TorrentTotals

/-- The counters of a torrent are those of its row and what is on its way there. -/
def Torrent.Follows (pipeline : TorrentPipeline) (id : UInt32) (torrent : Torrent) : Prop :=
  ∃ row, pipeline.writes.table.get? ⟨id⟩ = some row ∧ ∀ counter : TorrentCounter,
    ((counter.value torrent).toNat : ℤ) =
      counter.column.column row + pipeline.pending counter.column ⟨id⟩

/-- The counters of every torrent agree with the database and with the peers. -/
def Tracker.CountersKept (config : Config F) (tracker : Tracker F) : Prop :=
  ∀ id torrent, tracker.state.stores.torrents.get? id = some torrent →
    torrent.Follows tracker.torrentPipeline id ∧
      ∀ kind, (torrent.counter kind).toNat = torrent.listed config kind

/-- No counter of the tracker is at an end of its range. -/
structure Tracker.InRange (tracker : Tracker F) : Prop where
  torrents : ∀ entry ∈ tracker.state.stores.torrents.entries, entry.2.InRange
  queue : ∀ record ∈ tracker.state.queues.torrents.records.entries, record.2.InRange

instance (tracker : Tracker F) : Decidable tracker.InRange :=
  decidable_of_iff ((∀ entry ∈ tracker.state.stores.torrents.entries, entry.2.InRange) ∧
      ∀ record ∈ tracker.state.queues.torrents.records.entries, record.2.InRange)
    ⟨fun h => ⟨h.1, h.2⟩, fun h => ⟨h.torrents, h.queue⟩⟩

/-- The torrents are stored by their ids. -/
def TorrentStore.IsById (torrents : TorrentStore) : Prop :=
  ∀ id torrent, torrents.get? id = some torrent → torrent.id = id

variable {pipeline pipeline' : TorrentPipeline} {id : UInt32} {torrent torrent' : Torrent}

lemma Torrent.follows_iff : torrent.Follows pipeline id ↔
    pipeline.writes.table.get? ⟨id⟩ ≠ none ∧ ∀ counter : TorrentCounter,
      ((counter.value torrent).toNat : ℤ) = pipeline.total counter.column ⟨id⟩ := by
  unfold Torrent.Follows Pipeline.total Pipeline.pending
  cases pipeline.writes.table.get? ⟨id⟩ with
  | none => simp
  | some row => simp [add_assoc]

/-- The waiting record of a key after an update that may be none. -/
def mergeRecord (waiting update : Option TorrentUpdate) : Option TorrentUpdate :=
  update.elim waiting fun update =>
    some (waiting.elim update fun waiting => Mergeable.merge waiting update)

/-- A torrent and its waiting record that change by the same amounts. -/
lemma Torrent.Follows.of_update (h : torrent.Follows pipeline id) {update : Option TorrentUpdate}
    (hwrites : pipeline'.writes = pipeline.writes)
    (hqueue : pipeline'.queue.records.get? ⟨id⟩ =
      mergeRecord (pipeline.queue.records.get? ⟨id⟩) update)
    (hrange : ∀ waiting, pipeline'.queue.records.get? ⟨id⟩ = some waiting → waiting.InRange)
    (hvalue : ∀ counter : TorrentCounter, ((counter.value torrent').toNat : ℤ) =
      (counter.value torrent).toNat + update.elim 0 counter.column.amount) :
    torrent'.Follows pipeline' id := by
  obtain ⟨row, hrow, hcounters⟩ := h
  refine ⟨row, by rw [hwrites]; exact hrow, fun counter => ?_⟩
  have hcounter := hcounters counter
  have hchange := hvalue counter
  unfold mergeRecord at hqueue
  unfold Pipeline.pending at hcounter ⊢
  rw [hwrites]
  cases update with
  | none =>
    simp only [Option.elim_none] at hchange hqueue
    rw [hqueue]
    omega
  | some update =>
    simp only [Option.elim_some] at hchange
    rw [hqueue] at hrange ⊢
    simp only [Option.elim_some] at hrange ⊢
    cases hwaiting : pipeline.queue.records.get? ⟨id⟩ with
    | none =>
      rw [hwaiting, Option.elim_none] at hcounter
      rw [Option.elim_none]
      omega
    | some waiting =>
      simp only [hwaiting, Option.elim_some] at hcounter hrange ⊢
      rw [counter.amount_merge (hrange _ rfl)]
      omega

/-- A flush moves deltas to the row, and loses none where its merges are in range. -/
lemma Torrent.Follows.of_flush (h : torrent.Follows pipeline id) (event : FlushEvent F)
    (hrange : ∀ waiting, (pipeline.flush event).queue.records.get? ⟨id⟩ = some waiting →
      waiting.InRange) : torrent.Follows (pipeline.flush event) id := by
  rw [Torrent.follows_iff] at h ⊢
  rcases pipeline.flush_cell event ⟨id⟩ with hsame | ⟨action, -, hnew, hstep⟩
  · refine ⟨?_, fun counter => ?_⟩
    · have hrow : (pipeline.flush event).writes.table.get? ⟨id⟩ = pipeline.writes.table.get? ⟨id⟩ :=
        congrArg Cell.row hsame
      rw [hrow]
      exact h.1
    · rw [Pipeline.total_eq_cell, hsame, ← Pipeline.total_eq_cell]
      exact h.2 counter
  · refine ⟨?_, fun counter => ?_⟩
    · exact hstep.row_ne_none _ _ h.1
    · rw [Pipeline.total_eq_cell, Cell.total_step hstep, hnew, Multiset.map_zero,
        Multiset.sum_zero, add_zero, ← Pipeline.total_eq_cell]
      · exact h.2 counter
      · intro waiting update hincoming hwaiting
        exact counter.amount_merge (hrange _ (hstep.queued_of_incoming _ _ hincoming hwaiting))
      · intro config row update
        exact counter.column.column_writeRow config row update

end Agreement

section Announce

/-- What an announce adds to a counter. -/
def TorrentCounter.delta : TorrentCounter → PeerChange → ℤ
  | .seeders, change => change.seederDelta
  | .leechers, change => change.leecherDelta
  | .timesCompleted, change => change.timesCompletedDelta.toNat

lemma toNat_saturatingAddSigned_of_inRange {x : UInt32} {d : ℤ}
    (h : (saturatingAddSigned x d).toNat < 2 ^ 32 - 1) (hd : 0 ≤ (x.toNat : ℤ) + d) :
    ((saturatingAddSigned x d).toNat : ℤ) = x.toNat + d := by
  rw [toNat_saturatingAddSigned] at h ⊢
  omega

/-- A counter that stays in range changes by what an announce adds. -/
lemma TorrentCounter.value_withChange (counter : TorrentCounter) {torrent : Torrent}
    {peers : PeerStore} {change : PeerChange} (hrange : (torrent.withChange peers change).InRange)
    (hnonneg : ∀ kind, 0 ≤ ((torrent.counter kind).toNat : ℤ) + change.delta kind) :
    ((counter.value (torrent.withChange peers change)).toNat : ℤ) =
      (counter.value torrent).toNat + counter.delta change := by
  obtain ⟨hseeders, hleechers, hcompleted⟩ := hrange
  cases counter with
  | seeders => exact toNat_saturatingAddSigned_of_inRange hseeders (hnonneg .seed)
  | leechers => exact toNat_saturatingAddSigned_of_inRange hleechers (hnonneg .leech)
  | timesCompleted =>
    simp only [Torrent.withChange, toNat_saturatingAddU32] at hcompleted
    simp only [TorrentCounter.value, Torrent.withChange, TorrentCounter.delta, toNat_saturatingAddU32]
    omega

lemma Accepted.delta_eq_zero {a : Accepted F} (h : a.touchesTorrentQueue = false)
    (counter : TorrentCounter) : counter.delta a.change = 0 := by
  simp only [Accepted.touchesTorrentQueue, Bool.or_eq_false_iff, decide_eq_false_iff_not,
    not_not] at h
  obtain ⟨⟨⟨⟨hseeders, hleechers⟩, hcompleted⟩, -⟩, -⟩ := h
  cases counter with
  | seeders => exact hseeders
  | leechers => exact hleechers
  | timesCompleted =>
    simp only [TorrentCounter.delta, hcompleted]
    rfl

variable [RateField F] {config : Config F} {tracker : Tracker F}

/-- What an accepted announce leaves in the torrents queue. -/
lemma AcceptedBy.get?_torrentsQueue {env : Env F} {request : AnnounceRequest} {state : AppState F}
    {a : Accepted F} {old new : Torrent} (h : AcceptedBy config env request state a old new)
    (id : UInt32) :
    ((announce config env request).run state).1.queues.torrents.records.get? ⟨id⟩ =
      mergeRecord (state.queues.torrents.records.get? ⟨id⟩)
        (if id = a.torrentId ∧ a.touchesTorrentQueue = true then some a.torrentUpdate else none) := by
  obtain ⟨ports, hstate⟩ := h.state
  rw [hstate]
  simp only [Accepted.published, mergeRecord]
  cases htouches : a.touchesTorrentQueue with
  | false => simp
  | true =>
    simp only [if_true, and_true, Queue.upsert, IndexMap.get?_upsert, TorrentUpdate.Index.mk.injEq]
    by_cases hid : id = a.torrentId
    · subst hid
      simp only [if_true, Option.elim_some]
    · simp only [hid, if_false, Option.elim_none]

omit [RateField F] in
lemma Tracker.InRange.waiting (h : tracker.InRange) {key : TorrentUpdate.Index}
    {waiting : TorrentUpdate}
    (hwaiting : tracker.torrentPipeline.queue.records.get? key = some waiting) : waiting.InRange :=
  h.queue (key, waiting) (IndexMap.get?_eq_some.mp hwaiting)

lemma Tracker.countersKept_announce (h : tracker.CountersKept config) (env : Env F)
    (request : AnnounceRequest)
    (hrange : (tracker.step (.announce config env request)).InRange) :
    (tracker.step (.announce config env request)).CountersKept config := by
  intro id torrent hstored
  cases hr : ((announce config env request).run tracker.state).2 with
  | error e =>
    have htorrents := (stores_of_rejected hr).2
    have hqueue := (queues_of_rejected hr).2.2.2
    simp only [Tracker.step, htorrents] at hstored
    have hpipeline : (tracker.step (.announce config env request)).torrentPipeline =
        tracker.torrentPipeline := by
      simp only [Tracker.step, Tracker.torrentPipeline, hqueue]
    rw [hpipeline]
    exact h id torrent hstored
  | ok a =>
    obtain ⟨old, new, haccepted⟩ := announce_ok hr
    have hqueue := haccepted.get?_torrentsQueue id
    have hinRange := hrange.torrents (id, torrent) (IndexMap.get?_eq_some.mp hstored)
    simp only [Tracker.step] at hstored
    rw [haccepted.torrents_eq, IndexMap.get?_modify] at hstored
    by_cases hid : id = a.torrentId
    · subst hid
      rw [if_pos rfl, haccepted.torrents.stored, Option.map_some, Option.some_inj] at hstored
      subst hstored
      obtain ⟨hfollows, hlisted⟩ := h _ _ haccepted.torrents.stored
      obtain ⟨peers', -, hnew, -⟩ := changeTorrent_ok haccepted.torrents.change
      have hdelta (kind : ListKind) : ((old.counter kind).toNat : ℤ) + a.change.delta kind =
          new.listed config kind := by
        rw [haccepted.torrents.listed kind, hlisted kind]
      have hvalue (counter : TorrentCounter) : ((counter.value new).toNat : ℤ) =
          (counter.value old).toNat + counter.delta a.change := by
        rw [hnew] at hinRange ⊢
        refine counter.value_withChange hinRange fun kind => ?_
        have hkind := hdelta kind
        omega
      refine ⟨hfollows.of_update rfl hqueue (fun waiting => hrange.waiting) fun counter => ?_, ?_⟩
      · rw [hvalue counter]
        cases htouches : a.touchesTorrentQueue with
        | false =>
          rw [Accepted.delta_eq_zero htouches counter]
          simp
        | true =>
          simp only [and_self, if_true, Option.elim_some]
          cases counter <;> rfl
      · intro kind
        have hkind := hdelta kind
        cases kind with
        | seed =>
          have hseeders := hvalue .seeders
          simp only [TorrentCounter.value, TorrentCounter.delta] at hseeders
          simp only [Torrent.counter, PeerChange.delta] at hkind ⊢
          omega
        | leech =>
          have hleechers := hvalue .leechers
          simp only [TorrentCounter.value, TorrentCounter.delta] at hleechers
          simp only [Torrent.counter, PeerChange.delta] at hkind ⊢
          omega
    · rw [if_neg hid] at hstored
      obtain ⟨hfollows, hlisted⟩ := h _ _ hstored
      rw [if_neg fun hand => hid hand.1] at hqueue
      refine ⟨hfollows.of_update rfl hqueue (fun waiting => hrange.waiting) fun counter => ?_, hlisted⟩
      rw [Option.elim_none, add_zero]

end Announce

section Reap

lemma Queue.records_foldl_upsert {K V : Type} [DecidableEq K] [Mergeable V] (records : List (K × V))
    (queue : Queue K V) :
    (records.foldl (fun queue record => queue.upsert record.1 record.2) queue).records =
      records.foldl (fun m record => m.upsert record.1
        (fun waiting => Mergeable.merge waiting record.2) record.2) queue.records := by
  induction records generalizing queue with
  | nil => rfl
  | cons record records ih => exact ih (queue.upsert record.1 record.2)

variable (config : Config F) (activeCutoff inactiveCutoff : DateTime)

/-- The records that a reap enqueues. -/
def TorrentStore.reapRecords (torrents : TorrentStore) : List (TorrentUpdate.Index × TorrentUpdate) :=
  torrents.entries.filterMap fun entry => entry.2.reapUpdate config activeCutoff inactiveCutoff

variable {config activeCutoff inactiveCutoff}

lemma Torrent.id_reap (torrent : Torrent) :
    (torrent.reap config activeCutoff inactiveCutoff).1.id = torrent.id := by
  rw [Torrent.reap_eq]

lemma Torrent.reapUpdate_some {torrent : Torrent} {record : TorrentUpdate.Index × TorrentUpdate}
    (h : torrent.reapUpdate config activeCutoff inactiveCutoff = some record) :
    record = (⟨torrent.id⟩, ⟨(torrent.reap config activeCutoff inactiveCutoff).2.seederDelta,
      (torrent.reap config activeCutoff inactiveCutoff).2.leecherDelta, 0, 0⟩) := by
  simp only [Torrent.reapUpdate] at h
  split_ifs at h
  rw [Option.some_inj] at h
  rw [← h, Torrent.id_reap]

lemma TorrentStore.fst_of_mem_entries {torrents : TorrentStore} (hids : torrents.IsById)
    {entry : UInt32 × Torrent} (hmem : entry ∈ torrents.entries)
    {record : TorrentUpdate.Index × TorrentUpdate}
    (h : entry.2.reapUpdate config activeCutoff inactiveCutoff = some record) :
    record.1 = ⟨entry.1⟩ := by
  rw [Torrent.reapUpdate_some h, hids entry.1 entry.2 (IndexMap.get?_eq_some.mpr hmem)]

lemma TorrentStore.nodup_reapRecords {torrents : TorrentStore} (hids : torrents.IsById) :
    ((torrents.reapRecords config activeCutoff inactiveCutoff).map Prod.fst).Nodup := by
  have hkeys : torrents.entries.Pairwise fun entry entry' => entry.1 ≠ entry'.1 :=
    List.pairwise_map.mp torrents.nodup
  unfold TorrentStore.reapRecords List.Nodup
  rw [List.pairwise_map, List.pairwise_filterMap]
  refine hkeys.imp_of_mem ?_
  intro entry entry' hmem hmem' hne record hrecord record' hrecord' heq
  rw [fst_of_mem_entries hids hmem hrecord, fst_of_mem_entries hids hmem' hrecord',
    TorrentUpdate.Index.mk.injEq] at heq
  exact hne heq

/-- A torrent has at most one record in a reap, its own. -/
lemma TorrentStore.lookup_reapRecords {torrents : TorrentStore} (hids : torrents.IsById)
    {id : UInt32} {torrent : Torrent} (hstored : torrents.get? id = some torrent) :
    (torrents.reapRecords config activeCutoff inactiveCutoff).lookup ⟨id⟩ =
      (torrent.reapUpdate config activeCutoff inactiveCutoff).map Prod.snd := by
  have hmem : (id, torrent) ∈ torrents.entries := IndexMap.get?_eq_some.mp hstored
  cases hupdate : torrent.reapUpdate config activeCutoff inactiveCutoff with
  | some record =>
    apply IndexMap.lookup_eq_some_of_mem (nodup_reapRecords hids)
    have hkey := fst_of_mem_entries hids hmem hupdate
    rw [TorrentStore.reapRecords, List.mem_filterMap]
    refine ⟨(id, torrent), hmem, hupdate.trans ?_⟩
    rw [← hkey]
  | none =>
    rw [Option.map_none, IndexMap.lookup_eq_none_iff_notMem]
    intro hrecord
    obtain ⟨record, hrecord, hkey⟩ := List.mem_map.mp hrecord
    obtain ⟨entry, hentry, hsome⟩ := List.mem_filterMap.mp hrecord
    rw [fst_of_mem_entries hids hentry hsome, TorrentUpdate.Index.mk.injEq] at hkey
    have hsame : torrents.get? id = some entry.2 := by
      rw [← hkey]
      exact IndexMap.get?_eq_some.mpr hentry
    rw [hstored, Option.some_inj] at hsame
    rw [← hsame, hupdate] at hsome
    simp at hsome

variable (config activeCutoff inactiveCutoff) in
/-- What a reap leaves in the torrents queue. -/
lemma get?_torrentsQueue_reapTorrents {state : AppState F} (hids : state.stores.torrents.IsById)
    {id : UInt32} {torrent : Torrent} (hstored : state.stores.torrents.get? id = some torrent) :
    (reapTorrents config activeCutoff inactiveCutoff state).queues.torrents.records.get? ⟨id⟩ =
      mergeRecord (state.queues.torrents.records.get? ⟨id⟩)
        ((torrent.reapUpdate config activeCutoff inactiveCutoff).map Prod.snd) := by
  have hqueue : (reapTorrents config activeCutoff inactiveCutoff state).queues.torrents.records =
      (state.stores.torrents.reapRecords config activeCutoff inactiveCutoff).foldl
        (fun m record => m.upsert record.1 (fun waiting => Mergeable.merge waiting record.2) record.2)
        state.queues.torrents.records := Queue.records_foldl_upsert _ _
  rw [hqueue, IndexMap.get?_foldl_upsert _ (TorrentStore.nodup_reapRecords hids) _
    (fun _ update waiting => Mergeable.merge waiting update) (fun _ update => update),
    TorrentStore.lookup_reapRecords hids hstored]
  cases torrent.reapUpdate config activeCutoff inactiveCutoff <;> rfl

/-- What a reap enqueues for a torrent is what it adds to its counters. -/
lemma Torrent.value_reap (torrent : Torrent)
    (hlisted : ∀ kind, (torrent.counter kind).toNat = torrent.listed config kind)
    (counter : TorrentCounter) :
    ((counter.value (torrent.reap config activeCutoff inactiveCutoff).1).toNat : ℤ) =
      (counter.value torrent).toNat +
        ((torrent.reapUpdate config activeCutoff inactiveCutoff).map Prod.snd).elim 0
          counter.column.amount := by
  have hkind (kind : ListKind) :
      ((torrent.reap config activeCutoff inactiveCutoff).1.counter kind).toNat =
        ((torrent.counter kind).toNat : ℤ) +
          (torrent.reap config activeCutoff inactiveCutoff).2.delta kind := by
    have hdropped := torrent.listed_reap config activeCutoff inactiveCutoff kind
    have hcounter := hlisted kind
    have hbound := (torrent.counter kind).toNat_lt
    rw [Torrent.counter_reap, Torrent.delta_reap, toNat_saturatingAddSigned]
    omega
  have hcompleted : (torrent.reap config activeCutoff inactiveCutoff).1.timesCompleted =
      torrent.timesCompleted := by
    rw [Torrent.reap_eq]
  cases hupdate : torrent.reapUpdate config activeCutoff inactiveCutoff with
  | some record =>
    rw [Torrent.reapUpdate_some hupdate, Option.map_some, Option.elim_some]
    cases counter with
    | seeders => exact hkind .seed
    | leechers => exact hkind .leech
    | timesCompleted =>
      simp only [TorrentCounter.value, hcompleted]
      exact (add_zero _).symm
  | none =>
    have hzero : (torrent.reap config activeCutoff inactiveCutoff).2.seederDelta = 0 ∧
        (torrent.reap config activeCutoff inactiveCutoff).2.leecherDelta = 0 := by
      simpa [Torrent.reapUpdate] using hupdate
    rw [Option.map_none, Option.elim_none, add_zero]
    cases counter with
    | seeders =>
      have hseed := hkind .seed
      simp only [ExpiryDeltas.delta, hzero.1, add_zero] at hseed
      exact hseed
    | leechers =>
      have hleech := hkind .leech
      simp only [ExpiryDeltas.delta, hzero.2, add_zero] at hleech
      exact hleech
    | timesCompleted => simp only [TorrentCounter.value, hcompleted]

variable [RateField F] {tracker : Tracker F}

lemma Tracker.countersKept_reap (h : tracker.CountersKept config)
    (hids : tracker.state.stores.torrents.IsById) (activeNow inactiveNow : DateTime)
    (hrange : (tracker.step (.reap config activeNow inactiveNow)).InRange) :
    (tracker.step (.reap config activeNow inactiveNow)).CountersKept config := by
  cases hr : reap config activeNow inactiveNow tracker.state with
  | none =>
    have hsame : tracker.step (.reap config activeNow inactiveNow) = tracker := by
      simp only [Tracker.step, hr, Option.getD_none]
    rw [hsame]
    exact h
  | some state =>
    obtain ⟨activeCutoff, inactiveCutoff, rfl⟩ := reap_some hr
    have hstep : tracker.step (.reap config activeNow inactiveNow) =
        { tracker with state := reapTorrents config activeCutoff inactiveCutoff tracker.state } := by
      simp only [Tracker.step, hr, Option.getD_some]
    rw [hstep] at hrange ⊢
    intro id torrent' hstored
    simp only [reapTorrents, IndexMap.get?_mapValues, Option.map_eq_some_iff] at hstored
    obtain ⟨torrent, hstored, rfl⟩ := hstored
    obtain ⟨hfollows, hlisted⟩ := h id torrent hstored
    have hqueue := get?_torrentsQueue_reapTorrents config activeCutoff inactiveCutoff hids hstored
    refine ⟨hfollows.of_update rfl hqueue (fun waiting => hrange.waiting)
      (torrent.value_reap hlisted), ?_⟩
    intro kind
    have hdropped := torrent.listed_reap config activeCutoff inactiveCutoff kind
    have hcounter := hlisted kind
    have hbound := (torrent.counter kind).toNat_lt
    rw [Torrent.counter_reap, toNat_saturatingAddSigned]
    omega

end Reap

/-- The events of the tracker, and upserts of torrents. -/
inductive SiteEvent (F : Type) where
  | tracker (event : TrackerEvent F)
  | upsert (torrent : APIInsertTorrent)

section Site

variable [RateField F]

def Tracker.serveSite (tracker : Tracker F) : SiteEvent F → Tracker F
  | .tracker event => tracker.step event
  | .upsert torrent => { tracker with state := ((upsertTorrent torrent).run tracker.state).1 }

/-- Announces and reaps happen under the configuration. -/
def TrackerEvent.IsUnder (config : Config F) : TrackerEvent F → Prop
  | .announce config' _ _ => config' = config
  | .reap config' _ _ => config' = config
  | _ => True

/-- An upsert is about a stored torrent and carries the counters of its row. -/
def Tracker.Admits (config : Config F) (tracker : Tracker F) : SiteEvent F → Prop
  | .tracker event => event.IsUnder config
  | .upsert torrent => tracker.state.stores.torrents.contains torrent.id = true ∧
      ∀ counter : TorrentCounter,
        (tracker.torrents.table.get? ⟨torrent.id⟩).map counter.column.column =
          some ((counter.requested torrent).toNat : ℤ)

/-- The deltas of the torrent of an upsert that are waiting or being written sum to zero. -/
def Tracker.FindsNonePending (tracker : Tracker F) : SiteEvent F → Prop
  | .tracker _ => True
  | .upsert torrent => (InfoHash.fromStr torrent.infoHash).isSome →
      ∀ counter : TorrentCounter, tracker.torrentPipeline.pending counter.column ⟨torrent.id⟩ = 0

variable {config : Config F} {tracker : Tracker F}

lemma Tracker.countersKept_step (h : tracker.CountersKept config)
    (hids : tracker.state.stores.torrents.IsById) {event : TrackerEvent F}
    (hconfig : event.IsUnder config) (hrange : (tracker.step event).InRange) :
    (tracker.step event).CountersKept config := by
  cases event with
  | announce config' env request =>
    have hsame : config' = config := hconfig
    subst hsame
    exact countersKept_announce h env request hrange
  | reap config' activeNow inactiveNow =>
    have hsame : config' = config := hconfig
    subst hsame
    exact countersKept_reap h hids activeNow inactiveNow hrange
  | flushTorrents event =>
    intro id torrent hstored
    obtain ⟨hfollows, hlisted⟩ := h id torrent hstored
    exact ⟨hfollows.of_flush event fun waiting => hrange.waiting, hlisted⟩
  | flushHistories event => exact h
  | flushPeers event => exact h
  | flushUsers event => exact h

omit [RateField F] in
/-- What an upsert leaves of the torrents. -/
lemma torrents_upsertTorrent (request : APIInsertTorrent) (state : AppState F) :
    ((upsertTorrent request).run state).1.stores.torrents =
      if (InfoHash.fromStr request.infoHash).isSome then
        (state.stores.torrents.swapRemove request.id).insert request.id
          (request.toTorrent ((state.stores.torrents.get? request.id).elim .empty Torrent.peers))
      else state.stores.torrents := by
  unfold upsertTorrent
  cases InfoHash.fromStr request.infoHash with
  | none => rfl
  | some infoHash => rfl

omit [RateField F] in
lemma queues_upsertTorrent (request : APIInsertTorrent) (state : AppState F) :
    ((upsertTorrent request).run state).1.queues = state.queues := by
  unfold upsertTorrent
  cases InfoHash.fromStr request.infoHash with
  | none => rfl
  | some infoHash => rfl

/-- An upsert keeps the agreement exactly when it finds nothing on its way to the row. -/
lemma Tracker.countersKept_upsert (h : tracker.CountersKept config) {request : APIInsertTorrent}
    (hadmits : tracker.Admits config (.upsert request)) :
    (tracker.serveSite (.upsert request)).CountersKept config ↔
      tracker.FindsNonePending (.upsert request) := by
  obtain ⟨hcontains, hrequested⟩ := hadmits
  obtain ⟨old, hold⟩ := Option.isSome_iff_exists.mp hcontains
  obtain ⟨⟨row, hrow, hcounters⟩, hlisted⟩ := h request.id old hold
  have hpipeline : (tracker.serveSite (.upsert request)).torrentPipeline =
      tracker.torrentPipeline := by
    simp only [serveSite, torrentPipeline, queues_upsertTorrent]
  have htorrents := torrents_upsertTorrent request tracker.state
  unfold CountersKept FindsNonePending
  rw [hpipeline]
  simp only [serveSite, htorrents]
  cases hhash : (InfoHash.fromStr request.infoHash).isSome with
  | false =>
    simp only [Bool.false_eq_true, if_false, false_implies, iff_true]
    exact h
  | true =>
    simp only [if_true, forall_true_left, IndexMap.get?_insert, IndexMap.get?_swapRemove, hold,
      Option.elim_some]
    have hcarried (counter : TorrentCounter) :
        ((counter.requested request).toNat : ℤ) = counter.column.column row := by
      have hcounter := hrequested counter
      rw [show tracker.torrents.table.get? ⟨request.id⟩ = some row from hrow, Option.map_some,
        Option.some_inj] at hcounter
      exact hcounter.symm
    have hnew (counter : TorrentCounter) :
        counter.value (request.toTorrent old.peers) = counter.requested request := by
      cases counter <;> rfl
    constructor
    · intro hkept counter
      obtain ⟨⟨row', hrow', hcounters'⟩, -⟩ := hkept request.id _ (if_pos rfl)
      rw [hrow, Option.some_inj] at hrow'
      subst hrow'
      have hcounter := hcounters' counter
      rw [hnew, hcarried] at hcounter
      omega
    · intro hnone id torrent hstored
      by_cases hid : id = request.id
      · subst hid
        rw [if_pos rfl, Option.some_inj] at hstored
        subst hstored
        have hsame (counter : TorrentCounter) :
            ((counter.value (request.toTorrent old.peers)).toNat : ℤ) =
              (counter.value old).toNat := by
          rw [hnew, hcarried, hcounters counter, hnone counter, add_zero]
        refine ⟨⟨row, hrow, fun counter => ?_⟩, fun kind => ?_⟩
        · rw [hsame]
          exact hcounters counter
        · -- the peers stay, and with them the counts
          rw [show (request.toTorrent old.peers).listed config kind = old.listed config kind from rfl,
            ← hlisted kind]
          cases kind with
          | seed => exact Int.ofNat_inj.mp (hsame .seeders)
          | leech => exact Int.ofNat_inj.mp (hsame .leechers)
      · rw [if_neg hid, if_neg hid] at hstored
        exact h id torrent hstored

lemma Tracker.isById_serveSite (h : tracker.state.stores.torrents.IsById) (event : SiteEvent F) :
    (tracker.serveSite event).state.stores.torrents.IsById := by
  cases event with
  | tracker event =>
    cases event with
    | announce config env request =>
      simp only [serveSite, step]
      cases hr : ((announce config env request).run tracker.state).2 with
      | error e =>
        rw [(stores_of_rejected hr).2]
        exact h
      | ok a =>
        obtain ⟨old, new, haccepted⟩ := announce_ok hr
        rw [haccepted.torrents_eq]
        intro id torrent hstored
        rw [IndexMap.get?_modify] at hstored
        by_cases hid : id = a.torrentId
        · subst hid
          rw [if_pos rfl, haccepted.torrents.stored, Option.map_some, Option.some_inj] at hstored
          subst hstored
          obtain ⟨peers', -, hnew, -⟩ := changeTorrent_ok haccepted.torrents.change
          rw [hnew]
          exact h a.torrentId old haccepted.torrents.stored
        · rw [if_neg hid] at hstored
          exact h id torrent hstored
    | reap config activeNow inactiveNow =>
      simp only [serveSite, step]
      cases hr : reap config activeNow inactiveNow tracker.state with
      | none => exact h
      | some state =>
        obtain ⟨activeCutoff, inactiveCutoff, rfl⟩ := reap_some hr
        intro id torrent' hstored
        simp only [Option.getD_some, reapTorrents, IndexMap.get?_mapValues,
          Option.map_eq_some_iff] at hstored
        obtain ⟨torrent, hstored, rfl⟩ := hstored
        rw [Torrent.id_reap]
        exact h id torrent hstored
    | flushHistories event => exact h
    | flushPeers event => exact h
    | flushTorrents event => exact h
    | flushUsers event => exact h
  | upsert request =>
    simp only [serveSite, torrents_upsertTorrent]
    cases hhash : (InfoHash.fromStr request.infoHash).isSome with
    | false => exact h
    | true =>
      intro id torrent hstored
      rw [if_pos rfl, IndexMap.get?_insert] at hstored
      by_cases hid : id = request.id
      · rw [if_pos hid, Option.some_inj] at hstored
        subst hstored
        exact hid.symm
      · rw [if_neg hid, IndexMap.get?_swapRemove, if_neg hid] at hstored
        exact h id torrent hstored

/-- In a run in range, memory stays ahead of the database by what is on its way there exactly when no
upsert comes while something is on its way to the row of its torrent. -/
theorem pending_deltas_kept_iff (config : Config F) (tracker : Tracker F)
    (events : List (SiteEvent F)) (hids : tracker.state.stores.torrents.IsById)
    (hagree : tracker.CountersKept config)
    (hadmits : Along Tracker.serveSite (Tracker.Admits config) tracker events)
    (hrange : Always Tracker.serveSite Tracker.InRange tracker events) :
    Always Tracker.serveSite (Tracker.CountersKept config) tracker events ↔
      Along Tracker.serveSite Tracker.FindsNonePending tracker events := by
  have hbyId : Always Tracker.serveSite
      (fun tracker => tracker.state.stores.torrents.IsById) tracker events :=
    hadmits.invariant (fun tracker event _ h => tracker.isById_serveSite h event) hids
  refine ((hbyId.along.and hrange.along).and hadmits).always_iff ?_ hagree
  rintro tracker event ⟨⟨⟨hids, -⟩, -, hrange⟩, hadmits⟩ hkept
  cases event with
  | tracker event =>
    exact iff_of_true (tracker.countersKept_step hkept hids hadmits hrange) trivial
  | upsert request => exact tracker.countersKept_upsert hkept hadmits

end Site

namespace Sample

/-- A site with a torrent without peers, and its row. -/
def torrentTracker : Tracker ℝ :=
  { tracker none [1] with torrents := ⟨[], .insert .empty ⟨1⟩ ⟨0, 0, 0, 0⟩⟩ }

def seeding : SiteEvent ℝ := .tracker (.announce config (env 0) (request 1 1 .started 0))

/-- A seeder comes and is written to the row before the torrent is edited, and then expires. -/
def torrentRun : List (SiteEvent ℝ) :=
  [seeding, .tracker (.flushTorrents (.takeBatches config)),
    .tracker (.flushTorrents (.finish config 0 true)), .upsert { torrentRequest with seeders := 1 },
    .tracker (.reap config (time 8000) (time 8000))]

lemma isById_torrentTracker : torrentTracker.state.stores.torrents.IsById := by
  intro id torrent hstored
  obtain ⟨rfl, rfl⟩ := IndexMap.eq_of_get?_insert_empty hstored
  rfl

lemma countersKept_torrentTracker : torrentTracker.CountersKept config := by
  intro id torrent hstored
  obtain ⟨rfl, rfl⟩ := IndexMap.eq_of_get?_insert_empty hstored
  refine ⟨⟨⟨0, 0, 0, 0⟩, rfl, fun counter => ?_⟩, fun kind => ?_⟩
  · cases counter <;> decide +kernel
  · cases kind <;> decide +kernel

end Sample

theorem pending_deltas_kept_iff_sample :
    Always Tracker.serveSite (Tracker.CountersKept Sample.config) Sample.torrentTracker
        Sample.torrentRun ↔
      Along Tracker.serveSite Tracker.FindsNonePending Sample.torrentTracker Sample.torrentRun := by
  refine pending_deltas_kept_iff Sample.config Sample.torrentTracker Sample.torrentRun
    Sample.isById_torrentTracker Sample.countersKept_torrentTracker
    ⟨rfl, trivial, trivial, ⟨by decide +kernel, fun counter => ?_⟩, rfl, trivial⟩ (by decide +kernel)
  cases counter <;> decide +kernel

/-- A seeder comes, and the torrent is edited before the seeder is written to the row. -/
theorem pending_deltas_lost :
    ¬ ∀ (config : Config ℝ) tracker events, tracker.Idle →
      tracker.state.stores.torrents.IsById → tracker.CountersKept config →
      Along Tracker.serveSite (Tracker.Admits config) tracker events →
      Always Tracker.serveSite Tracker.InRange tracker events →
      Always Tracker.serveSite (Tracker.CountersKept config) tracker events := by
  intro h
  have hkept := h Sample.config Sample.torrentTracker
    [Sample.seeding, .upsert Sample.torrentRequest]
    ⟨⟨rfl, rfl⟩, ⟨rfl, rfl⟩, ⟨rfl, rfl⟩, ⟨rfl, rfl⟩⟩ Sample.isById_torrentTracker
    Sample.countersKept_torrentTracker
    ⟨rfl, ⟨by decide +kernel, fun counter => by cases counter <;> decide +kernel⟩, trivial⟩
    (by decide +kernel)
  -- the seeder is still there, and the counter is back at zero
  have hlost : ((run Tracker.serveSite Sample.torrentTracker
      [Sample.seeding, .upsert Sample.torrentRequest]).state.stores.torrents.get? 1).map
        (fun torrent => (torrent.seeders, torrent.listed Sample.config .seed)) = some (0, 1) := by
    decide +kernel
  obtain ⟨torrent, hstored, hcounts⟩ := Option.map_eq_some_iff.mp hlost
  obtain ⟨hseeders, hlisted⟩ := Prod.mk.inj hcounts
  have hcount := (hkept.last 1 torrent hstored).2 .seed
  rw [hlisted, Torrent.counter, hseeders] at hcount
  exact absurd hcount (by decide)

end Unit3dAnnounce
