import Unit3dAnnounce.Machine.Journal
import Unit3dAnnounce.Model.Outbox
import Unit3dAnnounce.Proofs.Accounting
import Unit3dAnnounce.Proofs.Phases
import Unit3dAnnounce.Proofs.Sections

/-!
# What reaches the tables

Announces of any number take their sections in any order, and so do other requests, reaps and the steps of
flushes. What an announce has written down by the time it is accepted is settled by what it returns, and
reaches its tables exactly once.
-/

namespace Unit3dAnnounce

open Machine

variable {F : Type}

/-- A record is put into its queue. -/
def Pushes (queues : Queues) (record : QueueRecord) (queues' : Queues) : Prop :=
  queues' = queues.push record

lemma leadsTo_pushes {queues queues' : Queues} {records : List QueueRecord} :
    LeadsTo Pushes queues records queues' ↔ queues' = records.foldl Queues.push queues := leadsTo_iff_foldl

namespace AnnounceCall

variable (call : AnnounceCall F)

/-- The records of an accepted announce. -/
def records (a : Accepted F) : List QueueRecord :=
  [.peer ⟨a.userId, a.torrentId, call.request.queries.peerId⟩ (a.peerUpdate call.env call.request),
    .history ⟨a.userId, a.torrentId⟩ (a.historyUpdate call.config call.env call.request)] ++
  (if a.touchesUserQueue then [.user ⟨a.userId⟩ a.userUpdate] else []) ++
  (if a.touchesTorrentQueue then [.torrent ⟨a.torrentId⟩ a.torrentUpdate] else []) ++
  if call.config.isAnnounceLoggingEnabled then [.announce (a.announceUpdate call.env call.request)] else []

/-- What is written down for an announce that ends like this. Announces for a torrent that is not
registered are remembered with their user. -/
def WritesDown : Except AnnounceError (Accepted F) → List QueueRecord → Prop
  | .ok a, records => records = call.records a
  | .error e, records => records = [] ∨ (e = .infoHashNotFound ∨ e = .torrentIsDeleted) ∧
      ∃ userId, records = [.unregisteredInfoHash ⟨call.request.queries.infoHash, userId⟩
        ⟨call.env.now, call.env.now⟩]

variable {call}

end AnnounceCall

namespace ServiceCall

/-- Only announces write anything down. -/
def WritesDown : (call : ServiceCall F) → call.Result → List QueueRecord → Prop
  | .announce call, result, records => call.WritesDown result records
  | _, _, records => records = []

end ServiceCall

def OutboxEvent.record? : OutboxEvent F → Option QueueRecord
  | .push record => some record
  | .flush _ => none

lemma Outbox.run_push (outbox : Outbox) (records : List QueueRecord) :
    run (Outbox.step (F := F)) outbox (records.map .push) =
      { outbox with queues := records.foldl Queues.push outbox.queues } := by
  induction records generalizing outbox with
  | nil => rfl
  | cons record records ih =>
    rw [List.map_cons, run_cons, ih]
    rfl

section Live

variable [RateField F] {ι : Type} {calls : ι → ServiceCall F}

namespace LiveService

/-- The deltas of the torrents that a reap finds. -/
def reapRecords (live : LiveService calls) : LiveEvent F ι → List QueueRecord
  | .serve (.reap config activeNow inactiveNow) =>
    match cutoff activeNow config.activePeerTtl, cutoff inactiveNow config.inactivePeerTtl with
    | some activeCutoff, some inactiveCutoff =>
      (live.service.world.state.stores.torrents.entries.filterMap fun entry =>
        entry.2.reapUpdate config activeCutoff inactiveCutoff).map fun record => .torrent record.1 record.2
    | _, _ => []
  | _ => []

lemma foldl_push_torrents (queues : Queues) (records : List (TorrentUpdate.Index × TorrentUpdate)) :
    (records.map fun record => QueueRecord.torrent record.1 record.2).foldl Queues.push queues =
      { queues with
        torrents :=
          records.foldl (fun queue record => queue.upsert record.1 record.2) queues.torrents } := by
  induction records generalizing queues with
  | nil => rfl
  | cons record records ih =>
    rw [List.map_cons, List.foldl_cons, ih]
    rfl

variable [DecidableEq ι]

omit [RateField F] in
lemma queues_reap (live : LiveService calls) (config : Config F) (activeNow inactiveNow : DateTime) :
    (live.step (.serve (.reap config activeNow inactiveNow))).service.world.state.queues =
      (live.reapRecords (.serve (.reap config activeNow inactiveNow))).foldl Queues.push
        live.service.world.state.queues := by
  simp only [step, Service.step, reap, reapRecords]
  cases cutoff activeNow config.activePeerTtl with
  | none => rfl
  | some activeCutoff =>
    cases cutoff inactiveNow config.inactivePeerTtl with
    | none => rfl
    | some inactiveCutoff => exact (foldl_push_torrents _ _).symm

/-- What the calls have written down so far. -/
def HaveWritten (live : LiveService calls) (done : ι → List QueueRecord) : Prop :=
  ∀ i, (live.service.world.handlers i).Performs AppState.queues Pushes (calls i).WritesDown (done i)

omit [RateField F] in
/-- One event of a run: the records that it appends are those of one call or of a reap. -/
lemma HaveWritten.step [Fintype ι] {live : LiveService calls} {done : ι → List QueueRecord}
    (h : live.HaveWritten done) (event : LiveEvent F ι) :
    ∃ (journal : List (OutboxEvent F)) (done' : ι → List QueueRecord),
      (live.step event).outbox = run Outbox.step live.outbox journal ∧
      (live.step event).HaveWritten done' ∧
      Multiset.ofList (journal.filterMap OutboxEvent.record?) + ∑ i, Multiset.ofList (done i) =
        ∑ i, Multiset.ofList (done' i) + Multiset.ofList (live.reapRecords event) := by
  have hrecords (records : List QueueRecord) :
      (records.map OutboxEvent.push).filterMap (OutboxEvent.record? (F := F)) = records := by
    rw [List.filterMap_map]
    exact List.filterMap_some
  cases event with
  | serve event =>
    cases event with
    | advance i =>
      obtain ⟨records, hqueues, hnext⟩ := World.performs_step h i
      refine ⟨records.map .push, _, ?_, hnext, ?_⟩
      · rw [Outbox.run_push]
        exact congrArg (fun queues => (⟨queues, live.writes⟩ : Outbox)) (leadsTo_pushes.mp hqueues)
      · rw [hrecords, sum_update_append, add_comm]
        exact (add_zero _).symm
    | reap config activeNow inactiveNow =>
      refine ⟨(live.reapRecords (.serve (.reap config activeNow inactiveNow))).map .push, done, ?_, h, ?_⟩
      · rw [Outbox.run_push]
        exact congrArg (fun queues => (⟨queues, live.writes⟩ : Outbox)) (live.queues_reap _ _ _)
      · rw [hrecords, add_comm]
    | request request =>
      refine ⟨[], done, ?_, h, by simp [reapRecords]⟩
      cases request <;> rfl
  | flush flush => exact ⟨[.flush flush], done, rfl, h, by simp [reapRecords, OutboxEvent.record?]⟩

omit [RateField F] in
/-- All records of a run, in the order in which they have been appended, are those of its calls and of
its reaps. -/
theorem HaveWritten.run [Fintype ι] {live : LiveService calls} {done : ι → List QueueRecord}
    (h : live.HaveWritten done) (events : List (LiveEvent F ι)) :
    ∃ (journal : List (OutboxEvent F)) (done' : ι → List QueueRecord),
      (run LiveService.step live events).outbox = run Outbox.step live.outbox journal ∧
      (run LiveService.step live events).HaveWritten done' ∧
      Multiset.ofList (journal.filterMap OutboxEvent.record?) + ∑ i, Multiset.ofList (done i) =
        ∑ i, Multiset.ofList (done' i) +
          Multiset.ofList (log LiveService.step reapRecords live events) := by
  induction events generalizing live done with
  | nil => exact ⟨[], done, rfl, h, by simp [log]⟩
  | cons event events ih =>
    obtain ⟨first, done₁, hfirst, h₁, hsum₁⟩ := h.step event
    obtain ⟨rest, done₂, hrest, h₂, hsum₂⟩ := ih h₁
    refine ⟨first ++ rest, done₂, ?_, h₂, ?_⟩
    · rw [run_cons, run_append, hrest, hfirst]
    · rw [List.filterMap_append, log, ← Multiset.coe_add, ← Multiset.coe_add]
      calc _ = Multiset.ofList (rest.filterMap OutboxEvent.record?) +
            (Multiset.ofList (first.filterMap OutboxEvent.record?) + ∑ i, Multiset.ofList (done i)) := by
              abel
        _ = (Multiset.ofList (rest.filterMap OutboxEvent.record?) + ∑ i, Multiset.ofList (done₁ i)) +
            Multiset.ofList (live.reapRecords event) := by rw [hsum₁]; abel
        _ = _ := by rw [hsum₂]; abel

/-- None of the calls has entered a section yet. -/
def Fresh (live : LiveService calls) : Prop :=
  ∀ i, live.service.world.handlers i = (calls i).handler

/-- The calls have returned. -/
def Returned (live : LiveService calls) (result : ∀ i, (calls i).Result) : Prop :=
  ∀ i, live.service.world.handlers i = .ret (result i)

end LiveService

end Live

namespace QueueRecord

def announce? : QueueRecord → Option AnnounceUpdate
  | .announce update => some update
  | _ => none

def history? : QueueRecord → Option (HistoryUpdate.Index × HistoryUpdate)
  | .history key update => some (key, update)
  | _ => none

def torrent? : QueueRecord → Option (TorrentUpdate.Index × TorrentUpdate)
  | .torrent key update => some (key, update)
  | _ => none

def user? : QueueRecord → Option (UserUpdate.Index × UserUpdate)
  | .user key update => some (key, update)
  | _ => none

end QueueRecord

namespace Outbox

def historyEvents : OutboxEvent F → List (PipelineEvent F HistoryUpdate.Index HistoryUpdate)
  | .push (.history key update) => [.upsert key update]
  | .flush (.histories event) => [.flush event]
  | _ => []

variable (outbox : Outbox) (event : OutboxEvent F)

end Outbox

section Totals

variable {K V R : Type} [DecidableEq K] [Mergeable V] [Flushable V R] {column : Additive V R} {key : K}

lemma Summed.flatMap {A : Type} {records deltas : A → List (K × V)}
    (h : ∀ a, Summed column key (records a) (deltas a)) (l : List A) :
    Summed column key (l.flatMap records) (l.flatMap deltas) := by
  induction l with
  | nil => exact Summed.refl column key []
  | cons a l ih =>
    rw [List.flatMap_cons, List.flatMap_cons]
    exact (h a).append ih

lemma Additive.Fits.perm {values values' : List V} (h : column.Fits values') (hperm : values.Perm values') :
    column.Fits values := by
  unfold Additive.Fits
  rwa [Multiset.coe_eq_coe.mpr hperm]

variable [Ord K]

end Totals

lemma Accepted.amount_userUpdate {column : Additive UserUpdate UserTotals}
    (hcolumn : column ∈ UserUpdate.additiveColumns) {a : Accepted F} (h : a.touchesUserQueue = false) :
    column.amount a.userUpdate = 0 := by
  simp only [Accepted.touchesUserQueue, Bool.or_eq_false_iff, decide_eq_false_iff_not, ne_eq, not_not] at h
  simp only [UserUpdate.additiveColumns, List.mem_cons, List.not_mem_nil, or_false] at hcolumn
  rcases hcolumn with rfl | rfl
  · simp [UserUpdate.uploadedColumn, Accepted.userUpdate, h.1]
  · simp [UserUpdate.downloadedColumn, Accepted.userUpdate, h.2]

lemma Accepted.amount_torrentUpdate {column : Additive TorrentUpdate TorrentTotals}
    (hcolumn : column ∈ TorrentUpdate.additiveColumns) {a : Accepted F}
    (h : a.touchesTorrentQueue = false) : column.amount a.torrentUpdate = 0 := by
  simp only [Accepted.touchesTorrentQueue, Bool.or_eq_false_iff, decide_eq_false_iff_not, ne_eq,
    not_not] at h
  obtain ⟨⟨⟨⟨hseeder, hleecher⟩, htimes⟩, huploaded⟩, hdownloaded⟩ := h
  have hupdate : a.torrentUpdate = ⟨0, 0, 0, 0⟩ := by
    simp [Accepted.torrentUpdate, hseeder, hleecher, htimes, huploaded, hdownloaded]
  rw [hupdate]
  simp only [TorrentUpdate.additiveColumns, List.mem_cons, List.not_mem_nil, or_false] at hcolumn
  rcases hcolumn with rfl | rfl | rfl | rfl <;> rfl

namespace AnnounceCall

variable (call : AnnounceCall F) (a : Accepted F)

/-- The records of an accepted announce that are meant for one of the queues. -/
lemma filterMap_records {A : Type} (record? : QueueRecord → Option A) :
    (call.records a).filterMap record? =
      (record? (.peer ⟨a.userId, a.torrentId, call.request.queries.peerId⟩
        (a.peerUpdate call.env call.request))).toList ++
      (record? (.history ⟨a.userId, a.torrentId⟩
        (a.historyUpdate call.config call.env call.request))).toList ++
      (if a.touchesUserQueue then (record? (.user ⟨a.userId⟩ a.userUpdate)).toList else []) ++
      (if a.touchesTorrentQueue then (record? (.torrent ⟨a.torrentId⟩ a.torrentUpdate)).toList else []) ++
      if call.config.isAnnounceLoggingEnabled then
        (record? (.announce (a.announceUpdate call.env call.request))).toList
      else [] := by
  unfold records
  rw [List.filterMap_eq_flatMap_toList]
  cases a.touchesUserQueue <;> cases a.touchesTorrentQueue <;>
    cases call.config.isAnnounceLoggingEnabled <;> simp

end AnnounceCall

namespace ServiceCall

/-- A call that is an announce, if it is accepted. -/
def accepted? : (call : ServiceCall F) → call.Result → Option (AnnounceCall F × Accepted F)
  | .announce call, .ok a => some (call, a)
  | _, _ => none

section Deltas

variable (call : ServiceCall F) (result : call.Result)

def historyDeltas : List (HistoryUpdate.Index × HistoryUpdate) :=
  match call.accepted? result with
  | some (call, a) => [(⟨a.userId, a.torrentId⟩, a.historyUpdate call.config call.env call.request)]
  | none => []

def userDeltas : List (UserUpdate.Index × UserUpdate) :=
  match call.accepted? result with
  | some (_, a) => [(⟨a.userId⟩, a.userUpdate)]
  | none => []

def torrentDeltas : List (TorrentUpdate.Index × TorrentUpdate) :=
  match call.accepted? result with
  | some (_, a) => [(⟨a.torrentId⟩, a.torrentUpdate)]
  | none => []

/-- The rows of the announces that are logged. -/
def announceRows : List AnnounceRow :=
  match call.accepted? result with
  | some (call, a) =>
    if call.config.isAnnounceLoggingEnabled then [(a.announceUpdate call.env call.request).row] else []
  | none => []

end Deltas

section WritesDown

variable {call : ServiceCall F} {result : call.Result} {records : List QueueRecord}

/-- Either an announce has been accepted, or nothing but an info hash has been remembered. -/
lemma WritesDown.cases (h : call.WritesDown result records) :
    (∃ announce a, call.accepted? result = some (announce, a) ∧ records = announce.records a) ∨
      call.accepted? result = none ∧
        ∀ record ∈ records, ∃ key update, record = .unregisteredInfoHash key update := by
  cases call with
  | announce announce =>
    cases result with
    | ok a => exact Or.inl ⟨announce, a, rfl, h⟩
    | error e =>
      refine Or.inr ⟨rfl, fun record hrecord => ?_⟩
      rcases h with rfl | ⟨-, userId, rfl⟩
      · cases hrecord
      · exact ⟨_, _, List.mem_singleton.mp hrecord⟩
  | upsertTorrent torrent | destroyTorrent torrent | upsertUser upsert | destroyUser user =>
    obtain rfl : records = [] := h
    exact Or.inr ⟨rfl, fun record hrecord => absurd hrecord List.not_mem_nil⟩

lemma filterMap_unregistered {A : Type} {record? : QueueRecord → Option A}
    (hrecord? : ∀ key update, record? (.unregisteredInfoHash key update) = none)
    (h : ∀ record ∈ records, ∃ key update, record = .unregisteredInfoHash key update) :
    records.filterMap record? = [] := by
  rw [List.filterMap_eq_nil_iff]
  intro record hrecord
  obtain ⟨key, update, rfl⟩ := h record hrecord
  exact hrecord? key update

lemma WritesDown.histories (h : call.WritesDown result records)
    (column : Additive HistoryUpdate HistoryRow) (key : HistoryUpdate.Index) :
    Summed column key (records.filterMap QueueRecord.history?) (call.historyDeltas result) := by
  unfold historyDeltas
  rcases h.cases with ⟨announce, a, haccepted, rfl⟩ | ⟨hnone, hrecords⟩
  · rw [haccepted, AnnounceCall.filterMap_records]
    simp only [QueueRecord.history?, Option.toList_none, ite_self, List.append_nil, List.nil_append]
    exact Summed.refl column key _
  · rw [hnone, filterMap_unregistered (fun _ _ => rfl) hrecords]
    exact Summed.refl column key []

lemma WritesDown.users (h : call.WritesDown result records) {column : Additive UserUpdate UserTotals}
    (hcolumn : column ∈ UserUpdate.additiveColumns) (key : UserUpdate.Index) :
    Summed column key (records.filterMap QueueRecord.user?) (call.userDeltas result) := by
  unfold userDeltas
  rcases h.cases with ⟨announce, a, haccepted, rfl⟩ | ⟨hnone, hrecords⟩
  · rw [haccepted, AnnounceCall.filterMap_records]
    simp only [QueueRecord.user?, Option.toList_none, ite_self, List.append_nil, List.nil_append]
    split_ifs with htouches
    · exact Summed.refl column key _
    · exact Summed.skip (Accepted.amount_userUpdate hcolumn (by simpa using htouches))
  · rw [hnone, filterMap_unregistered (fun _ _ => rfl) hrecords]
    exact Summed.refl column key []

lemma WritesDown.torrents (h : call.WritesDown result records)
    {column : Additive TorrentUpdate TorrentTotals} (hcolumn : column ∈ TorrentUpdate.additiveColumns)
    (key : TorrentUpdate.Index) :
    Summed column key (records.filterMap QueueRecord.torrent?) (call.torrentDeltas result) := by
  unfold torrentDeltas
  rcases h.cases with ⟨announce, a, haccepted, rfl⟩ | ⟨hnone, hrecords⟩
  · rw [haccepted, AnnounceCall.filterMap_records]
    simp only [QueueRecord.torrent?, Option.toList_none, ite_self, List.append_nil, List.nil_append]
    split_ifs with htouches
    · exact Summed.refl column key _
    · exact Summed.skip (Accepted.amount_torrentUpdate hcolumn (by simpa using htouches))
  · rw [hnone, filterMap_unregistered (fun _ _ => rfl) hrecords]
    exact Summed.refl column key []

lemma WritesDown.announces (h : call.WritesDown result records) :
    (records.filterMap QueueRecord.announce?).map AnnounceUpdate.row = call.announceRows result := by
  unfold announceRows
  rcases h.cases with ⟨announce, a, haccepted, rfl⟩ | ⟨hnone, hrecords⟩
  · rw [haccepted, AnnounceCall.filterMap_records]
    simp only [QueueRecord.announce?, Option.toList_none, ite_self, List.nil_append]
    split_ifs <;> rfl
  · rw [hnone, filterMap_unregistered (fun _ _ => rfl) hrecords]
    rfl

end WritesDown

end ServiceCall

namespace AnnouncePipeline

/-- The rows that are written, are being written or wait. -/
def rows (pipeline : AnnouncePipeline) : Multiset AnnounceRow :=
  Multiset.ofList (pipeline.writes.table ++
    (pipeline.writes.running.flatten ++ pipeline.queue).map AnnounceUpdate.row)

/-- No statement binds more values than the database takes. -/
def IsWithinLimit (pipeline : AnnouncePipeline) : Prop :=
  ∀ batch ∈ pipeline.writes.running, (batch.flatMap AnnounceUpdate.pushValues).length ≤ 65535

lemma length_bindings (batch : List AnnounceUpdate) :
    (batch.flatMap AnnounceUpdate.pushValues).length = batch.length * 12 := by
  have hlength (update : AnnounceUpdate) : update.pushValues.length = 12 := rfl
  simp [List.length_flatMap, hlength]

lemma IsWithinLimit.flush {pipeline : AnnouncePipeline} (h : pipeline.IsWithinLimit)
    (event : AnnounceFlush) : (pipeline.flush event).IsWithinLimit := by
  cases event with
  | takeBatch =>
    intro batch hbatch
    rcases List.mem_append.mp hbatch with hrunning | hnew
    · exact h batch hrunning
    · rw [List.mem_singleton.mp hnew, length_bindings, List.length_take]
      simp only [AnnounceQueue.announceLimit]
      omega
  | finish index succeeded =>
    unfold AnnouncePipeline.flush
    cases hbatch : pipeline.writes.running[index]? with
    | none =>
      simp only [hbatch]
      exact h
    | some batch =>
      simp only [hbatch]
      split_ifs with hsucceeded
      · exact fun batch' hbatch' => h batch' (List.mem_of_mem_eraseIdx hbatch')
      · exact fun batch' hbatch' => h batch' (List.mem_of_mem_eraseIdx hbatch')

end AnnouncePipeline

namespace Outbox

end Outbox

/-- Nothing of the deltas is waiting or being written. -/
structure Outbox.Idle (outbox : Outbox) : Prop where
  histories : outbox.queues.histories.records = .empty ∧ outbox.writes.histories.running = []
  torrents : outbox.queues.torrents.records = .empty ∧ outbox.writes.torrents.running = []
  users : outbox.queues.users.records = .empty ∧ outbox.writes.users.running = []

section Results

variable [RateField F] {ι : Type} [Fintype ι] [DecidableEq ι] {calls : ι → ServiceCall F}

end Results

namespace Sample

end Sample

end Unit3dAnnounce
