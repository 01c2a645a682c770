import Unit3dAnnounce.Model.Sample
import Unit3dAnnounce.Proofs.Accounting
import Unit3dAnnounce.WriteBehind.Content

/-!
# The rows of the history

What becomes of two things that an announce hands to the history of its user and torrent: the time
of a completion, and what the client reports about itself.
-/

namespace Unit3dAnnounce

open Machine WriteBehind

abbrev HistoryPipeline := Pipeline HistoryUpdate.Index HistoryUpdate HistoryRow

variable {F : Type}

section Completions

/-- A time of completion for the key is in the database or on its way there. -/
def Pipeline.SecuresCompletion (pipeline : HistoryPipeline) (key : HistoryUpdate.Index) : Prop :=
  (∃ batch ∈ pipeline.writes.running, ∃ update, batch.get? key = some update ∧
      update.completedAt ≠ none) ∨
    ∃ row, pipeline.writes.table.get? key = some row ∧ row.completedAt ≠ none

/-- No time of completion is lost if the one that waits for the key is overwritten. -/
def Pipeline.CanOverwrite (pipeline : HistoryPipeline) (key : HistoryUpdate.Index) : Prop :=
  ∀ update, pipeline.queue.records.get? key = some update → update.completedAt ≠ none →
    pipeline.SecuresCompletion key

/-- An event that merges a record without a time of completion finds none in the waiting one, or
finds that of the key secured. -/
def Pipeline.KeepsCompletion (key : HistoryUpdate.Index) (pipeline : HistoryPipeline) :
    PipelineEvent F HistoryUpdate.Index HistoryUpdate → Prop
  | .upsert key' update => key' = key → update.completedAt = none → pipeline.CanOverwrite key
  | .flush (.finish _ index false) => ∀ batch update, pipeline.writes.running[index]? = some batch →
      batch.get? key = some update → update.completedAt = none → pipeline.CanOverwrite key
  | .flush _ => True

def Pipeline.HasCompletion (pipeline : HistoryPipeline) (key : HistoryUpdate.Index) : Prop :=
  (pipeline.channel.cell key).HasMark (fun update => update.completedAt ≠ none)
    (fun row => row.completedAt ≠ none)

lemma Pipeline.securesCompletion_iff (pipeline : HistoryPipeline) (key : HistoryUpdate.Index) :
    pipeline.SecuresCompletion key ↔ (pipeline.channel.cell key).Secured
      (fun update => update.completedAt ≠ none) (fun row => row.completedAt ≠ none) := by
  unfold Pipeline.SecuresCompletion Cell.Secured
  apply or_congr_left
  simp only [Channel.cell, Pipeline.channel, Multiset.mem_coe, List.mem_filterMap]
  constructor
  · rintro ⟨batch, hbatch, update, hupdate, hcompleted⟩
    exact ⟨update, ⟨batch, hbatch, hupdate⟩, hcompleted⟩
  · rintro ⟨update, ⟨batch, hbatch, hupdate⟩, hcompleted⟩
    exact ⟨batch, hbatch, update, hupdate, hcompleted⟩

lemma completedAt_writeRow (config : Config F) (row : Option HistoryRow) (update : HistoryUpdate)
    (h : update.completedAt ≠ none) : (writeRow config row update).completedAt ≠ none := by
  cases row with
  | none => exact h
  | some row =>
    intro hnone
    exact h (Option.or_eq_none_iff.mp hnone).2

lemma completedAt_onDuplicateKeyUpdate (config : Config F) (row : HistoryRow) (update : HistoryUpdate)
    (h : row.completedAt ≠ none) : (writeRow config (some row) update).completedAt ≠ none := by
  intro hnone
  exact h (Option.or_eq_none_iff.mp hnone).1

lemma completedAt_merge (update update' : HistoryUpdate) (h : update'.completedAt ≠ none) :
    (Mergeable.merge update update').completedAt ≠ none := h

/-- A completion stays with its key in every step that may not lose it. -/
lemma Pipeline.HasCompletion.step {pipeline : HistoryPipeline} {key : HistoryUpdate.Index}
    (h : pipeline.HasCompletion key) {event : PipelineEvent F HistoryUpdate.Index HistoryUpdate}
    (hkeeps : pipeline.KeepsCompletion key event) : (pipeline.step event).HasCompletion key := by
  obtain ⟨action, hacts, hstep⟩ := pipeline.step_cell event key
  cases haction : action with
  | none =>
    rw [haction] at hstep
    have hcell : (pipeline.step event).channel.cell key = pipeline.channel.cell key := hstep
    unfold Pipeline.HasCompletion
    rw [hcell]
    exact h
  | some action =>
    subst haction
    refine Cell.HasMark.step completedAt_merge completedAt_writeRow
      completedAt_onDuplicateKeyUpdate hstep ?_ h
    intro update hincoming hnone waiting hwaiting hcompleted
    have hnone : update.completedAt = none := not_not.mp hnone
    rw [← Pipeline.securesCompletion_iff]
    cases hacts with
    | upsert value =>
      simp only [Action.incoming, Option.some_inj] at hincoming
      subst hincoming
      exact hkeeps rfl hnone waiting hwaiting hcompleted
    | fail config hbatch hvalue =>
      simp only [Action.incoming, Option.some_inj] at hincoming
      subst hincoming
      exact hkeeps _ _ hbatch hvalue hnone waiting hwaiting hcompleted
    | take config => simp [Action.incoming] at hincoming
    | commit config hbatch hvalue => simp [Action.incoming] at hincoming

/-- Along a run that keeps completions, one that was there or that was enqueued is still there. -/
lemma Pipeline.hasCompletion_run {pipeline : HistoryPipeline} {key : HistoryUpdate.Index}
    {events : List (PipelineEvent F HistoryUpdate.Index HistoryUpdate)}
    (hkeeps : Along Pipeline.step (Pipeline.KeepsCompletion key) pipeline events)
    (h : pipeline.HasCompletion key ∨ ∃ update, update.completedAt ≠ none ∧
      (key, update) ∈ events.filterMap PipelineEvent.record?) :
    (run Pipeline.step pipeline events).HasCompletion key := by
  induction events generalizing pipeline with
  | nil => exact h.resolve_right (by simp)
  | cons event events ih =>
    apply ih hkeeps.2
    rcases h with h | ⟨update, hcompleted, hmem⟩
    · exact Or.inl (h.step hkeeps.1)
    · rw [List.filterMap_cons] at hmem
      cases event with
      | flush event => exact Or.inr ⟨update, hcompleted, hmem⟩
      | upsert key' update' =>
        simp only [PipelineEvent.record?, List.mem_cons, Prod.mk.injEq] at hmem
        rcases hmem with ⟨rfl, rfl⟩ | hmem
        · -- the completion is enqueued now
          refine Or.inl ?_
          unfold Pipeline.HasCompletion
          rw [Pipeline.cell_upsert]
          exact Cell.hasMark_enqueue completedAt_merge _ hcompleted
        · exact Or.inr ⟨update, hcompleted, hmem⟩

variable [RateField F]

/-- The key of an accepted announce whose event is completed. -/
def Tracker.completions (tracker : Tracker F) : TrackerEvent F → List HistoryUpdate.Index
  | .announce config env request =>
    match ((announce config env request).run tracker.state).2 with
    | .ok a => if request.queries.event = .completed then [⟨a.userId, a.torrentId⟩] else []
    | .error _ => []
  | _ => []

/-- An accepted announce for the key whose event is not completed, or a failed batch with a record of
the key that lacks a time of completion, finds none waiting, or finds that of the key secured. -/
def Tracker.KeepsCompletion (key : HistoryUpdate.Index) (tracker : Tracker F) : TrackerEvent F → Prop
  | .announce config env request => ∀ a, ((announce config env request).run tracker.state).2 = .ok a →
      (⟨a.userId, a.torrentId⟩ : HistoryUpdate.Index) = key → request.queries.event ≠ .completed →
        tracker.historyPipeline.CanOverwrite key
  | .flushHistories (.finish _ index false) =>
      ∀ batch update, tracker.histories.running[index]? = some batch →
        batch.get? key = some update → update.completedAt = none →
          tracker.historyPipeline.CanOverwrite key
  | _ => True

lemma Tracker.KeepsCompletion.pipeline {key : HistoryUpdate.Index} {tracker : Tracker F}
    {event : TrackerEvent F} (h : tracker.KeepsCompletion key event) :
    Along Pipeline.step (Pipeline.KeepsCompletion key) tracker.historyPipeline
      (tracker.historyEvents event) := by
  cases event with
  | announce config env request =>
    simp only [historyEvents, historyDeltas]
    cases hr : ((announce config env request).run tracker.state).2 with
    | error e => trivial
    | ok a =>
      refine ⟨?_, trivial⟩
      intro hkey hnone
      apply h a hr hkey
      intro hcompleted
      simp [Accepted.historyUpdate, hcompleted] at hnone
  | flushHistories event =>
    refine ⟨?_, trivial⟩
    cases event with
    | takeBatches config => trivial
    | finish config index succeeded =>
      cases succeeded with
      | true => trivial
      | false => exact h
  | reap => trivial
  | flushPeers => trivial
  | flushTorrents => trivial
  | flushUsers => trivial

lemma Tracker.mem_records_of_mem_completions {key : HistoryUpdate.Index} (tracker : Tracker F)
    (events : List (TrackerEvent F)) (h : key ∈ log Tracker.step Tracker.completions tracker events) :
    ∃ update, update.completedAt ≠ none ∧ (key, update) ∈
      (log Tracker.step Tracker.historyEvents tracker events).filterMap PipelineEvent.record? := by
  revert h
  apply log_rel (P := fun completions
    (events : List (PipelineEvent F HistoryUpdate.Index HistoryUpdate)) => key ∈ completions →
    ∃ update : HistoryUpdate, update.completedAt ≠ none ∧
      (key, update) ∈ events.filterMap PipelineEvent.record?)
  · intro h
    simp at h
  · intro completions events completions' events' hleft hright h
    rw [List.filterMap_append]
    rcases List.mem_append.mp h with h | h
    · obtain ⟨update, hcompleted, hmem⟩ := hleft h
      exact ⟨update, hcompleted, List.mem_append_left _ hmem⟩
    · obtain ⟨update, hcompleted, hmem⟩ := hright h
      exact ⟨update, hcompleted, List.mem_append_right _ hmem⟩
  · intro tracker event h
    cases event with
    | announce config env request =>
      simp only [completions, historyEvents, historyDeltas] at h ⊢
      cases hr : ((announce config env request).run tracker.state).2 with
      | error e => simp [hr] at h
      | ok a =>
        simp only [hr] at h
        split_ifs at h with hevent
        · rw [List.mem_singleton] at h
          refine ⟨a.historyUpdate config env request, ?_, ?_⟩
          · simp [Accepted.historyUpdate, hevent]
          · simp [PipelineEvent.record?, h]
        · simp at h
    | _ => simp [completions] at h

/-- Along a run in which no step overwrites the last time of completion of a key, a completed
announce for it ends up in the row, once nothing of the key is waiting or being written. -/
theorem completion_reaches_row (tracker : Tracker F) (events : List (TrackerEvent F))
    (key : HistoryUpdate.Index)
    (hkeeps : Along Tracker.step (Tracker.KeepsCompletion key) tracker events)
    (hcompleted : key ∈ log Tracker.step Tracker.completions tracker events)
    (hqueue : (run Tracker.step tracker events).state.queues.histories.records.get? key = none)
    (hrunning : ∀ batch ∈ (run Tracker.step tracker events).histories.running,
      batch.get? key = none) :
    ∃ row, (run Tracker.step tracker events).histories.table.get? key = some row ∧
      row.completedAt ≠ none := by
  have hpipeline : Along Pipeline.step (Pipeline.KeepsCompletion key) tracker.historyPipeline
      (log Tracker.step Tracker.historyEvents tracker events) :=
    along_simulates Tracker.step_historyPipeline (hkeeps.mono fun _ _ h => h.pipeline)
  have hhas := Pipeline.hasCompletion_run hpipeline
    (Or.inr (tracker.mem_records_of_mem_completions events hcompleted))
  rw [← run_simulates Tracker.step_historyPipeline] at hhas
  rcases hhas with ⟨update, hwaiting, -⟩ | hsecured
  · have hnone : (run Tracker.step tracker events).historyPipeline.queue.records.get? key = none :=
      hqueue
    simp [Channel.cell, Pipeline.channel, hnone] at hwaiting
  · rw [← Pipeline.securesCompletion_iff] at hsecured
    rcases hsecured with ⟨batch, hbatch, update, hupdate, -⟩ | hrow
    · rw [hrunning batch hbatch] at hupdate
      simp at hupdate
    · exact hrow

/-- A user completes the torrent. -/
def Sample.completion : List (TrackerEvent ℝ) :=
  [.announce config (env 0) (request 1 1 .started 5),
    .announce config (env 60) (request 1 1 .completed 0)]

/-- One flush of the histories, and how it ends. -/
def Sample.flushHistories (succeeded : Bool) : List (TrackerEvent ℝ) :=
  [.flushHistories (.takeBatches config), .flushHistories (.finish config 0 succeeded)]

/-- The completion is flushed before the next announce. -/
theorem completion_reaches_row_sample :
    ∃ row, (run Tracker.step (Sample.tracker none [1])
        (Sample.completion ++ Sample.flushHistories true)).histories.table.get? ⟨1, 1⟩ = some row ∧
      row.completedAt ≠ none :=
  completion_reaches_row (Sample.tracker none [1]) (Sample.completion ++ Sample.flushHistories true)
    ⟨1, 1⟩
    ⟨fun _ _ _ _ _ hwaiting => by
        simp [Tracker.historyPipeline, Sample.tracker, Sample.state, Queues.new, Queue.new] at hwaiting,
      fun _ _ _ hevent => absurd rfl hevent, trivial, trivial, trivial⟩
    (by decide +kernel) (by decide +kernel) (by decide +kernel)

/-- The user announces once more before the next flush. -/
theorem completion_lost :
    ¬ ∀ (tracker : Tracker ℝ) events key, key ∈ log Tracker.step Tracker.completions tracker events →
      (run Tracker.step tracker events).state.queues.histories.records.get? key = none →
      (∀ batch ∈ (run Tracker.step tracker events).histories.running, batch.get? key = none) →
      ∃ row, (run Tracker.step tracker events).histories.table.get? key = some row ∧
        row.completedAt ≠ none := by
  intro h
  obtain ⟨row, hrow, hcompleted⟩ := h (Sample.tracker none [1]) (Sample.completion ++
    .announce Sample.config (Sample.env 120) (Sample.request 1 1 .empty 0) ::
      Sample.flushHistories true) ⟨1, 1⟩
    (by decide +kernel) (by decide +kernel) (by decide +kernel)
  have hnone : ((run Tracker.step (Sample.tracker none [1]) (Sample.completion ++
      .announce Sample.config (Sample.env 120) (Sample.request 1 1 .empty 0) ::
        Sample.flushHistories true)).histories.table.get? ⟨1, 1⟩).bind
      HistoryRow.completedAt = none := by decide +kernel
  rw [hrow, Option.bind_some] at hnone
  exact hcompleted hnone

end Completions

section Reports

/-- What the last announce reports, and what the row takes over from it. -/
structure Report where
  agent : Text
  clientUploaded : UInt64
  clientDownloaded : UInt64
  seeder : Bool
  active : Bool
deriving DecidableEq

def HistoryUpdate.report (update : HistoryUpdate) : Report where
  agent := update.userAgent
  clientUploaded := update.uploaded
  clientDownloaded := update.downloaded
  seeder := update.isSeeder
  active := update.isActive

def HistoryRow.report (row : HistoryRow) : Report where
  agent := row.agent
  clientUploaded := row.clientUploaded
  clientDownloaded := row.clientDownloaded
  seeder := row.seeder
  active := row.active

/-- A flush finishes before the next one starts. -/
def Pipeline.IsSerial (pipeline : HistoryPipeline) :
    PipelineEvent F HistoryUpdate.Index HistoryUpdate → Prop
  | .flush (.takeBatches _) => pipeline.writes.running = []
  | _ => True

/-- A failed batch that holds a record of the key does not find another report waiting. -/
def Pipeline.PutsBackLatest (key : HistoryUpdate.Index) (pipeline : HistoryPipeline) :
    PipelineEvent F HistoryUpdate.Index HistoryUpdate → Prop
  | .flush (.finish _ index false) =>
    ∀ batch update waiting, pipeline.writes.running[index]? = some batch →
      batch.get? key = some update → pipeline.queue.records.get? key = some waiting →
        update.report = waiting.report
  | _ => True

def Pipeline.ReportsLatest (key : HistoryUpdate.Index) (last : HistoryUpdate)
    (pipeline : HistoryPipeline) : Prop :=
  (pipeline.channel.cell key).Latest HistoryUpdate.report HistoryRow.report last

lemma report_merge (update update' : HistoryUpdate) :
    (Mergeable.merge update update').report = update'.report := rfl

lemma report_writeRow (config : Config F) (row : Option HistoryRow) (update : HistoryUpdate) :
    (writeRow config row update).report = update.report := by
  cases row <;> rfl

/-- What an event adds to the updates of a key decides which of them is reported. -/
lemma Pipeline.reportsLatest_step {pipeline : HistoryPipeline} {key : HistoryUpdate.Index}
    {event : PipelineEvent F HistoryUpdate.Index HistoryUpdate} (hserial : pipeline.IsSerial event)
    (hback : pipeline.PutsBackLatest key event) {updates : List HistoryUpdate}
    (h : ∀ last, updates.getLast? = some last → pipeline.ReportsLatest key last) {last : HistoryUpdate}
    (hlast : (updates ++ valuesOf key event.record?.toList).getLast? = some last) :
    (pipeline.step event).ReportsLatest key last := by
  unfold Pipeline.ReportsLatest at h ⊢
  cases event with
  | upsert key' value =>
    obtain ⟨action, hacts, hstep⟩ := pipeline.step_cell (F := F) (.upsert key' value) key
    cases hacts with
    | upsert =>
      have hvalue : value = last := by
        simpa [PipelineEvent.record?, valuesOf] using hlast
      rw [hvalue, Pipeline.cell_upsert]
      exact Cell.latest_enqueue _ last fun q _ => report_merge q last
    | upsertOther _ hkey =>
      have hnone : valuesOf key (PipelineEvent.upsert key' value :
          PipelineEvent F HistoryUpdate.Index HistoryUpdate).record?.toList = [] := by
        simp [PipelineEvent.record?, valuesOf, hkey]
      rw [hnone, List.append_nil] at hlast
      rw [show (pipeline.step _).channel.cell key = pipeline.channel.cell key from hstep]
      exact h last hlast
  | flush event =>
    have hnone : valuesOf key (PipelineEvent.flush event :
        PipelineEvent F HistoryUpdate.Index HistoryUpdate).record?.toList = [] := rfl
    rw [hnone, List.append_nil] at hlast
    have hturn : pipeline.InTurn (.flush event) := by
      cases event with
      | takeBatches config => exact hserial
      | finish config index succeeded => trivial
    rcases pipeline.flush_cell event key with hsame | ⟨action, hacts, hnew, hstep⟩
    · rw [Pipeline.step, hsame]
      exact h last hlast
    · refine Cell.Latest.step report_writeRow hstep hnew ?_ ?_ (h last hlast)
      · rintro rfl
        exact hacts.inflight_eq_zero hturn
      · rintro update waiting rfl hwaiting
        rw [report_merge]
        cases hacts with
        | fail config hbatch hvalue => exact hback _ _ waiting hbatch hvalue hwaiting

lemma Pipeline.reportsLatest_run {pipeline : HistoryPipeline} {key : HistoryUpdate.Index}
    {events : List (PipelineEvent F HistoryUpdate.Index HistoryUpdate)}
    (hserial : Along Pipeline.step Pipeline.IsSerial pipeline events)
    (hback : Along Pipeline.step (Pipeline.PutsBackLatest key) pipeline events)
    (updates : List HistoryUpdate)
    (h : ∀ last, updates.getLast? = some last → pipeline.ReportsLatest key last) {last : HistoryUpdate}
    (hlast : (updates ++ valuesOf key (events.filterMap PipelineEvent.record?)).getLast? = some last) :
    (run Pipeline.step pipeline events).ReportsLatest key last := by
  induction events generalizing pipeline updates with
  | nil =>
    apply h
    simpa [valuesOf] using hlast
  | cons event events ih =>
    refine ih hserial.2 hback.2 (updates ++ valuesOf key event.record?.toList) (fun last =>
      Pipeline.reportsLatest_step hserial.1 hback.1 h) ?_
    rw [List.append_assoc, ← valuesOf_filterMap_cons]
    exact hlast

/-- Where flushes do not overlap, updates for a key are enqueued with increasing times, and no failed
batch puts a record of the key back behind a different one, the row reports the latest update, once
nothing of the key is waiting or being written. -/
theorem row_reports_latest (pipeline : HistoryPipeline)
    (events : List (PipelineEvent F HistoryUpdate.Index HistoryUpdate)) (key : HistoryUpdate.Index)
    (hserial : Along Pipeline.step Pipeline.IsSerial pipeline events)
    (hback : Along Pipeline.step (Pipeline.PutsBackLatest key) pipeline events)
    (hsorted : (valuesOf key (events.filterMap PipelineEvent.record?)).Pairwise
      fun update update' => update.updatedAt < update'.updatedAt)
    (hqueue : (run Pipeline.step pipeline events).queue.records.get? key = none)
    (hrunning : ∀ batch ∈ (run Pipeline.step pipeline events).writes.running, batch.get? key = none)
    (update : HistoryUpdate) (hmem : update ∈ valuesOf key (events.filterMap PipelineEvent.record?))
    (hlatest : ∀ update' ∈ valuesOf key (events.filterMap PipelineEvent.record?),
      update'.updatedAt ≤ update.updatedAt) :
    ∃ row, (run Pipeline.step pipeline events).writes.table.get? key = some row ∧
      row.report = update.report := by
  have hlast := Pipeline.reportsLatest_run hserial hback [] (fun _ h => by simp at h)
    (getLast?_of_latest hsorted hmem hlatest)
  exact Cell.Latest.row hlast hqueue (Pipeline.inflight_eq_zero hrunning)

/-- Two updates with a flush of the first one, which fails after or before the second one comes. -/
def Sample.putBack (late : Bool) : List (PipelineEvent ℝ HistoryUpdate.Index HistoryUpdate) :=
  [.upsert ⟨1, 1⟩ (historyUpdate 0 1000), .flush (.takeBatches config)] ++
    (if late then [.upsert ⟨1, 1⟩ (historyUpdate 60 3000), .flush (.finish config 0 false)]
      else [.flush (.finish config 0 false), .upsert ⟨1, 1⟩ (historyUpdate 60 3000)]) ++
    [.flush (.takeBatches config), .flush (.finish config 0 true)]

theorem row_reports_latest_sample :
    ∃ row, (run Pipeline.step (Sample.tracker none []).historyPipeline
        (Sample.putBack false)).writes.table.get? ⟨1, 1⟩ = some row ∧
      row.report = (Sample.historyUpdate 60 3000).report :=
  row_reports_latest (Sample.tracker none []).historyPipeline (Sample.putBack false) ⟨1, 1⟩
    ⟨trivial, rfl, trivial, trivial, List.length_eq_zero_iff.mp (by decide +kernel), trivial, trivial⟩
    ⟨trivial, trivial, fun _ _ _ _ _ hwaiting =>
        absurd (hwaiting.symm.trans (by decide +kernel)) (Option.some_ne_none _), trivial, trivial,
      trivial, trivial⟩
    (by decide +kernel) (by decide +kernel) (by decide +kernel) (Sample.historyUpdate 60 3000)
    (by decide +kernel) (by decide +kernel)

/-- The write of the first update fails while the second one waits. -/
theorem row_reports_older :
    ¬ ∀ (pipeline : HistoryPipeline) (events : List (PipelineEvent ℝ _ _)) key,
      Along Pipeline.step Pipeline.IsSerial pipeline events →
      (valuesOf key (events.filterMap PipelineEvent.record?)).Pairwise
        (fun update update' => update.updatedAt < update'.updatedAt) →
      (run Pipeline.step pipeline events).queue.records.get? key = none →
      (∀ batch ∈ (run Pipeline.step pipeline events).writes.running, batch.get? key = none) →
      ∀ update ∈ valuesOf key (events.filterMap PipelineEvent.record?),
        (∀ update' ∈ valuesOf key (events.filterMap PipelineEvent.record?),
          update'.updatedAt ≤ update.updatedAt) →
        ∃ row, (run Pipeline.step pipeline events).writes.table.get? key = some row ∧
          row.report = update.report := by
  intro h
  obtain ⟨row, hrow, hreport⟩ := h (Sample.tracker none []).historyPipeline (Sample.putBack true) ⟨1, 1⟩
    ⟨trivial, rfl, trivial, trivial, List.length_eq_zero_iff.mp (by decide +kernel), trivial, trivial⟩
    (by decide +kernel) (by decide +kernel) (by decide +kernel) (Sample.historyUpdate 60 3000)
    (by decide +kernel) (by decide +kernel)
  have holder : ((run Pipeline.step (Sample.tracker none []).historyPipeline
      (Sample.putBack true)).writes.table.get? ⟨1, 1⟩).map HistoryRow.report =
      some (Sample.historyUpdate 0 1000).report := by decide +kernel
  rw [hrow, Option.map_some, hreport] at holder
  revert holder
  decide +kernel

end Reports

end Unit3dAnnounce
