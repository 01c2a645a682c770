import Unit3dAnnounce.Machine.Run
import Unit3dAnnounce.Model.Flush
import Unit3dAnnounce.WriteBehind.Channel
import Unit3dAnnounce.WriteBehind.Content

/-!
# Flushing as write-behind

A queue with its batches and its table is a write-behind channel: however the records are split
into batches, none of them is lost or repeated on the way.
-/

namespace Unit3dAnnounce

open WriteBehind

variable {F K V R : Type} [DecidableEq K]

omit [DecidableEq K] in
/-- Splitting keeps all the records, in their order. -/
lemma Queue.splitBatches_flatMap {size : ℕ} (rounds : ℕ) (records : IndexMap K V)
    (batches : List (Batch K V)) (hrounds : records.size ≤ rounds) (hsize : size = 0 → records.size = 0) :
    (splitBatches size rounds records batches).flatMap IndexMap.entries =
      records.entries ++ batches.flatMap IndexMap.entries := by
  induction rounds generalizing records batches with
  | zero =>
    have hnil : records.entries = [] := List.length_eq_zero_iff.mp (Nat.le_zero.mp hrounds)
    rw [splitBatches, hnil, List.nil_append]
  | succ rounds ih =>
    unfold splitBatches
    by_cases hzero : records.size = 0
    · have hnil : records.entries = [] := List.length_eq_zero_iff.mp hzero
      rw [if_pos hzero, hnil, List.nil_append]
    · rw [if_neg hzero]
      have hpos : 0 < size := Nat.pos_of_ne_zero fun h => hzero (hsize h)
      have hlength : (records.take (records.size - min records.size size)).size =
          records.size - min records.size size := by
        have htake : (records.take (records.size - min records.size size)).size =
            min (records.size - min records.size size) records.size := List.length_take
        omega
      rw [ih _ _ (by omega) (by omega), List.flatMap_cons, ← List.append_assoc]
      congr 1
      exact List.take_append_drop _ _

omit [DecidableEq K] in
lemma Queue.takeBatches_perm [Ord K] (config : Config F) (queue : Queue K V) :
    queue.records.entries.Perm ((queue.takeBatches config).1.flatMap IndexMap.entries ++
      (queue.takeBatches config).2.records.entries) := by
  unfold takeBatches
  simp only
  generalize hsize : queue.config.maxBatchSize config = size
  generalize hdrained : min queue.records.size (config.maxBatchesPerFlush * size).toNat = drained
  have hsort : (queue.records.take drained).sortByKey.entries.Perm (queue.records.take drained).entries :=
    List.perm_insertionSort _ _
  have hlength : (queue.records.take drained).sortByKey.size = drained := by
    have htake : (queue.records.take drained).entries.length = min drained queue.records.size :=
      List.length_take
    have hperm := hsort.length_eq
    have hmin : drained ≤ queue.records.size := by omega
    unfold IndexMap.size at *
    omega
  rw [splitBatches_flatMap _ _ _ (le_refl _), List.flatMap_nil, List.append_nil]
  · have hsplit : (queue.records.take drained).entries ++ (queue.records.drop drained).entries =
        queue.records.entries := List.take_append_drop _ _
    rw [← hsplit]
    exact (hsort.append_right _).symm
  · intro hzero
    have hempty : size = 0 := UInt64.toNat_inj.mp hzero
    rw [hlength, ← hdrained, hempty, UInt64.mul_zero]
    exact Nat.min_zero _

lemma Queue.records_upsertBatch [Mergeable V] (queue : Queue K V) (batch : Batch K V) :
    (queue.upsertBatch batch).records = Channel.requeue Mergeable.merge queue.records batch := by
  unfold upsertBatch Channel.requeue IndexMap.upsertAll
  induction batch.entries generalizing queue with
  | nil => rfl
  | cons record records ih => exact ih (queue.upsert record.1 record.2)

namespace Pipeline

variable [Ord K] [Mergeable V] [Flushable V R]

def channel (pipeline : Pipeline K V R) : Channel K V R :=
  ⟨pipeline.queue.records, pipeline.writes.running, pipeline.writes.table⟩

/-- What happens at the channel. A report about a statement that is not running is nothing. -/
def channelEvent (pipeline : Pipeline K V R) : PipelineEvent F K V → Option (Event (Config F) K V)
  | .upsert key value => some (.enqueue key value)
  | .flush (.takeBatches _) => some .take
  | .flush (.finish config index succeeded) =>
    pipeline.writes.running[index]?.map fun batch =>
      if succeeded then .commit config batch else .fail batch

omit [DecidableEq K] [Ord K] [Mergeable V] in
/-- A running statement, and those started before and after it. -/
lemma running_split {running : List (Batch K V)} {index : ℕ} {batch : Batch K V}
    (h : running[index]? = some batch) :
    ∃ l l', running = l ++ batch :: l' ∧ running.eraseIdx index = l ++ l' := by
  obtain ⟨hlt, hget⟩ := List.getElem?_eq_some_iff.mp h
  refine ⟨running.take index, running.drop (index + 1), ?_, List.eraseIdx_eq_take_drop_succ _ _⟩
  rw [← hget, ← List.drop_eq_getElem_cons hlt, List.take_append_drop]

/-- Every step of a pipeline is one of its channel. -/
theorem step_channel (pipeline : Pipeline K V R) (event : PipelineEvent F K V) :
    Channel.Steps Mergeable.merge writeRow pipeline.channel (pipeline.channelEvent event)
      (pipeline.step event).channel := by
  cases event with
  | upsert key value => exact Channel.Step.enqueue pipeline.channel key value
  | flush event =>
    cases event with
    | takeBatches config =>
      exact Channel.Step.take pipeline.channel _ _ (pipeline.queue.takeBatches_perm config)
    | finish config index succeeded =>
      simp only [channelEvent, step, flush]
      cases hb : pipeline.writes.running[index]? with
      | none => rfl
      | some batch =>
        obtain ⟨l, l', hrunning, herase⟩ := running_split hb
        simp only [herase]
        cases succeeded with
        | true => exact Channel.Step.commit pipeline.channel config batch l l' hrunning
        | false =>
          have hchannel : (⟨pipeline.queue.upsertBatch batch, ⟨l ++ l', pipeline.writes.table⟩⟩ :
              Pipeline K V R).channel = { pipeline.channel with
                inflight := l ++ l'
                queue := Channel.requeue Mergeable.merge pipeline.channel.queue batch } := by
            simp only [channel, Queue.records_upsertBatch]
          simp only [Bool.false_eq_true, if_false]
          rw [hchannel]
          exact Channel.Step.fail pipeline.channel batch l l' hrunning

theorem run_channel (pipeline : Pipeline K V R) (events : List (PipelineEvent F K V)) :
    Channel.Run Mergeable.merge writeRow pipeline.channel
      (Machine.log step (fun pipeline event => (pipeline.channelEvent event).toList) pipeline events)
      (Machine.run step pipeline events).channel := by
  induction events generalizing pipeline with
  | nil => exact Channel.Run.nil _
  | cons event events ih => exact (pipeline.step_channel event).run.append _ _ (ih (pipeline.step event))

omit [Ord K] [Mergeable V] [Flushable V R] in
/-- A key that is in no batch has nothing in flight. -/
lemma inflight_eq_zero {pipeline : Pipeline K V R} {key : K}
    (h : ∀ batch ∈ pipeline.writes.running, batch.get? key = none) :
    (pipeline.channel.cell key).inflight = 0 := by
  simp only [channel, Channel.cell, Multiset.coe_eq_zero, List.filterMap_eq_nil_iff]
  exact h

lemma cell_upsert (pipeline : Pipeline K V R) (key : K) (value : V) :
    (pipeline.step (.upsert key value : PipelineEvent F K V)).channel.cell key =
      (pipeline.channel.cell key).enqueue Mergeable.merge value := by
  simp only [step, channel, Channel.cell, Cell.enqueue, Queue.upsert, IndexMap.get?_upsert, if_true]

/-- How an event acts on the records of a key. -/
inductive Acts (pipeline : Pipeline K V R) (key : K) :
    PipelineEvent F K V → Option (Action (Config F) V) → Prop
  | upsert (value : V) : Acts pipeline key (.upsert key value) (some (.enqueue value))
  | upsertOther {key' : K} (value : V) (h : key' ≠ key) : Acts pipeline key (.upsert key' value) none
  | take (config : Config F) : Acts pipeline key (.flush (.takeBatches config)) (some .take)
  | takeOther (config : Config F) : Acts pipeline key (.flush (.takeBatches config)) none
  | commit (config : Config F) {index : ℕ} {batch : Batch K V} {value : V}
      (hbatch : pipeline.writes.running[index]? = some batch) (hvalue : batch.get? key = some value) :
    Acts pipeline key (.flush (.finish config index true)) (some (.commit config value))
  | fail (config : Config F) {index : ℕ} {batch : Batch K V} {value : V}
      (hbatch : pipeline.writes.running[index]? = some batch) (hvalue : batch.get? key = some value) :
    Acts pipeline key (.flush (.finish config index false)) (some (.fail value))
  | finishOther (config : Config F) (index : ℕ) (succeeded : Bool) :
    Acts pipeline key (.flush (.finish config index succeeded)) none

/-- Every key of a pipeline moves like a cell. -/
theorem step_cell (pipeline : Pipeline K V R) (event : PipelineEvent F K V) (key : K) :
    ∃ action, Acts pipeline key event action ∧ Cell.Steps Mergeable.merge writeRow
      (pipeline.channel.cell key) action ((pipeline.step event).channel.cell key) := by
  obtain ⟨action, hacts, hstep⟩ := (pipeline.step_channel event).cell key
  refine ⟨action, ?_, hstep⟩
  cases event with
  | upsert key' value =>
    simp only [channelEvent, Option.elim_some] at hacts
    cases hacts with
    | enqueue => exact .upsert value
    | enqueueOther _ h => exact .upsertOther value h
  | flush event =>
    cases event with
    | takeBatches config =>
      simp only [channelEvent, Option.elim_some] at hacts
      cases hacts with
      | take => exact .take config
      | takeOther => exact .takeOther config
    | finish config index succeeded =>
      simp only [channelEvent] at hacts
      cases hb : pipeline.writes.running[index]? with
      | none =>
        simp only [hb, Option.map_none, Option.elim_none] at hacts
        rw [hacts]
        exact .finishOther config index succeeded
      | some batch =>
        simp only [hb, Option.map_some, Option.elim_some] at hacts
        cases succeeded with
        | true =>
          simp only [if_true] at hacts
          cases hacts with
          | commit hvalue => exact .commit config hb hvalue
          | commitOther _ => exact .finishOther config index true
        | false =>
          simp only [Bool.false_eq_true, if_false] at hacts
          cases hacts with
          | fail hvalue => exact .fail config hb hvalue
          | failOther _ => exact .finishOther config index false

/-- A flush finishes before the next one starts. -/
def InTurn (pipeline : Pipeline K V R) : PipelineEvent F K V → Prop
  | .flush (.takeBatches _) => pipeline.writes.running = []
  | _ => True

/-- A flush enqueues nothing: it moves the records of a key on, or leaves them alone. -/
theorem flush_cell (pipeline : Pipeline K V R) (event : FlushEvent F) (key : K) :
    (pipeline.flush event).channel.cell key = pipeline.channel.cell key ∨
      ∃ action, Acts pipeline key (.flush event) (some action) ∧ action.enqueued = 0 ∧
        Cell.Step Mergeable.merge writeRow (pipeline.channel.cell key) action
          ((pipeline.flush event).channel.cell key) := by
  obtain ⟨action, hacts, hstep⟩ := pipeline.step_cell (.flush event) key
  cases action with
  | none => exact Or.inl hstep
  | some action =>
    refine Or.inr ⟨action, hacts, ?_, hstep⟩
    cases hacts <;> rfl

/-- What merges keep and the new records of a key have, every record of it has. -/
lemma every_step (pipeline : Pipeline K V R) (event : PipelineEvent F K V) {key : K} {P : V → Prop}
    (hmerge : ∀ value value', P value → P value' → P (Mergeable.merge value value'))
    (hnew : ∀ value, event = .upsert key value → P value)
    (h : (pipeline.channel.cell key).Every P) : ((pipeline.step event).channel.cell key).Every P := by
  obtain ⟨action, hacts, hstep⟩ := pipeline.step_cell event key
  cases action with
  | none =>
    rw [show (pipeline.step event).channel.cell key = pipeline.channel.cell key from hstep]
    exact h
  | some action =>
    refine h.step hmerge hstep ?_
    rintro value rfl
    cases hacts with
    | upsert => exact hnew value rfl

omit [Ord K] [Mergeable V] [Flushable V R] in
/-- Where flushes do not overlap, nothing is in flight when records are taken. -/
lemma Acts.inflight_eq_zero {pipeline : Pipeline K V R} {key : K} {event : PipelineEvent F K V}
    (h : Acts pipeline key event (some .take)) (hturn : pipeline.InTurn event) :
    (pipeline.channel.cell key).inflight = 0 := by
  cases h with
  | take config =>
    have hempty : pipeline.writes.running = [] := hturn
    exact Pipeline.inflight_eq_zero (by simp [hempty])

end Pipeline

end Unit3dAnnounce
