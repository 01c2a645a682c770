import Unit3dAnnounce.Model.Sample
import Unit3dAnnounce.Proofs.Accounting
import Unit3dAnnounce.WriteBehind.Content

/-!
# The rows of the peers

Whatever flushes fail, a row ends with the latest update of its peer and with the time of the first
one. A merge goes by the time of the updates, so a failed batch that is put back does no harm.
-/

namespace Unit3dAnnounce

open Machine WriteBehind

abbrev PeerPipeline := Pipeline PeerUpdate.Index PeerUpdate PeerRow

variable {F : Type}

/-- A row with the values of an update. -/
def PeerUpdate.row (update : PeerUpdate) (createdAt : Option DateTime) : PeerRow where
  ip := some update.ip
  port := update.port
  agent := update.agent
  uploaded := update.uploaded
  downloaded := update.downloaded
  left := update.left
  active := update.isActive
  seeder := update.isSeeder
  visible := update.isVisible
  createdAt := createdAt
  updatedAt := some update.updatedAt
  connectable := update.connectable

/-- What a write replaces, in an update and in a row. -/
def PeerUpdate.content (update : PeerUpdate) : PeerRow := update.row none

def PeerRow.content (row : PeerRow) : PeerRow := { row with createdAt := none }

lemma writeRow_peer (config : Config F) (row : Option PeerRow) (update : PeerUpdate) :
    writeRow config row update = update.row (row.elim (some update.createdAt) PeerRow.createdAt) := by
  cases row <;> rfl

lemma content_writeRow (config : Config F) (row : Option PeerRow) (update : PeerUpdate) :
    (writeRow config row update).content = update.content := by
  rw [writeRow_peer]
  rfl

lemma PeerRow.eq_of_content {row : PeerRow} {update : PeerUpdate} (h : row.content = update.content) :
    row = update.row row.createdAt := by
  unfold PeerRow.content PeerUpdate.content PeerUpdate.row at h
  unfold PeerUpdate.row
  cases row
  simp_all

namespace PeerUpdate

variable {update update' : PeerUpdate}

lemma content_merge_of_lt (h : update.updatedAt < update'.updatedAt) :
    (Mergeable.merge update update').content = update'.content := by
  simp only [Mergeable.merge, if_pos h]
  rfl

lemma content_merge_of_le (h : update'.updatedAt ≤ update.updatedAt) :
    (Mergeable.merge update update').content = update.content := by
  simp only [Mergeable.merge, if_neg (not_lt.mpr h)]
  rfl

lemma createdAt_merge :
    (Mergeable.merge update update').createdAt = min update.createdAt update'.createdAt := rfl

lemma updatedAt_merge :
    (Mergeable.merge update update').updatedAt = max update.updatedAt update'.updatedAt := by
  rcases lt_or_ge update.updatedAt update'.updatedAt with hlt | hge
  · simp only [Mergeable.merge, if_pos hlt, max_eq_right hlt.le]
  · simp only [Mergeable.merge, if_neg (not_lt.mpr hge), max_eq_left hge]

end PeerUpdate

/-- The records of a peer and its row, after the given updates. The row was `row` before them. -/
structure FollowsUpdates (row : Option PeerRow) (updates : List PeerUpdate)
    (c : Cell PeerUpdate PeerRow) : Prop where
  idle : updates = [] → c = ⟨none, 0, row⟩
  latest : ∀ last, updates.getLast? = some last → c.Latest PeerUpdate.content PeerRow.content last
  kept : ∀ r, row = some r → ∃ r', c.row = some r' ∧ r'.createdAt = r.createdAt
  first : row = none → ∀ first, updates.head? = some first →
    c.First (fun update => some update.createdAt) PeerRow.createdAt (some first.createdAt)
  bounds : ∀ first last, updates.head? = some first → updates.getLast? = some last →
    c.Every fun update => first.createdAt ≤ update.createdAt ∧ update.updatedAt ≤ last.updatedAt

namespace FollowsUpdates

variable {row : Option PeerRow} {updates : List PeerUpdate} {c c' : Cell PeerUpdate PeerRow}

lemma bounds_merge {t t' : DateTime} (update update' : PeerUpdate)
    (h : t ≤ update.createdAt ∧ update.updatedAt ≤ t')
    (h' : t ≤ update'.createdAt ∧ update'.updatedAt ≤ t') :
    t ≤ (Mergeable.merge update update').createdAt ∧
      (Mergeable.merge update update').updatedAt ≤ t' := by
  rw [PeerUpdate.createdAt_merge, PeerUpdate.updatedAt_merge]
  exact ⟨le_min h.1 h'.1, max_le h.2 h'.2⟩

/-- The earliest time survives a merge. -/
lemma first_merge {t : DateTime} {update update' : PeerUpdate} (h : t ≤ update.createdAt)
    (h' : t ≤ update'.createdAt)
    (heq : some update.createdAt = some t ∨ some update'.createdAt = some t) :
    some (Mergeable.merge update update').createdAt = some t := by
  rw [PeerUpdate.createdAt_merge]
  rcases heq with heq | heq
  · rw [Option.some_inj] at heq
    rw [heq, min_eq_left h']
  · rw [Option.some_inj] at heq
    rw [heq, min_eq_right h]

/-- A new update that is later than all the others. -/
lemma enqueue (h : FollowsUpdates row updates c) {update : PeerUpdate}
    (hupdated : ∀ update' ∈ updates, update'.updatedAt < update.updatedAt)
    (hcreated : ∀ update' ∈ updates, update'.createdAt ≤ update.createdAt) :
    FollowsUpdates row (updates ++ [update]) (c.enqueue Mergeable.merge update) := by
  rcases List.eq_nil_or_concat updates with rfl | ⟨init, last, hconcat⟩
  · -- the first update of all
    rw [h.idle rfl]
    refine ⟨?_, ?_, ?_, ?_, ?_⟩
    · intro hnil
      simp at hnil
    · intro last hlast
      simp only [List.nil_append, List.getLast?_singleton, Option.some_inj] at hlast
      subst hlast
      exact Cell.latest_enqueue _ update (by simp)
    · intro r hr
      exact ⟨r, hr, rfl⟩
    · intro hnone first hfirst
      simp only [List.nil_append, List.head?_cons, Option.some_inj] at hfirst
      subst hnone hfirst
      exact ⟨by simp [Cell.enqueue], fun _ => ⟨update, rfl, rfl⟩⟩
    · intro first last hfirst hlast
      simp only [List.nil_append, List.head?_cons, List.getLast?_singleton, Option.some_inj]
        at hfirst hlast
      subst hfirst hlast
      exact ⟨by simp [Cell.enqueue], by simp [Cell.enqueue]⟩
  · rw [List.concat_eq_append] at hconcat
    obtain ⟨first, hfirst⟩ : ∃ first, updates.head? = some first := by
      rw [hconcat]
      cases init <;> simp
    have hlast : updates.getLast? = some last := by
      rw [hconcat, List.getLast?_append, List.getLast?_singleton, Option.some_or]
    have hbounds := h.bounds first last hfirst hlast
    have hlt : last.updatedAt < update.updatedAt := hupdated last (List.mem_of_getLast? hlast)
    have hle : first.createdAt ≤ update.createdAt := hcreated first (List.mem_of_head? hfirst)
    have hhead : (updates ++ [update]).head? = some first := by
      rw [List.head?_append, hfirst, Option.some_or]
    refine ⟨?_, ?_, h.kept, ?_, ?_⟩
    · intro hnil
      simp at hnil
    · intro last' hlast'
      simp only [List.getLast?_append, List.getLast?_singleton, Option.some_or, Option.some_inj]
        at hlast'
      subst hlast'
      exact Cell.latest_enqueue _ update fun q hq =>
        PeerUpdate.content_merge_of_lt ((hbounds.1 q hq).2.trans_lt hlt)
    · intro hnone first' hfirst'
      rw [hhead, Option.some_inj] at hfirst'
      subst hfirst'
      exact (h.first hnone first hfirst).enqueue fun q hq heq =>
        first_merge (hbounds.1 q hq).1 hle (Or.inl heq)
    · intro first' last' hfirst' hlast'
      rw [hhead, Option.some_inj] at hfirst'
      simp only [List.getLast?_append, List.getLast?_singleton, Option.some_or, Option.some_inj]
        at hlast'
      subst hfirst' hlast'
      exact (hbounds.mono fun u hu => ⟨hu.1, hu.2.trans hlt.le⟩).enqueue bounds_merge
        ⟨hle, le_refl _⟩

/-- A step that adds no update. -/
lemma step (h : FollowsUpdates row updates c) {a : Action (Config F) PeerUpdate}
    (hs : Cell.Step Mergeable.merge writeRow c a c') (henqueue : a.enqueued = 0)
    (htake : a = .take → c.inflight = 0) : FollowsUpdates row updates c' := by
  have hnew (update : PeerUpdate) : a ≠ .enqueue update := by
    intro ha
    rw [ha] at henqueue
    simp [Action.enqueued] at henqueue
  cases updates with
  | nil =>
    have hc := h.idle rfl
    exact absurd henqueue (hs.enqueued_ne_zero _ _ (by rw [hc]) (by rw [hc]))
  | cons first updates =>
    obtain ⟨last, hlast⟩ : ∃ last, (first :: updates).getLast? = some last :=
      ⟨_, List.getLast?_eq_some_getLast (List.cons_ne_nil first updates)⟩
    have hbounds := h.bounds first last rfl hlast
    refine ⟨by simp, ?_, ?_, ?_, ?_⟩
    · intro last' hlast'
      rw [hlast, Option.some_inj] at hlast'
      subst hlast'
      refine Cell.Latest.step content_writeRow hs henqueue htake ?_ (h.latest last hlast)
      intro update waiting ha hwaiting
      rw [ha] at hs
      have hcontent : waiting.content = last.content := by
        have hlatest := h.latest last hlast
        unfold Cell.Latest at hlatest
        rw [hwaiting] at hlatest
        exact hlatest
      have hupdated : waiting.updatedAt = last.updatedAt :=
        Option.some_inj.mp (congrArg PeerRow.updatedAt hcontent)
      apply PeerUpdate.content_merge_of_le
      rw [hupdated]
      exact (hbounds.2 update hs.mem_inflight).2
    · intro r hr
      exact Cell.row_step (fun config row update => by rw [writeRow_peer]; rfl) hs (h.kept r hr)
    · intro hnone first' hfirst
      simp only [List.head?_cons, Option.some_inj] at hfirst
      subst hfirst
      refine Cell.First.step (fun _ _ => rfl) (fun _ _ _ => rfl) hs htake ?_ (h.first hnone first rfl)
      intro update waiting hincoming hwaiting heq
      cases a with
      | enqueue update' => exact absurd rfl (hnew update')
      | fail update' =>
        simp only [Action.incoming, Option.some_inj] at hincoming
        subst hincoming
        exact first_merge (hbounds.1 waiting hwaiting).1 (hbounds.2 update' hs.mem_inflight).1 heq
      | take => simp [Action.incoming] at hincoming
      | commit config update' => simp [Action.incoming] at hincoming
    · intro first' last' hfirst' hlast'
      exact (h.bounds first' last' hfirst' hlast').step bounds_merge hs fun update ha =>
        absurd ha (hnew update)

/-- What the row holds once nothing is waiting or being written. -/
lemma row_eq (h : FollowsUpdates row updates c)
    (hcreated : updates.Pairwise fun update update' => update.createdAt ≤ update'.createdAt)
    (hqueued : c.queued = none) (hinflight : c.inflight = 0) {update : PeerUpdate}
    (hlast : updates.getLast? = some update) :
    ∃ createdAt, c.row = some (update.row createdAt) ∧
      match row with
      | some row => createdAt = row.createdAt
      | none => ∃ first ∈ updates, createdAt = some first.createdAt ∧
          ∀ update' ∈ updates, first.createdAt ≤ update'.createdAt := by
  obtain ⟨written, hrow, hcontent⟩ := (h.latest update hlast).row hqueued hinflight
  refine ⟨written.createdAt, ?_, ?_⟩
  · rw [← PeerRow.eq_of_content hcontent]
    exact hrow
  · cases row with
    | some old =>
      obtain ⟨written', hrow', hkept⟩ := h.kept old rfl
      rw [hrow, Option.some_inj] at hrow'
      rw [hrow']
      exact hkept
    | none =>
      obtain ⟨first, rest, rfl⟩ :=
        List.exists_cons_of_ne_nil (List.ne_nil_of_mem (List.mem_of_getLast? hlast))
      have hfirst := h.first rfl first rfl
      unfold Cell.First at hfirst
      rw [hrow] at hfirst
      refine ⟨first, List.mem_cons_self, hfirst, ?_⟩
      intro update' hmem'
      rcases List.mem_cons.mp hmem' with rfl | hmem'
      · exact le_refl _
      · exact (List.pairwise_cons.mp hcreated).1 update' hmem'

end FollowsUpdates

lemma Pipeline.followsUpdates_step {pipeline : PeerPipeline} {key : PeerUpdate.Index}
    {event : PipelineEvent F PeerUpdate.Index PeerUpdate} (hturn : pipeline.InTurn event)
    {row : Option PeerRow} {updates : List PeerUpdate}
    (hupdated : (updates ++ valuesOf key event.record?.toList).Pairwise
      fun update update' => update.updatedAt < update'.updatedAt)
    (hcreated : (updates ++ valuesOf key event.record?.toList).Pairwise
      fun update update' => update.createdAt ≤ update'.createdAt)
    (h : FollowsUpdates row updates (pipeline.channel.cell key)) :
    FollowsUpdates row (updates ++ valuesOf key event.record?.toList)
      ((pipeline.step event).channel.cell key) := by
  cases event with
  | upsert key' value =>
    obtain ⟨action, hacts, hstep⟩ := pipeline.step_cell (F := F) (.upsert key' value) key
    cases hacts with
    | upsert =>
      have hvalue : valuesOf key (PipelineEvent.upsert key value :
          PipelineEvent F PeerUpdate.Index PeerUpdate).record?.toList = [value] := by
        simp [PipelineEvent.record?, valuesOf]
      rw [hvalue, List.pairwise_append] at hupdated hcreated
      rw [hvalue, Pipeline.cell_upsert]
      exact h.enqueue
        (fun update hmem => hupdated.2.2 update hmem value (List.mem_singleton_self value))
        (fun update hmem => hcreated.2.2 update hmem value (List.mem_singleton_self value))
    | upsertOther _ hkey =>
      have hnone : valuesOf key (PipelineEvent.upsert key' value :
          PipelineEvent F PeerUpdate.Index PeerUpdate).record?.toList = [] := by
        simp [PipelineEvent.record?, valuesOf, hkey]
      rw [hnone, List.append_nil,
        show (pipeline.step _).channel.cell key = pipeline.channel.cell key from hstep]
      exact h
  | flush event =>
    have hnone : valuesOf key (PipelineEvent.flush event :
        PipelineEvent F PeerUpdate.Index PeerUpdate).record?.toList = [] := rfl
    rw [hnone, List.append_nil]
    rcases pipeline.flush_cell event key with hsame | ⟨action, hacts, hnew, hstep⟩
    · rw [Pipeline.step, hsame]
      exact h
    · refine h.step hstep hnew ?_
      rintro rfl
      exact hacts.inflight_eq_zero hturn

lemma Pipeline.followsUpdates_run {pipeline : PeerPipeline} {key : PeerUpdate.Index}
    {events : List (PipelineEvent F PeerUpdate.Index PeerUpdate)}
    (hturn : Along Pipeline.step Pipeline.InTurn pipeline events)
    {row : Option PeerRow} {updates : List PeerUpdate}
    (hupdated : (updates ++ valuesOf key (events.filterMap PipelineEvent.record?)).Pairwise
      fun update update' => update.updatedAt < update'.updatedAt)
    (hcreated : (updates ++ valuesOf key (events.filterMap PipelineEvent.record?)).Pairwise
      fun update update' => update.createdAt ≤ update'.createdAt)
    (h : FollowsUpdates row updates (pipeline.channel.cell key)) :
    FollowsUpdates row (updates ++ valuesOf key (events.filterMap PipelineEvent.record?))
      ((run Pipeline.step pipeline events).channel.cell key) := by
  induction events generalizing pipeline updates with
  | nil => simpa [valuesOf] using h
  | cons event events ih =>
    rw [valuesOf_filterMap_cons, ← List.append_assoc] at hupdated hcreated ⊢
    apply ih hturn.2 hupdated hcreated
    exact Pipeline.followsUpdates_step hturn.1 (List.pairwise_append.mp hupdated).1
      (List.pairwise_append.mp hcreated).1 h

/-- Where flushes do not overlap and updates for a peer are enqueued with increasing times, its row holds
the latest update, once nothing of the peer is waiting or being written. A row that was there keeps its
time of creation, and another one has the earliest. -/
theorem peer_row_follows_updates (pipeline : PeerPipeline)
    (events : List (PipelineEvent F PeerUpdate.Index PeerUpdate)) (key : PeerUpdate.Index)
    (hwaiting : pipeline.queue.records.get? key = none)
    (hwriting : ∀ batch ∈ pipeline.writes.running, batch.get? key = none)
    (hturn : Along Pipeline.step Pipeline.InTurn pipeline events)
    (hsorted : (valuesOf key (events.filterMap PipelineEvent.record?)).Pairwise
      fun update update' => update.updatedAt < update'.updatedAt)
    (hcreated : (valuesOf key (events.filterMap PipelineEvent.record?)).Pairwise
      fun update update' => update.createdAt ≤ update'.createdAt)
    (hqueue : (run Pipeline.step pipeline events).queue.records.get? key = none)
    (hrunning : ∀ batch ∈ (run Pipeline.step pipeline events).writes.running, batch.get? key = none)
    (update : PeerUpdate) (hmem : update ∈ valuesOf key (events.filterMap PipelineEvent.record?))
    (hlatest : ∀ update' ∈ valuesOf key (events.filterMap PipelineEvent.record?),
      update'.updatedAt ≤ update.updatedAt) :
    ∃ createdAt, (run Pipeline.step pipeline events).writes.table.get? key =
        some (update.row createdAt) ∧
      match pipeline.writes.table.get? key with
      | some row => createdAt = row.createdAt
      | none => ∃ first ∈ valuesOf key (events.filterMap PipelineEvent.record?),
        createdAt = some first.createdAt ∧
          ∀ update' ∈ valuesOf key (events.filterMap PipelineEvent.record?),
            first.createdAt ≤ update'.createdAt := by
  have hstart : FollowsUpdates (pipeline.writes.table.get? key) [] (pipeline.channel.cell key) := by
    have hnone : pipeline.writes.running.filterMap (fun batch => batch.get? key) = [] :=
      List.filterMap_eq_nil_iff.mpr hwriting
    refine ⟨fun _ => ?_, by simp, fun r hr => ⟨r, hr, rfl⟩, by simp, by simp⟩
    simp only [Channel.cell, Pipeline.channel, hwaiting, hnone, Multiset.coe_nil]
  have hend := Pipeline.followsUpdates_run hturn hsorted hcreated hstart
  rw [List.nil_append] at hend
  exact hend.row_eq hcreated hqueue (Pipeline.inflight_eq_zero hrunning)
    (getLast?_of_latest hsorted hmem hlatest)

/-- The write of the first update fails while the second one waits. -/
def Sample.peerPutBack : List (PipelineEvent ℝ PeerUpdate.Index PeerUpdate) :=
  [.upsert ⟨1, 1, peerId 1⟩ (peerUpdate 0 1000), .flush (.takeBatches config),
    .upsert ⟨1, 1, peerId 1⟩ (peerUpdate 60 3000), .flush (.finish config 0 false),
    .flush (.takeBatches config), .flush (.finish config 0 true)]

theorem peer_row_follows_updates_sample :
    ∃ createdAt, (run Pipeline.step (Sample.tracker none []).peerPipeline
        Sample.peerPutBack).writes.table.get? ⟨1, 1, Sample.peerId 1⟩ =
          some ((Sample.peerUpdate 60 3000).row createdAt) ∧
      match (Sample.tracker none []).peerPipeline.writes.table.get? ⟨1, 1, Sample.peerId 1⟩ with
      | some row => createdAt = row.createdAt
      | none => ∃ first ∈ valuesOf ⟨1, 1, Sample.peerId 1⟩
          (Sample.peerPutBack.filterMap PipelineEvent.record?), createdAt = some first.createdAt ∧
        ∀ update' ∈ valuesOf ⟨1, 1, Sample.peerId 1⟩
          (Sample.peerPutBack.filterMap PipelineEvent.record?), first.createdAt ≤ update'.createdAt :=
  peer_row_follows_updates (Sample.tracker none []).peerPipeline Sample.peerPutBack
    ⟨1, 1, Sample.peerId 1⟩ rfl (by decide +kernel)
    ⟨trivial, rfl, trivial, trivial, List.length_eq_zero_iff.mp (by decide +kernel), trivial, trivial⟩
    (by decide +kernel) (by decide +kernel) (by decide +kernel) (by decide +kernel)
    (Sample.peerUpdate 60 3000) (by decide +kernel) (by decide +kernel)

end Unit3dAnnounce
