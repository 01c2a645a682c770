import Unit3dAnnounce.Model.Sample
import Unit3dAnnounce.Model.Shutdown
import Unit3dAnnounce.Proofs.Pipeline

/-!
# What a shutdown leaves behind

Main leaves its loop when it has read every queue and found it empty. A queue is also empty while
the scheduler has its records, so this alone does not say that they have been written.
-/

namespace Unit3dAnnounce

open Machine

variable {F : Type}

section Empty

variable {K V : Type} [DecidableEq K]

omit [DecidableEq K] in
lemma Queue.isNotEmpty_eq_false {queue : Queue K V} :
    queue.isNotEmpty = false ↔ queue.records.entries = [] := by
  simp [isNotEmpty, IndexMap.size]

omit [DecidableEq K] in
lemma Queue.takeBatches_of_empty [Ord K] (config : Config F) {queue : Queue K V}
    (h : queue.isNotEmpty = false) :
    (∀ batch ∈ (queue.takeBatches config).1, batch.size = 0) ∧
      (queue.takeBatches config).2.isNotEmpty = false := by
  have hperm := queue.takeBatches_perm config
  rw [isNotEmpty_eq_false.mp h, List.nil_perm, List.append_eq_nil_iff] at hperm
  obtain ⟨hbatches, hrest⟩ := hperm
  refine ⟨fun batch hbatch => ?_, isNotEmpty_eq_false.mpr hrest⟩
  exact List.length_eq_zero_iff.mpr (List.flatMap_eq_nil_iff.mp hbatches batch hbatch)

lemma Queue.upsertBatch_of_empty [Mergeable V] {queue : Queue K V} {batch : Batch K V}
    (h : queue.isNotEmpty = false) (hbatch : batch.size = 0) :
    (queue.upsertBatch batch).isNotEmpty = false := by
  have hentries : batch.entries = [] := List.length_eq_zero_iff.mp hbatch
  simp only [upsertBatch, hentries, List.foldl_nil]
  exact h

end Empty

namespace QueueKind

/-- From an empty queue a flush takes no records, and leaves it empty. -/
lemma takeBatches_of_empty (config : Config F) {kind : QueueKind} {queue : kind.Records}
    (h : kind.isNotEmpty queue = false) :
    (∀ batch ∈ (kind.takeBatches config queue).1, kind.len batch = 0) ∧
      kind.isNotEmpty (kind.takeBatches config queue).2 = false := by
  cases kind with
  | announces =>
    have hempty : List.isEmpty queue = true := by
      simpa [isNotEmpty] using h
    have hnil : queue = ([] : List AnnounceUpdate) := List.isEmpty_iff.mp hempty
    subst hnil
    refine ⟨fun batch hbatch => ?_, rfl⟩
    rw [List.mem_singleton.mp hbatch]
    rfl
  | histories => exact Queue.takeBatches_of_empty config h
  | peers => exact Queue.takeBatches_of_empty config h
  | torrents => exact Queue.takeBatches_of_empty config h
  | users => exact Queue.takeBatches_of_empty config h
  | unregisteredInfoHashes => exact Queue.takeBatches_of_empty config h

lemma upsertBatch_of_empty {kind : QueueKind} {queue : kind.Records} {batch : kind.Taken}
    (h : kind.isNotEmpty queue = false) (hbatch : kind.len batch = 0) :
    kind.isNotEmpty (kind.upsertBatch queue batch) = false := by
  cases kind with
  | announces =>
    have hnil : batch = ([] : List AnnounceUpdate) := List.length_eq_zero_iff.mp hbatch
    have hsame : upsertBatch announces queue batch = queue := by
      rw [hnil]
      exact List.append_nil _
    rw [hsame]
    exact h
  | histories => exact Queue.upsertBatch_of_empty h hbatch
  | peers => exact Queue.upsertBatch_of_empty h hbatch
  | torrents => exact Queue.upsertBatch_of_empty h hbatch
  | users => exact Queue.upsertBatch_of_empty h hbatch
  | unregisteredInfoHashes => exact Queue.upsertBatch_of_empty h hbatch

lemma mem_all (kind : QueueKind) : kind ∈ all := by
  cases kind <;> decide

end QueueKind

namespace Progress

variable {B : Type}

lemma held_joinAll (statements : List (B × Option Bool)) :
    (joinAll statements).held = (running statements).held := by
  unfold joinAll
  split_ifs with hall
  · refine congrArg (List.map Prod.fst) (List.filter_congr ?_)
    intro statement hstatement
    obtain ⟨outcome, houtcome⟩ :=
      Option.isSome_iff_exists.mp (List.all_eq_true.mp hall statement hstatement)
    cases outcome <;> simp [houtcome]
  · rfl

lemma mem_of_mem_held_start {len : B → ℕ} {batches : List B} {batch : B}
    (h : batch ∈ (start len batches).held) : batch ∈ batches := by
  rw [start, held_joinAll] at h
  obtain ⟨statement, hstatement, rfl⟩ := List.mem_map.mp h
  obtain ⟨batch, hbatch, rfl⟩ := List.mem_map.mp (List.mem_of_mem_filter hstatement)
  exact hbatch

/-- A report about a statement makes no batch held. -/
lemma held_finish (index : ℕ) (succeeded : Bool) {progress : Progress B} {batch : B}
    (h : batch ∈ (progress.finish index succeeded).held) : batch ∈ progress.held := by
  cases progress with
  | starting => exact h
  | requeuing failed => exact h
  | running statements =>
    rw [finish, held_joinAll] at h
    obtain ⟨statement, hstatement, rfl⟩ := List.mem_map.mp h
    obtain ⟨hmem, hheld⟩ := List.mem_filter.mp hstatement
    obtain ⟨i, hi⟩ := List.mem_iff_getElem?.mp hmem
    rw [List.getElem?_modify, Option.map_eq_map, Option.map_eq_some_iff] at hi
    obtain ⟨old, hold, hnew⟩ := hi
    apply List.mem_map.mpr
    refine ⟨old, List.mem_filter.mpr ⟨List.mem_of_getElem? hold, ?_⟩, ?_⟩
    · by_cases hindex : index = i
      · rw [if_pos hindex] at hnew
        subst hnew
        cases houtcome : old.2 with
        | none => simp
        | some outcome => simpa [houtcome] using hheld
      · rw [if_neg hindex] at hnew
        subst hnew
        exact hheld
    · by_cases hindex : index = i
      · rw [if_pos hindex] at hnew
        subst hnew
        rfl
      · rw [if_neg hindex] at hnew
        subst hnew
        rfl

lemma eq_done {progress : Progress B} (h : progress.isDone = true) : progress = .done := by
  unfold isDone at h
  split at h
  · rfl
  · simp at h

/-- Nothing is on its way, apart from batches without records. -/
def IsClear (len : B → ℕ) (progress : Progress B) : Prop := ∀ batch ∈ progress.held, len batch = 0

instance (len : B → ℕ) (progress : Progress B) : Decidable (progress.IsClear len) :=
  inferInstanceAs (Decidable (∀ batch ∈ _, _))

end Progress

namespace Shutdown

/-- No record of the queue is waiting, in flight or about to be put back. -/
def Drained (shutdown : Shutdown) (kind : QueueKind) : Prop :=
  kind.isNotEmpty (shutdown.queues kind) = false ∧
    ∀ task, (shutdown.progress task kind).IsClear kind.len

variable {shutdown : Shutdown} {kind kind' : QueueKind} {task task' : Task}

lemma queues_setQueue_self (queue : kind.Records) :
    (shutdown.setQueue kind queue).queues kind = queue := Function.update_self kind queue _

lemma queues_setQueue_of_ne (hne : kind ≠ kind') (queue : kind'.Records) :
    (shutdown.setQueue kind' queue).queues kind = shutdown.queues kind :=
  Function.update_of_ne hne queue _

lemma progress_setProgress_self (progress : Progress kind.Taken) :
    (shutdown.setProgress task kind progress).progress task kind = progress := by
  simp only [setProgress, Function.update_self]

lemma progress_setProgress_of_ne (hne : task ≠ task' ∨ kind ≠ kind')
    (progress : Progress kind'.Taken) :
    (shutdown.setProgress task' kind' progress).progress task kind = shutdown.progress task kind := by
  unfold setProgress
  by_cases htask : task = task'
  · subst htask
    have hkind : kind ≠ kind' := hne.resolve_left fun h => h rfl
    simp only [Function.update_self]
    rw [Function.update_of_ne hkind]
  · simp only
    rw [Function.update_of_ne htask]

/-- A queue stays drained when a task gets on with this or another queue. -/
lemma Drained.set (h : shutdown.Drained kind) {queue : kind'.Records}
    {progress : Progress kind'.Taken} (hqueue : kind' = kind → kind'.isNotEmpty queue = false)
    (hclear : kind' = kind → progress.IsClear kind'.len) :
    ((shutdown.setQueue kind' queue).setProgress task' kind' progress).Drained kind := by
  by_cases hkind : kind' = kind
  · subst hkind
    refine ⟨?_, fun task => ?_⟩
    · exact (congrArg kind'.isNotEmpty (queues_setQueue_self queue)).trans (hqueue rfl)
    · by_cases htask : task = task'
      · subst htask
        rw [progress_setProgress_self]
        exact hclear rfl
      · rw [progress_setProgress_of_ne (Or.inl htask)]
        exact h.2 task
  · have hne : kind ≠ kind' := fun heq => hkind heq.symm
    refine ⟨?_, fun task => ?_⟩
    · exact (congrArg kind.isNotEmpty (queues_setQueue_of_ne hne queue)).trans h.1
    · rw [progress_setProgress_of_ne (Or.inr hne)]
      exact h.2 task

lemma Drained.startFlush (h : shutdown.Drained kind) (task : Task) :
    (shutdown.startFlush task).Drained kind := by
  refine ⟨h.1, fun task' => ?_⟩
  by_cases htask : task' = task
  · subst htask
    have hstarting : (shutdown.startFlush task').progress task' kind = .starting := by
      simp only [Shutdown.startFlush, Function.update_self]
    rw [hstarting]
    exact fun batch hbatch => absurd hbatch List.not_mem_nil
  · have hsame : (shutdown.startFlush task).progress task' kind = shutdown.progress task' kind :=
      congrFun (Function.update_of_ne htask _ _) kind
    rw [hsame]
    exact h.2 task'

/-- What a step can be, with what its task was up to. -/
inductive Moves (shutdown : Shutdown) : ShutdownEvent F → Shutdown → Prop
  | rests (event : ShutdownEvent F) : Moves shutdown event shutdown
  | schedulerFlushes : Moves shutdown .schedulerFlushes (shutdown.startFlush .scheduler)
  | takeBatches {task : Task} {kind : QueueKind} (config : Config F)
      (hprogress : shutdown.progress task kind = .starting) :
    Moves shutdown (.takeBatches task kind config)
      ((shutdown.setQueue kind (kind.takeBatches config (shutdown.queues kind)).2).setProgress task kind
        (.start kind.len (kind.takeBatches config (shutdown.queues kind)).1))
  | finish (task : Task) (kind : QueueKind) (index : ℕ) (succeeded : Bool) :
    Moves shutdown (.finish task kind index succeeded)
      (shutdown.setProgress task kind ((shutdown.progress task kind).finish index succeeded))
  | upsertBatch {task : Task} {kind : QueueKind} {batch : kind.Taken} {failed : List kind.Taken}
      (hprogress : shutdown.progress task kind = .requeuing (batch :: failed)) :
    Moves shutdown (.upsertBatch task kind)
      ((shutdown.setQueue kind (kind.upsertBatch (shutdown.queues kind) batch)).setProgress task kind
        (.requeuing failed))
  | findsRecords {flushes : ℕ} {kind : QueueKind} {unread : List QueueKind}
      (hmain : shutdown.mainLoop = .checking flushes (kind :: unread)) :
    Moves shutdown .mainReads { shutdown.startFlush .main with mainLoop := .flushing flushes }
  | findsNone {flushes : ℕ} {kind : QueueKind} {unread : List QueueKind}
      (hmain : shutdown.mainLoop = .checking flushes (kind :: unread))
      (hempty : kind.isNotEmpty (shutdown.queues kind) = false) :
    Moves shutdown .mainReads { shutdown with mainLoop := .next flushes unread }
  | hasFlushed {flushes : ℕ} (hmain : shutdown.mainLoop = .flushing flushes)
      (hflushed : shutdown.hasFlushed .main = true) :
    Moves shutdown .mainGoesOn { shutdown with mainLoop := .check (flushes + 1) }

variable (shutdown) in
lemma moves_step (event : ShutdownEvent F) : shutdown.Moves event (shutdown.step event) := by
  cases event with
  | schedulerFlushes =>
    simp only [Shutdown.step]
    split_ifs
    · exact .schedulerFlushes
    · exact .rests _
  | takeBatches task kind config =>
    simp only [Shutdown.step]
    cases hprogress : shutdown.progress task kind with
    | starting => exact .takeBatches config hprogress
    | running statements => exact .rests _
    | requeuing failed => exact .rests _
  | finish task kind index succeeded => exact .finish task kind index succeeded
  | upsertBatch task kind =>
    simp only [Shutdown.step]
    cases hprogress : shutdown.progress task kind with
    | starting => exact .rests _
    | running statements => exact .rests _
    | requeuing failed =>
      cases failed with
      | nil => exact .rests _
      | cons batch failed => exact .upsertBatch hprogress
  | mainReads =>
    simp only [Shutdown.step]
    split
    · next flushes kind unread hmain =>
      split_ifs with hempty
      · exact .findsRecords hmain
      · exact .findsNone hmain (eq_false_of_ne_true hempty)
    · exact .rests _
  | mainGoesOn =>
    simp only [Shutdown.step]
    split
    · next flushes hmain =>
      split_ifs with hflushed
      · exact .hasFlushed hmain hflushed
      · exact .rests _
    · exact .rests _

/-- A drained queue stays drained, since nothing is enqueued any more. -/
lemma Drained.moves (h : shutdown.Drained kind) {event : ShutdownEvent F} {shutdown' : Shutdown}
    (hmoves : shutdown.Moves event shutdown') : shutdown'.Drained kind := by
  cases hmoves with
  | rests _ => exact h
  | schedulerFlushes => exact h.startFlush .scheduler
  | takeBatches config hprogress =>
    refine h.set (fun heq => ?_) (fun heq => ?_)
    · subst heq
      exact (QueueKind.takeBatches_of_empty config h.1).2
    · subst heq
      intro batch hbatch
      exact (QueueKind.takeBatches_of_empty config h.1).1 batch
        (Progress.mem_of_mem_held_start hbatch)
  | finish task kind' index succeeded =>
    have hsame : shutdown.setQueue kind' (shutdown.queues kind') = shutdown := by
      simp only [setQueue, Function.update_eq_self]
    have hset : ((shutdown.setQueue kind' (shutdown.queues kind')).setProgress task kind'
        ((shutdown.progress task kind').finish index succeeded)).Drained kind := by
      refine h.set (fun heq => ?_) (fun heq => ?_)
      · subst heq
        exact h.1
      · subst heq
        exact fun batch hbatch => h.2 task batch (Progress.held_finish index succeeded hbatch)
    rw [hsame] at hset
    exact hset
  | @upsertBatch task kind' batch failed hprogress =>
    have hclear (heq : kind' = kind) (other : kind'.Taken) (hother : other ∈ batch :: failed) :
        kind'.len other = 0 := by
      subst heq
      have hheld := h.2 task
      rw [hprogress] at hheld
      exact hheld other hother
    refine h.set (fun heq => ?_) (fun heq other hother => ?_)
    · have hempty : kind'.isNotEmpty (shutdown.queues kind') = false := by
        subst heq
        exact h.1
      exact QueueKind.upsertBatch_of_empty hempty (hclear heq batch List.mem_cons_self)
    · exact hclear heq other (List.mem_cons_of_mem batch hother)
  | findsRecords hmain => exact h.startFlush .main
  | findsNone hmain hempty => exact h
  | hasFlushed hmain hflushed => exact h

/-- Main has flushes left, and while it checks, its last one is over. -/
def MainRests (shutdown : Shutdown) : Prop :=
  match shutdown.mainLoop with
  | .checking flushes _ =>
    flushes < MainLoop.maxFlushes ∧ ∀ kind, shutdown.progress .main kind = .done
  | .flushing flushes => flushes < MainLoop.maxFlushes
  | .left _ => True

/-- The queues that main has found empty since its last flush are drained. -/
def MainIsRight (shutdown : Shutdown) : Prop :=
  match shutdown.mainLoop with
  | .checking _ unread => ∀ kind ∉ unread, shutdown.Drained kind
  | .flushing _ => True
  | .left flushes => flushes ≠ MainLoop.maxFlushes → ∀ kind, shutdown.Drained kind

/-- The queue that main reads in a step. -/
def reading (shutdown : Shutdown) : ShutdownEvent F → Option QueueKind
  | .mainReads =>
    match shutdown.mainLoop with
    | .checking _ unread => unread.head?
    | _ => none
  | _ => none

/-- Where main reads a queue and finds it empty, the scheduler has no batch of it. -/
def ReadsClear (shutdown : Shutdown) (event : ShutdownEvent F) : Prop :=
  ∀ kind ∈ shutdown.reading event, kind.isNotEmpty (shutdown.queues kind) = false →
    (shutdown.progress .scheduler kind).IsClear kind.len

instance (shutdown : Shutdown) (event : ShutdownEvent F) : Decidable (shutdown.ReadsClear event) :=
  inferInstanceAs (Decidable (∀ kind ∈ _, _ → _))

/-- A task whose flush is over does nothing at the queues. -/
lemma progress_setProgress_done {progress : Progress kind'.Taken} (hdone : task = task' →
    kind = kind' → progress = .done) (h : shutdown.progress task kind = .done) :
    (shutdown.setProgress task' kind' progress).progress task kind = .done := by
  by_cases hsame : task = task' ∧ kind = kind'
  · obtain ⟨rfl, rfl⟩ := hsame
    rw [progress_setProgress_self]
    exact hdone rfl rfl
  · rw [progress_setProgress_of_ne (not_and_or.mp hsame)]
    exact h

/-- Steps at the queues leave main alone where it rests. -/
lemma MainRests.of_progress {shutdown' : Shutdown} (h : shutdown.MainRests)
    (hloop : shutdown'.mainLoop = shutdown.mainLoop)
    (hprogress : ∀ kind, shutdown.progress .main kind = .done →
      shutdown'.progress .main kind = .done) : shutdown'.MainRests := by
  unfold MainRests at h ⊢
  rw [hloop]
  cases hmain : shutdown.mainLoop with
  | checking flushes unread =>
    rw [hmain] at h
    exact ⟨h.1, fun kind => hprogress kind (h.2 kind)⟩
  | flushing flushes =>
    rw [hmain] at h
    exact h
  | left flushes => trivial

lemma MainRests.moves (h : shutdown.MainRests) {event : ShutdownEvent F} {shutdown' : Shutdown}
    (hmoves : shutdown.Moves event shutdown') : shutdown'.MainRests := by
  cases hmoves with
  | rests _ => exact h
  | schedulerFlushes => exact h.of_progress rfl fun kind hdone => hdone
  | takeBatches config hprogress =>
    refine h.of_progress rfl fun kind' hdone => progress_setProgress_done ?_ hdone
    rintro rfl rfl
    -- a flush that is over does not start by itself
    have hnot := hprogress.symm.trans hdone
    simp [Progress.done] at hnot
  | finish task kind index succeeded =>
    refine h.of_progress rfl fun kind' hdone => progress_setProgress_done ?_ hdone
    rintro rfl rfl
    rw [hdone]
    rfl
  | upsertBatch hprogress =>
    refine h.of_progress rfl fun kind' hdone => progress_setProgress_done ?_ hdone
    rintro rfl rfl
    have hnot := hprogress.symm.trans hdone
    simp [Progress.done] at hnot
  | findsRecords hmain =>
    unfold MainRests at h
    rw [hmain] at h
    exact h.1
  | @findsNone flushes kind unread hmain hempty =>
    unfold MainRests at h
    rw [hmain] at h
    cases unread with
    | nil => trivial
    | cons kind unread => exact h
  | @hasFlushed flushes hmain hflushed =>
    unfold MainRests MainLoop.check
    by_cases hlt : flushes + 1 < MainLoop.maxFlushes
    · simp only [if_pos hlt]
      refine ⟨hlt, fun kind => ?_⟩
      exact Progress.eq_done (List.all_eq_true.mp hflushed kind kind.mem_all)
    · simp only [if_neg hlt]

/-- What has been drained stays so while main is where it is. -/
lemma MainIsRight.of_mainLoop (h : shutdown.MainIsRight) {shutdown' : Shutdown}
    (hloop : shutdown'.mainLoop = shutdown.mainLoop)
    (hdrained : ∀ kind, shutdown.Drained kind → shutdown'.Drained kind) : shutdown'.MainIsRight := by
  unfold MainIsRight at h ⊢
  rw [hloop]
  cases hmain : shutdown.mainLoop with
  | checking flushes unread =>
    rw [hmain] at h
    exact fun kind hread => hdrained kind (h kind hread)
  | flushing flushes => trivial
  | left flushes =>
    rw [hmain] at h
    exact fun hne kind => hdrained kind (h hne kind)

/-- A queue that main finds empty is drained, where the scheduler has no batch of it. -/
lemma drained_of_reading (hrests : shutdown.MainRests)
    (hclear : shutdown.ReadsClear (F := F) .mainReads) {flushes : ℕ} {unread : List QueueKind}
    (hmain : shutdown.mainLoop = .checking flushes (kind :: unread))
    (hempty : kind.isNotEmpty (shutdown.queues kind) = false) : shutdown.Drained kind := by
  refine ⟨hempty, fun task => ?_⟩
  cases task with
  | scheduler =>
    have hreading : kind ∈ shutdown.reading (F := F) .mainReads := by
      simp [reading, hmain]
    exact hclear kind hreading hempty
  | main =>
    unfold MainRests at hrests
    rw [hmain] at hrests
    rw [hrests.2 kind]
    exact fun batch hbatch => absurd hbatch List.not_mem_nil

lemma MainIsRight.moves (h : shutdown.MainIsRight) (hrests : shutdown.MainRests)
    {event : ShutdownEvent F} (hclear : shutdown.ReadsClear event) {shutdown' : Shutdown}
    (hmoves : shutdown.Moves event shutdown') : shutdown'.MainIsRight := by
  have hkeep (kind : QueueKind) (hdrained : shutdown.Drained kind) : shutdown'.Drained kind :=
    hdrained.moves hmoves
  cases hmoves with
  | rests _ => exact h
  | schedulerFlushes => exact h.of_mainLoop rfl hkeep
  | takeBatches config hprogress => exact h.of_mainLoop rfl hkeep
  | finish task kind index succeeded => exact h.of_mainLoop rfl hkeep
  | upsertBatch hprogress => exact h.of_mainLoop rfl hkeep
  | findsRecords hmain => trivial
  | @findsNone flushes kind unread hmain hempty =>
    have hread : shutdown.Drained kind := drained_of_reading hrests hclear hmain hempty
    unfold MainIsRight at h
    rw [hmain] at h
    have hdrained (kind' : QueueKind) (hunread : kind' ∉ unread) : shutdown.Drained kind' := by
      by_cases hkind : kind' = kind
      · rw [hkind]
        exact hread
      · exact h kind' (List.not_mem_cons_of_ne_of_not_mem hkind hunread)
    cases unread with
    | nil => exact fun _ kind' => hdrained kind' List.not_mem_nil
    | cons next unread => exact hdrained
  | @hasFlushed flushes hmain hflushed =>
    unfold MainIsRight MainLoop.check
    by_cases hlt : flushes + 1 < MainLoop.maxFlushes
    · simp only [if_pos hlt]
      exact fun kind hread => absurd kind.mem_all hread
    · -- main gives up
      unfold MainRests at hrests
      rw [hmain] at hrests
      simp only [if_neg hlt]
      exact fun hne => absurd (by omega) hne

end Shutdown

/-- From main's last check on, each queue that main finds empty has no batch with the scheduler. Then a
shutdown that is reported as successful has flushed everything. -/
theorem shutdown_flushes_all (queues : Queues) (scheduler : (kind : QueueKind) → Progress kind.Taken)
    (earlier check : List (ShutdownEvent F)) (flushes : ℕ)
    (hcheck : (run Shutdown.step (Shutdown.start queues scheduler) earlier).mainLoop =
      .checking flushes QueueKind.all)
    (hclear : Along Shutdown.step Shutdown.ReadsClear
      (run Shutdown.step (Shutdown.start queues scheduler) earlier) check)
    (hsucceeded : (run Shutdown.step (Shutdown.start queues scheduler)
      (earlier ++ check)).mainLoop.hasSucceeded = true) (kind : QueueKind) :
    (run Shutdown.step (Shutdown.start queues scheduler) (earlier ++ check)).Drained kind := by
  have hstart : (Shutdown.start queues scheduler).MainRests := ⟨by decide, fun _ => rfl⟩
  have hrests (shutdown : Shutdown) (events : List (ShutdownEvent F)) (h : shutdown.MainRests) :
      Always Shutdown.step Shutdown.MainRests shutdown events :=
    (Along.of_forall (fun _ _ => trivial) shutdown events).invariant
      (fun shutdown event _ h => Shutdown.MainRests.moves h (shutdown.moves_step event)) h
  rw [run_append] at hsucceeded ⊢
  generalize hs : run Shutdown.step (Shutdown.start queues scheduler) earlier = shutdown
    at hcheck hclear hsucceeded ⊢
  have hmain : shutdown.MainRests := by
    rw [← hs]
    exact (hrests _ earlier hstart).last
  have hright : shutdown.MainIsRight := by
    unfold Shutdown.MainIsRight
    rw [hcheck]
    exact fun kind hread => absurd kind.mem_all hread
  have hlast := (((hrests shutdown check hmain).along.and hclear).invariant
    (P := Shutdown.MainIsRight)
    (fun shutdown event hstep h => h.moves hstep.1.1 hstep.2 (shutdown.moves_step event)) hright).last
  unfold Shutdown.MainIsRight at hlast
  unfold MainLoop.hasSucceeded at hsucceeded
  split at hsucceeded
  · next flushes hleft =>
    rw [hleft] at hlast
    exact hlast (of_decide_eq_true hsucceeded) kind
  · simp at hsucceeded

namespace Sample

/-- The credit of a user is waiting. -/
def shutdownQueues : Queues :=
  { Queues.new with users := Queues.new.users.upsert ⟨1⟩ ⟨5, 0⟩ }

def mainTakes : List (ShutdownEvent ℝ) :=
  QueueKind.all.map fun kind => .takeBatches .main kind config

/-- Main has an announce to flush while the scheduler has the credit, whose statement fails. Main then
finds it back in its queue. -/
def shutdownEarlier : List (ShutdownEvent ℝ) :=
  [.takeBatches .scheduler .users config, .mainReads] ++ mainTakes ++
    [.finish .scheduler .users 0 false, .upsertBatch .scheduler .users,
      .finish .main .announces 0 true, .mainGoesOn] ++
    List.replicate 5 .mainReads ++ mainTakes ++ [.finish .main .users 0 true, .mainGoesOn]

def announceUpdate : AnnounceUpdate where
  userId := 1
  torrentId := 1
  uploaded := 0
  downloaded := 0
  left := 0
  corrupt := none
  peerId := peerId 1
  port := 51413
  numwant := 15
  createdAt := time 0
  event := .empty
  key := none

end Sample

theorem shutdown_flushes_all_sample :
    (run Shutdown.step (Shutdown.start
        { Sample.shutdownQueues with announces := [Sample.announceUpdate] } fun _ => .starting)
      (Sample.shutdownEarlier ++ List.replicate 6 .mainReads)).Drained .users :=
  shutdown_flushes_all _ _ Sample.shutdownEarlier (List.replicate 6 .mainReads) 2
    (by decide +kernel) (by decide +kernel) (by decide +kernel) .users

/-- Main looks at the queues while the scheduler is writing the credit. -/
theorem shutdown_leaves_batch :
    ¬ ∀ queues scheduler (events : List (ShutdownEvent ℝ)),
      (run Shutdown.step (Shutdown.start queues scheduler) events).mainLoop.hasSucceeded = true →
        ∀ kind, (run Shutdown.step (Shutdown.start queues scheduler) events).Drained kind := by
  intro h
  have hdrained := h Sample.shutdownQueues (fun _ => .starting)
    (.takeBatches .scheduler .users Sample.config :: List.replicate 6 .mainReads)
    (by decide +kernel) .users
  have hclear := hdrained.2 .scheduler
  revert hclear
  decide +kernel

end Unit3dAnnounce
