import Mathlib.Algebra.BigOperators.Pi
import Unit3dAnnounce.Model.Sample
import Unit3dAnnounce.Proofs.Counters
import Unit3dAnnounce.Proofs.Phases

/-!
# The counters of users under concurrency

An announce changes the peers in one section and the counters of its user in a later one. In between
its delta is pending, and the counters are right up to the pending deltas, however the sections of
several announces are interleaved. Saturation is all that can break this.
-/

namespace Unit3dAnnounce

open Machine

variable {F ι : Type}

/-- What the users section of an announce is still to add to a counter. -/
def Phase.pendingDelta (kind : ListKind) (userId : UInt32) : Phase F → ℤ
  | .accepted a => if a.userId = userId then a.change.delta kind else 0
  | _ => 0

lemma Phase.pendingDelta_accepted (kind : ListKind) (userId : UInt32) (a : Accepted F) :
    (Phase.accepted a).pendingDelta kind userId =
      if a.userId = userId then a.change.delta kind else 0 := rfl

lemma Phase.pendingDelta_updated (kind : ListKind) (userId : UInt32) (a : Accepted F) :
    (Phase.updated a).pendingDelta kind userId = 0 := rfl

lemma Phase.pendingDelta_looking (kind : ListKind) (userId : UInt32) :
    (Phase.looking : Phase F).pendingDelta kind userId = 0 := rfl

lemma Accepted.change_delta_eq_zero {a : Accepted F} (h : a.touchesUser = false) (kind : ListKind) :
    a.change.delta kind = 0 := by
  simp only [Accepted.touchesUser, Bool.or_eq_false_iff, decide_eq_false_iff_not, not_not] at h
  cases kind with
  | seed => exact h.1.1.1
  | leech => exact h.1.1.2

lemma sum_update_phase [Fintype ι] [DecidableEq ι] (phase : ι → Phase F) (i : ι) (phase' : Phase F)
    (f : Phase F → ℤ) :
    ∑ j, f (Function.update phase i phase' j) = ∑ j, f (phase j) - f (phase i) + f phase' := by
  have hcomp : (fun j => f (Function.update phase i phase' j)) =
      Function.update (fun j => f (phase j)) i (f phase') := by
    funext j
    by_cases hj : j = i
    · subst hj
      simp only [Function.update_self]
    · simp only [Function.update_of_ne hj]
  have hsum := Finset.add_sum_erase Finset.univ (fun j => f (phase j)) (Finset.mem_univ i)
  rw [hcomp, Finset.sum_update_of_mem (Finset.mem_univ i), Finset.sdiff_singleton_eq_erase]
  omega

section Serve

variable [RateField F]

/-- The additions that the next section of an announce makes to the counters of its user. What the
announce would return on its own is what it is going to return. -/
def userAdditions (world : World LockSection (AppState F)
    (fun _ : ι => Except AnnounceError (Accepted F))) (i : ι) : List Addition :=
  match (world.handlers i).label?, ((world.handlers i).run world.state).2 with
  | some (.updateUser userId), .ok a =>
    (world.state.stores.users.get? userId).elim [] fun user =>
      additionsTo (fun kind => user.counter kind) (fun kind => a.change.delta kind)
  | _, _ => []

/-- The next section of an announce does not saturate a counter of its user. -/
def AddsExactly (world : World LockSection (AppState F)
    (fun _ : ι => Except AnnounceError (Accepted F))) (i : ι) : Prop :=
  ∀ addition ∈ userAdditions world i, addition.IsExact

instance (world : World LockSection (AppState F)
    (fun _ : ι => Except AnnounceError (Accepted F))) (i : ι) : Decidable (AddsExactly world i) :=
  inferInstanceAs (Decidable (∀ addition ∈ _, (_ ≤ _ ∧ _ < _)))

/-- The counters of the users, and what is pending, count the listed peers. -/
def CountsPending [Fintype ι] (config : Config F) (phase : ι → Phase F) (stores : Stores F) : Prop :=
  ∀ kind userId user, stores.users.get? userId = some user →
    ((user.counter kind).toNat : ℤ) + ∑ i, (phase i).pendingDelta kind userId =
      stores.torrents.listedOf config kind userId

lemma User.counter_updateUser (a : Accepted F) (env : Env F) (user : User F) (kind : ListKind) :
    (a.updateUser env user).counter kind =
      saturatingAddSigned (user.counter kind) (a.change.delta kind) := by
  cases kind <;> rfl

variable [Fintype ι] [DecidableEq ι] {config : Config F} {announces : ι → AnnounceCall F}
  {phase : ι → Phase F} {i : ι} {label : LockSection} {state state' : AppState F} {phase' : Phase F}

/-- The users section moves its delta from what is pending to the counter. -/
lemma CountsPending.update (h : CountsPending config phase state.stores) {a : Accepted F}
    (hphase : phase i = .accepted a)
    (hexact : ∀ kind user, state.stores.users.get? a.userId = some user →
      (⟨user.counter kind, a.change.delta kind⟩ : Addition).IsExact) :
    CountsPending config (Function.update phase i (.updated a))
      ((announces i).updateUser a state).stores := by
  intro kind userId user' huser'
  simp only [AnnounceCall.updateUser, IndexMap.get?_modify] at huser'
  rw [sum_update_phase phase i (.updated a) (Phase.pendingDelta kind userId), hphase,
    Phase.pendingDelta_accepted, Phase.pendingDelta_updated]
  simp only [AnnounceCall.updateUser]
  by_cases hid : userId = a.userId
  · subst hid
    rw [if_pos rfl, Option.map_eq_some_iff] at huser'
    obtain ⟨user, huser, rfl⟩ := huser'
    obtain ⟨hlower, hupper⟩ := hexact kind user huser
    have hcount := h kind a.userId user huser
    have hsum : ((saturatingAddSigned (user.counter kind) (a.change.delta kind)).toNat : ℤ) =
        (user.counter kind).toNat + a.change.delta kind := by
      simp only at hlower hupper
      rw [toNat_saturatingAddSigned]
      omega
    rw [User.counter_updateUser, hsum, if_pos rfl]
    omega
  · rw [if_neg hid] at huser'
    rw [if_neg fun heq => hid heq.symm]
    have hcount := h kind userId user' huser'
    omega

/-- Every section keeps the counters right up to what is pending, as long as none saturates. -/
lemma CountsPending.step (h : CountsPending config phase state.stores)
    (hconfig : (announces i).config = config)
    (hadvances : (announces i).Advances (phase i) label state state' phase')
    (hexact : ∀ a, phase i = .accepted a → label = .updateUser a.userId → ∀ kind user,
      state.stores.users.get? a.userId = some user →
        (⟨user.counter kind, a.change.delta kind⟩ : Addition).IsExact) :
    CountsPending config (Function.update phase i phase') state'.stores := by
  have same (husers : state'.stores.users = state.stores.users)
      (htorrents : state'.stores.torrents = state.stores.torrents)
      (hpending : ∀ kind userId, phase'.pendingDelta kind userId =
        (phase i).pendingDelta kind userId) :
      CountsPending config (Function.update phase i phase') state'.stores := by
    intro kind userId user huser
    rw [husers] at huser
    have hcount := h kind userId user huser
    rw [sum_update_phase phase i phase' (Phase.pendingDelta kind userId), hpending, htorrents]
    omega
  generalize hphase : phase i = p at *
  cases hadvances with
  | still hstill => exact same hstill.users hstill.torrents fun _ _ => rfl
  | refuse hstores hpeers => exact same (by rw [hstores]) (by rw [hstores]) fun _ _ => rfl
  | @accept _ torrent torrent' a hsection =>
    intro kind userId user huser
    rw [hconfig] at hsection
    have hcount := h kind userId user huser
    have hlisted := hsection.storeListedOf kind userId
    rw [sum_update_phase phase i (.accepted a) (Phase.pendingDelta kind userId), hphase,
      Phase.pendingDelta_looking, Phase.pendingDelta_accepted]
    dsimp only
    omega
  | update state htouches => exact h.update hphase (hexact _ rfl rfl)
  | queue state hqueue =>
    apply same rfl rfl
    intro kind userId
    rcases hqueue with rfl | ⟨rfl, htouches⟩
    · rfl
    · simp only [Phase.pendingDelta, Accepted.change_delta_eq_zero htouches, ite_self]

/-- The world after a section, where every announce is in its phase. -/
lemma CountsPending.of_world {world : World LockSection (AppState F)
    (fun _ : ι => Except AnnounceError (Accepted F))} (hconfig : ∀ i, (announces i).config = config)
    (hphases : InPhases announces phase world) (h : CountsPending config phase world.state.stores)
    (hexact : AddsExactly world i) :
    ∃ phase, InPhases announces phase (world.step i) ∧
      CountsPending config phase (world.step i).state.stores := by
  rcases hphases.step i with ⟨-, hsame⟩ | ⟨label, phase', hlabel, hadvances, hnext⟩
  · rw [hsame]
    exact ⟨phase, hphases, h⟩
  · refine ⟨_, hnext, h.step (hconfig i) hadvances ?_⟩
    rintro a hphase rfl kind user huser
    have hin := hphases i
    rw [hphase] at hin
    obtain ⟨a', hresult, ha'⟩ := hin.run rfl world.state
    have hchange : a'.change = a.change := congrArg (fun a => a.change) ha'
    apply hexact
    simp only [userAdditions, hlabel, hresult, huser, Option.elim_some, hchange]
    cases kind <;> simp [additionsTo]

/-- As long as no users section saturates a counter, the counters of every user count their listed peers
once all announces have finished, in whatever order their sections came. -/
theorem user_counters_kept (config : Config F) (announces : ι → AnnounceCall F) (state : AppState F)
    (schedule : List ι) (hconfig : ∀ i, (announces i).config = config)
    (hagree : ∀ kind userId, UserAgrees config kind userId state.stores)
    (hexact : Along World.step AddsExactly (serveAnnounces announces state) schedule)
    (hfinished : ∀ i, (((run World.step (serveAnnounces announces state) schedule).handlers
      i).result?).isSome) (kind : ListKind) (userId : UInt32) :
    UserAgrees config kind userId
      (run World.step (serveAnnounces announces state) schedule).state.stores := by
  have hstart : CountsPending config (fun _ : ι => .looking) state.stores := by
    intro kind userId user huser
    have hcount := hagree kind userId user huser
    simp only [Phase.pendingDelta, Finset.sum_const_zero]
    omega
  obtain ⟨phase, hphases, hcounts⟩ : ∃ phase,
      InPhases announces phase (run World.step (serveAnnounces announces state) schedule) ∧
      CountsPending config phase
        (run World.step (serveAnnounces announces state) schedule).state.stores := by
    refine (hexact.invariant (P := fun world => ∃ phase, InPhases announces phase world ∧
      CountsPending config phase world.state.stores) ?_
      ⟨_, inPhases_serveAnnounces announces state, hstart⟩).last
    rintro world i hexact ⟨phase, hphases, hcounts⟩
    exact hcounts.of_world hconfig hphases hexact
  have hnone (i : ι) : (phase i).pendingDelta kind userId = 0 := by
    obtain ⟨result, hresult⟩ := Option.isSome_iff_exists.mp (hfinished i)
    have hin := hphases i
    rw [Handler.eq_ret_of_result? hresult] at hin
    rcases hin.ret with ⟨hphase | hphase, -⟩ | ⟨a, -, hphase, -⟩
    · rw [hphase]
      rfl
    · rw [hphase]
      rfl
    · rw [hphase]
      rfl
  intro user huser
  have hcount := hcounts kind userId user huser
  rw [Finset.sum_eq_zero fun i _ => hnone i] at hcount
  omega

end Serve

namespace Sample

/-- A seeder of torrent 1 and a leecher of torrent 2, of one user. -/
def twoCalls : Bool → AnnounceCall ℝ
  | true => ⟨config, env 0, request 1 1 .started 0⟩
  | false => ⟨config, env 0, request 2 2 .started 5⟩

/-- A start and a stop of one seeder. -/
def startAndStop : Bool → AnnounceCall ℝ
  | true => ⟨config, env 0, request 1 1 .started 0⟩
  | false => ⟨config, env 60, request 1 1 .stopped 0⟩

/-- The sections of two announces by turns. -/
def alternating : List Bool := (List.replicate 20 [true, false]).flatten

/-- The stop comes whole after the torrents section of the start. -/
def overtaking : List Bool :=
  List.replicate 6 true ++ List.replicate 20 false ++ List.replicate 20 true

lemma userAgrees_state (torrents : List UInt32) (kind : ListKind) (userId : UInt32)
    (hlisted : (state none torrents).stores.torrents.listedOf config kind userId = 0) :
    UserAgrees config kind userId (state none torrents).stores := by
  intro user huser
  obtain ⟨rfl, rfl⟩ := IndexMap.eq_of_get?_insert_empty huser
  rw [hlisted]
  cases kind <;> rfl

end Sample

theorem user_counters_kept_sample :
    UserAgrees Sample.config .seed 1
      (run World.step (serveAnnounces Sample.twoCalls (Sample.state none [1, 2]))
        Sample.alternating).state.stores := by
  refine user_counters_kept Sample.config Sample.twoCalls (Sample.state none [1, 2])
    Sample.alternating (fun i => ?_) (fun kind userId => Sample.userAgrees_state [1, 2] kind userId ?_)
    (by decide +kernel) (by decide +kernel) .seed 1
  · cases i <;> rfl
  · cases kind <;> rfl

/-- The delta of the stop saturates before that of the start is added. -/
theorem user_counters_drift :
    ¬ ∀ (config : Config ℝ) (announces : Bool → AnnounceCall ℝ) state schedule,
      (∀ i, (announces i).config = config) →
      (∀ kind userId, UserAgrees config kind userId state.stores) →
      (∀ i, (((run World.step (serveAnnounces announces state) schedule).handlers
        i).result?).isSome) →
      ∀ kind userId, UserAgrees config kind userId
        (run World.step (serveAnnounces announces state) schedule).state.stores := by
  intro h
  have hagree := h Sample.config Sample.startAndStop (Sample.state none [1]) Sample.overtaking
    (fun i => by cases i <;> rfl)
    (fun kind userId => Sample.userAgrees_state [1] kind userId (by cases kind <;> rfl))
    (by decide +kernel) .seed 1
  have hdrift : ((run World.step (serveAnnounces Sample.startAndStop (Sample.state none [1]))
      Sample.overtaking).state.stores.users.get? 1).map User.numSeeding = some 1 := by
    decide +kernel
  have hnone : (run World.step (serveAnnounces Sample.startAndStop (Sample.state none [1]))
      Sample.overtaking).state.stores.torrents.listedOf Sample.config .seed 1 = 0 := by
    decide +kernel
  obtain ⟨user, huser, hcounter⟩ := Option.map_eq_some_iff.mp hdrift
  have hcount := hagree user huser
  rw [hnone, User.counter, hcounter] at hcount
  exact absurd hcount (by decide)

end Unit3dAnnounce
