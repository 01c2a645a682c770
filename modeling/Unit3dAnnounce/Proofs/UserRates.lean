import Unit3dAnnounce.Model.Sample
import Unit3dAnnounce.Proofs.Lists
import Unit3dAnnounce.Proofs.Phases

/-!
# The rates of a user under upserts

The rates of a user are in the store, or an upsert that has taken the user out carries them. No tick
and no lookup misses them as long as no other request wants the user in between.
-/

namespace Unit3dAnnounce

open Machine

variable {F : Type}

def User.rates : ListKind → User F → RateCollection F
  | .seed => User.receiveSeedListRates
  | .leech => User.receiveLeechListRates

def PeerList.hasRequested : ListKind → PeerList → Bool
  | .seed => PeerList.hasRequestedSeedList
  | .leech => PeerList.hasRequestedLeechList

section Upsert

variable (id : UInt32)

/-- A section that leaves the users alone. -/
structure UsersStill (label : LockSection) (state state' : AppState F) : Prop where
  users : state'.stores.users = state.stores.users
  ne_insert : label ≠ .insertUser id
  ne_remove : label ≠ .removeUser id

/-- Only sections that leave the users alone are left. -/
def LeavesUsers (handler : Handler LockSection (AppState F) StatusCode) : Prop :=
  handler.Guarantees (fun _ => True) (UsersStill id) fun _ => True

variable (rates : ListKind → RateCollection F)

/-- The user has these rates. -/
def HasRates (state : AppState F) : Prop :=
  ∃ user, state.stores.users.get? id = some user ∧ ∀ kind, user.rates kind = rates kind

/-- The upsert is going to put the user back with these rates in its next section. -/
def AtInsert (handler : Handler LockSection (AppState F) StatusCode) : Prop :=
  ∃ act next, handler = .lock (.insertUser id) act next ∧
    ∀ state, HasRates id rates (act state) ∧ LeavesUsers id (next state)

/-- The upsert has taken the user out, and carries these rates. -/
def CarriesRates (handler : Handler LockSection (AppState F) StatusCode) : Prop :=
  handler.Until (fun _ => True) (UsersStill id) (AtInsert id rates)

/-- The upsert is going to take the user out. -/
def AtRemove (handler : Handler LockSection (AppState F) StatusCode) : Prop :=
  ∃ act next, handler = .lock (.removeUser id) act next ∧
    ∀ state user, state.stores.users.get? id = some user →
      CarriesRates id (fun kind => user.rates kind) (next state)

variable {id}

/-- The passkeys of the request are valid. -/
def UserUpsert.IsValid (upsert : UserUpsert F) : Prop :=
  (Passkey.fromStr upsert.user.passkey).isSome ∧
    ∀ text, upsert.user.newPasskey = some text → (Passkey.fromStr text).isSome

lemma atInsert_insertUser (request : APIInsertUser) (hid : request.id = id) (passkey : Passkey)
    (user : User F) : AtInsert id (fun kind => user.rates kind) (upsertUser.insertUser request passkey
      (user.receiveSeedListRates, user.receiveLeechListRates)) := by
  subst hid
  refine ⟨_, _, rfl, fun state => ⟨⟨request.toUser passkey (user.receiveSeedListRates,
    user.receiveLeechListRates), ?_, fun kind => ?_⟩, ?_⟩⟩
  · simp only [IndexMap.get?_insert, if_true]
  · cases kind <;> rfl
  · exact fun state _ => ⟨⟨rfl, by simp, by simp⟩, trivial⟩

/-- An upsert with valid passkeys takes the user out and puts them back. -/
theorem UserUpsert.atRemove (upsert : UserUpsert F) (hid : upsert.user.id = id)
    (hvalid : upsert.IsValid) : AtRemove id upsert.handler := by
  subst hid
  obtain ⟨hpasskey, hnew⟩ := hvalid
  obtain ⟨passkey, hpasskey⟩ := Option.isSome_iff_exists.mp hpasskey
  unfold handler upsertUser
  simp only [hpasskey]
  refine ⟨_, _, rfl, fun state user huser => ?_⟩
  cases hrequest : upsert.user.newPasskey with
  | none =>
    simp only [huser]
    exact Handler.until_of_end (atInsert_insertUser upsert.user rfl passkey user)
  | some text =>
    obtain ⟨newPasskey, hnewPasskey⟩ := Option.isSome_iff_exists.mp (hnew text hrequest)
    simp only [huser, hnewPasskey]
    refine Or.inr fun state _ => ⟨⟨rfl, by simp, by simp⟩, ?_⟩
    exact Handler.until_of_end (atInsert_insertUser upsert.user rfl newPasskey user)

variable {rates : ListKind → RateCollection F}

/-- An upsert that carries the rates has the user's insertion ahead of it, their removal behind it. -/
lemma CarriesRates.labels {handler : Handler LockSection (AppState F) StatusCode}
    (h : CarriesRates id rates handler) (state : AppState F) :
    .insertUser id ∈ handler.labels state ∧ .removeUser id ∉ handler.labels state := by
  induction handler generalizing state with
  | ret result =>
    obtain ⟨act, next, hlock, -⟩ := h
    cases hlock
  | lock label act next ih =>
    rcases h with ⟨act', next', hlock, hinsert⟩ | hstill
    · rw [Handler.lock.injEq] at hlock
      obtain ⟨rfl, rfl, rfl⟩ := hlock
      refine ⟨List.mem_cons_self, List.not_mem_cons_of_ne_of_not_mem (by simp) ?_⟩
      exact (hinsert state).2.not_mem_labels (fun _ _ hstill => hstill.ne_remove rfl) (act state)
    · obtain ⟨hstill, hnext⟩ := hstill state trivial
      obtain ⟨hmem, hnot⟩ := ih state hnext (act state)
      exact ⟨List.mem_cons_of_mem label hmem,
        List.not_mem_cons_of_ne_of_not_mem (fun heq => hstill.ne_remove heq.symm) hnot⟩

end Upsert

section Serve

variable {ι κ : Type}

/-- The user has been told of a request for the list. -/
def Phase.hasTicked (kind : ListKind) (id : UInt32) : Phase F → Prop
  | .updated a | .queued a => a.userId = id ∧ a.list.hasRequested kind = true
  | _ => False

section World

variable (id : UInt32) (world : World LockSection (AppState F) (ServedResult F ι κ))

/-- The upsert has taken the user out and not put them back. -/
def HasTaken (j : κ) : Prop :=
  .insertUser id ∈ (world.handlers (.inr j)).labels world.state ∧
    .removeUser id ∉ (world.handlers (.inr j)).labels world.state

/-- No lookup, update or removal of the user while an upsert has taken them out. -/
def UserGuarded (x : ι ⊕ κ) : Prop :=
  (world.handlers x).label? ∈ [some (.lookUpUser id), some (.updateUser id), some (.removeUser id)] →
    ∀ j, ¬ HasTaken id world j

instance (j : κ) : Decidable (HasTaken id world j) := inferInstanceAs (Decidable (_ ∧ _))

instance [Fintype κ] (x : ι ⊕ κ) : Decidable (UserGuarded id world x) :=
  inferInstanceAs (Decidable (_ → _))

/-- The upsert does not have the user. -/
def Waits (handler : Handler LockSection (AppState F) StatusCode) : Prop :=
  AtRemove id handler ∨ LeavesUsers id handler

variable (rates : ListKind → RateCollection F)

/-- The rates are in the store, and no upsert has taken them out. -/
def RatesStored : Prop :=
  HasRates id rates world.state ∧ ∀ j, Waits id (world.handlers (.inr j))

/-- One upsert has taken the rates out. -/
def RatesCarried : Prop :=
  ∃ j, CarriesRates id rates (world.handlers (.inr j)) ∧
    ∀ j', j' ≠ j → Waits id (world.handlers (.inr j'))

variable [RateField F] (announces : ι → AnnounceCall F)

/-- Rates that have ticked once, in some order, for each of these announces. -/
def TickedFor (requested : ι → Prop) (base rates : RateCollection F) : Prop :=
  ∃ order : List ι, order.Nodup ∧ (∀ i, i ∈ order ↔ requested i) ∧
    rates = order.foldl (fun rates i => rates.tick (announces i).env.systemTime) base

/-- Where the announces, the upserts and the rates are. -/
structure TracksRates (base : ListKind → RateCollection F) (phase : ι → Phase F) : Prop where
  announcing : ∀ i, (announces i).InPhase (phase i) (world.handlers (.inl i))
  ticked : ∀ kind, TickedFor announces (fun i => (phase i).hasTicked kind id) (base kind) (rates kind)
  place : RatesStored id world rates ∨ RatesCarried id world rates

end World

variable {id : UInt32} {world : World LockSection (AppState F) (ServedResult F ι κ)}
  {rates base : ListKind → RateCollection F}

lemma RatesStored.of_guarded (hplace : RatesStored id world rates ∨ RatesCarried id world rates)
    (h : ∀ j, ¬ HasTaken id world j) : RatesStored id world rates := by
  rcases hplace with hstored | ⟨j, hcarries, -⟩
  · exact hstored
  · exact absurd (hcarries.labels world.state) (h j)

section Ticks

variable [RateField F] {announces : ι → AnnounceCall F}

lemma TickedFor.refl (base : RateCollection F) : TickedFor announces (fun _ => False) base base :=
  ⟨[], List.nodup_nil, by simp, rfl⟩

lemma TickedFor.congr {requested requested' : ι → Prop} {base rates : RateCollection F}
    (h : TickedFor announces requested base rates) (hiff : ∀ i, requested' i ↔ requested i) :
    TickedFor announces requested' base rates := by
  obtain ⟨order, hnodup, hmem, hrates⟩ := h
  exact ⟨order, hnodup, fun i => (hmem i).trans (hiff i).symm, hrates⟩

omit [RateField F] in
lemma Accepted.hasRequested_eq_false {a : Accepted F} (h : a.touchesUser = false) (kind : ListKind) :
    a.list.hasRequested kind = false := by
  simp only [Accepted.touchesUser, Bool.or_eq_false_iff] at h
  cases kind with
  | seed => exact h.1.2
  | leech => exact h.2

lemma User.rates_updateUser (a : Accepted F) (env : Env F) (user : User F) (kind : ListKind) :
    (a.updateUser env user).rates kind =
      if a.list.hasRequested kind then (user.rates kind).tick env.systemTime
      else user.rates kind := by
  cases kind <;> rfl

/-- One more announce ticks. -/
lemma TickedFor.tick {requested : ι → Prop} {base rates : RateCollection F}
    (h : TickedFor announces requested base rates) {i : ι} (hi : ¬ requested i) :
    TickedFor announces (fun i' => i' = i ∨ requested i') base
      (rates.tick (announces i).env.systemTime) := by
  obtain ⟨order, hnodup, hmem, rfl⟩ := h
  refine ⟨order ++ [i], ?_, fun i' => ?_, ?_⟩
  · rw [List.nodup_append]
    refine ⟨hnodup, List.nodup_singleton i, ?_⟩
    intro i' hi' i'' hi'' heq
    rw [List.mem_singleton.mp hi''] at heq
    rw [heq] at hi'
    exact hi ((hmem i).mp hi')
  · rw [List.mem_append, List.mem_singleton, hmem, or_comm]
  · rw [List.foldl_append]
    rfl

end Ticks

variable [DecidableEq ι] [DecidableEq κ]

/-- A section of an announce that leaves the rates alone. -/
lemma place_of_announce (hplace : RatesStored id world rates ∨ RatesCarried id world rates) {i : ι}
    (hrates : HasRates id rates world.state → HasRates id rates (world.step (.inl i)).state) :
    RatesStored id (world.step (.inl i)) rates ∨ RatesCarried id (world.step (.inl i)) rates := by
  have hsame (j : κ) : (world.step (.inl i)).handlers (.inr j) = world.handlers (.inr j) :=
    World.step_handlers_of_ne world (by simp)
  refine hplace.imp (fun hstored => ⟨hrates hstored.1, fun j => ?_⟩) fun hcarried => ?_
  · rw [hsame]
    exact hstored.2 j
  · obtain ⟨j, hcarries, hwaits⟩ := hcarried
    refine ⟨j, ?_, fun j' hj' => ?_⟩
    · rw [hsame]
      exact hcarries
    · rw [hsame]
      exact hwaits j' hj'

lemma waits_step {j : κ} (hnext : Waits id ((world.step (.inr j)).handlers (.inr j))) {j' : κ}
    (hwaits : j' ≠ j → Waits id (world.handlers (.inr j'))) :
    Waits id ((world.step (.inr j)).handlers (.inr j')) := by
  by_cases hj' : j' = j
  · rw [hj']
    exact hnext
  · rw [World.step_handlers_of_ne world (by simpa using hj')]
    exact hwaits hj'

/-- An upsert takes the rates out of the store, or leaves them alone. -/
lemma RatesStored.step_upsert (h : RatesStored id world rates) (j : κ) :
    RatesStored id (world.step (.inr j)) rates ∨ RatesCarried id (world.step (.inr j)) rates := by
  obtain ⟨⟨user, huser, hrates⟩, hwaits⟩ := h
  rcases hwaits j with ⟨act, next, hlock, hcarries⟩ | hleaves
  · refine Or.inr ⟨j, ?_, fun j' hj' => ?_⟩
    · rw [World.step_handlers_self hlock, ← funext hrates]
      exact hcarries world.state user huser
    · rw [World.step_handlers_of_ne world (by simpa using hj')]
      exact hwaits j'
  · cases hlock : world.handlers (.inr j) with
    | ret result =>
      rw [World.step_of_ret hlock]
      exact Or.inl ⟨⟨user, huser, hrates⟩, hwaits⟩
    | lock label act next =>
      rw [hlock] at hleaves
      obtain ⟨hstill, hnext⟩ := hleaves world.state trivial
      rw [← World.step_state_of_lock hlock] at hstill
      rw [← World.step_handlers_self hlock] at hnext
      refine Or.inl ⟨⟨user, ?_, hrates⟩, fun j' => waits_step (Or.inr hnext) fun _ => hwaits j'⟩
      rw [hstill.users, huser]

/-- The upsert that carries the rates puts them back, and no other one takes the user out before. -/
lemma RatesCarried.step_upsert (h : RatesCarried id world rates) {j : κ}
    (hguard : UserGuarded id world (.inr j)) :
    RatesStored id (world.step (.inr j)) rates ∨ RatesCarried id (world.step (.inr j)) rates := by
  obtain ⟨j₀, hcarries, hwaits⟩ := h
  cases hlock : world.handlers (.inr j) with
  | ret result =>
    rw [World.step_of_ret hlock]
    exact Or.inr ⟨j₀, hcarries, hwaits⟩
  | lock label act next =>
    have hself := World.step_handlers_self hlock
    by_cases hj : j = j₀
    · subst hj
      rw [hlock] at hcarries
      rcases hcarries with ⟨act', next', hlock', hinsert⟩ | hstill
      · rw [Handler.lock.injEq] at hlock'
        obtain ⟨rfl, rfl, rfl⟩ := hlock'
        obtain ⟨hrates, hleaves⟩ := hinsert world.state
        rw [← World.step_state_of_lock hlock] at hrates
        rw [← hself] at hleaves
        exact Or.inl ⟨hrates, fun j' => waits_step (Or.inr hleaves) (hwaits j')⟩
      · obtain ⟨-, hnext⟩ := hstill world.state trivial
        rw [← hself] at hnext
        refine Or.inr ⟨j, hnext, fun j' hj' => ?_⟩
        rw [World.step_handlers_of_ne world (by simpa using hj')]
        exact hwaits j' hj'
    · rcases hwaits j hj with ⟨act', next', hremove, -⟩ | hleaves
      · refine absurd (hcarries.labels world.state) (hguard ?_ j₀)
        rw [hremove]
        simp [Handler.label?]
      · rw [hlock] at hleaves
        obtain ⟨-, hnext⟩ := hleaves world.state trivial
        rw [← hself] at hnext
        have hj₀ : j₀ ≠ j := fun heq => hj heq.symm
        refine Or.inr ⟨j₀, ?_, fun j' hj' => waits_step (Or.inr hnext) fun _ => hwaits j' hj'⟩
        rw [World.step_handlers_of_ne world (by simpa using hj₀)]
        exact hcarries

variable [RateField F] {announces : ι → AnnounceCall F} {phase : ι → Phase F}

/-- What is to be shown of a section of an announce. -/
lemma TracksRates.of_announce {rates' : ListKind → RateCollection F}
    (h : TracksRates id world rates announces base phase) {i : ι} {phase' : Phase F}
    (hphase : (announces i).InPhase phase' ((world.step (.inl i)).handlers (.inl i)))
    (hticked : ∀ kind, TickedFor announces
      (fun i' => (Function.update phase i phase' i').hasTicked kind id) (base kind) (rates' kind))
    (hplace : RatesStored id (world.step (.inl i)) rates' ∨
      RatesCarried id (world.step (.inl i)) rates') :
    TracksRates id (world.step (.inl i)) rates' announces base (Function.update phase i phase') where
  announcing i' := by
    by_cases hi : i' = i
    · subst hi
      rw [Function.update_self]
      exact hphase
    · rw [Function.update_of_ne hi, World.step_handlers_of_ne world (by simpa using hi)]
      exact h.announcing i'
  ticked := hticked
  place := hplace

omit [RateField F] in
lemma hasTicked_update {kind : ListKind} {i i' : ι} {phase' : Phase F}
    (h : phase'.hasTicked kind id ↔ (phase i).hasTicked kind id) :
    (Function.update phase i phase' i').hasTicked kind id ↔ (phase i').hasTicked kind id := by
  by_cases hi : i' = i
  · subst hi
    rw [Function.update_self]
    exact h
  · rw [Function.update_of_ne hi]

/-- The users section of an announce of the user, which finds the rates in the store. -/
lemma TracksRates.update (h : TracksRates id world rates announces base phase) {i : ι}
    {a : Accepted F} (hphase : phase i = .accepted a) (hid : a.userId = id)
    (hnext : (announces i).InPhase (.updated a) ((world.step (.inl i)).handlers (.inl i)))
    (hstate : (world.step (.inl i)).state = (announces i).updateUser a world.state)
    (hstored : RatesStored id world rates) :
    TracksRates id (world.step (.inl i))
      (fun kind => if a.list.hasRequested kind then
        (rates kind).tick (announces i).env.systemTime else rates kind)
      announces base (Function.update phase i (.updated a)) := by
  obtain ⟨⟨user, huser, hrates⟩, hwaits⟩ := hstored
  refine h.of_announce hnext (fun kind => ?_) (Or.inl ⟨⟨a.updateUser (announces i).env user, ?_,
    fun kind => ?_⟩, fun j => ?_⟩)
  · cases hrequested : a.list.hasRequested kind with
    | true =>
      have hnot : ¬ (phase i).hasTicked kind id := by
        rw [hphase]
        exact fun hfalse => hfalse
      refine ((h.ticked kind).tick hnot).congr fun i' => ?_
      by_cases hi : i' = i
      · subst hi
        rw [Function.update_self]
        exact iff_of_true ⟨hid, hrequested⟩ (Or.inl rfl)
      · rw [Function.update_of_ne hi]
        exact ⟨Or.inr, fun hor => hor.resolve_left hi⟩
    | false =>
      refine (h.ticked kind).congr fun i' => hasTicked_update ?_
      rw [hphase]
      exact iff_of_false (fun hticked => absurd hticked.2 (by simp [hrequested])) fun hfalse => hfalse
  · simp only [hstate, AnnounceCall.updateUser, IndexMap.get?_modify, hid, if_true, huser,
      Option.map_some]
  · rw [User.rates_updateUser, hrates]
  · rw [World.step_handlers_of_ne world (by simp)]
    exact hwaits j

lemma TracksRates.step_announce (h : TracksRates id world rates announces base phase) {i : ι}
    (hguard : UserGuarded id world (.inl i)) :
    ∃ rates phase, TracksRates id (world.step (.inl i)) rates announces base phase := by
  cases hlock : world.handlers (.inl i) with
  | ret result =>
    rw [World.step_of_ret hlock]
    exact ⟨rates, phase, h⟩
  | lock label act next =>
    have hin := h.announcing i
    rw [hlock] at hin
    obtain ⟨phase', hnext, hadvances⟩ := hin.step world.state
    have hstate := World.step_state_of_lock hlock
    rw [← World.step_handlers_self hlock] at hnext
    rw [← hstate] at hadvances
    have keeps (husers : (world.step (.inl i)).state.stores.users.get? id =
        world.state.stores.users.get? id)
        (hticked : ∀ kind, phase'.hasTicked kind id ↔ (phase i).hasTicked kind id) :
        ∃ rates phase, TracksRates id (world.step (.inl i)) rates announces base phase := by
      refine ⟨rates, Function.update phase i phase', h.of_announce hnext
        (fun kind => (h.ticked kind).congr fun i' => hasTicked_update (hticked kind))
        (place_of_announce h.place fun hrates => ?_)⟩
      unfold HasRates
      rw [husers]
      exact hrates
    generalize hphase : phase i = p at *
    generalize hafter : (world.step (.inl i)).state = state' at *
    cases hadvances with
    | still hstill => exact keeps (by rw [hstill.users]) fun _ => Iff.rfl
    | refuse hstores hpeers => exact keeps (by rw [hstores]) fun _ => Iff.rfl
    | accept hsection => exact keeps rfl fun _ => Iff.rfl
    | @update a _ htouches =>
      by_cases hid : a.userId = id
      · have hnone := hguard (by rw [hlock]; simp [Handler.label?, hid])
        exact ⟨_, _, h.update hphase hid hnext hafter (RatesStored.of_guarded h.place hnone)⟩
      · refine keeps ?_ fun _ => iff_of_false (fun hticked => hid hticked.1) fun hfalse => hfalse
        simp only [AnnounceCall.updateUser, IndexMap.get?_modify,
          if_neg fun heq : id = a.userId => hid heq.symm]
    | @queue a _ _ hqueue =>
      refine keeps rfl fun kind => ?_
      rcases hqueue with rfl | ⟨rfl, htouches⟩
      · exact Iff.rfl
      · refine iff_of_false (fun hticked => ?_) fun hfalse => hfalse
        exact absurd hticked.2 (by simp [Accepted.hasRequested_eq_false htouches])

lemma TracksRates.step (h : TracksRates id world rates announces base phase) {x : ι ⊕ κ}
    (hguard : UserGuarded id world x) :
    ∃ rates phase, TracksRates id (world.step x) rates announces base phase := by
  cases x with
  | inl i => exact h.step_announce hguard
  | inr j =>
    refine ⟨rates, phase, fun i => ?_, h.ticked,
      h.place.elim (fun hstored => hstored.step_upsert j) fun hcarried => hcarried.step_upsert hguard⟩
    rw [World.step_handlers_of_ne world (by simp)]
    exact h.announcing i

end Serve

section LookUp

/-- The passkey of the announce is mapped to the user. -/
def AnnounceCall.MapsToUser (call : AnnounceCall F) (id : UInt32) (state : AppState F) : Prop :=
  ∃ passkey, Passkey.fromStr call.request.passkey = some passkey ∧
    state.stores.passkey2id.get? passkey = some id

/-- The announce does not miss its user. -/
def FindsUser (handler : Handler LockSection (AppState F) (Except AnnounceError (Accepted F))) : Prop :=
  handler.Guarantees (fun _ => True) (fun _ _ _ => True) fun result => result ≠ .error .userNotFound

variable (id : UInt32)

/-- The user is looked up in the next section. -/
def AtLookUp (handler : Handler LockSection (AppState F) (Except AnnounceError (Accepted F))) : Prop :=
  ∃ next, handler = .lock (.lookUpUser id) (fun state => state) next ∧
    ∀ state, state.stores.users.get? id ≠ none → FindsUser (next state)

variable [RateField F] (call : AnnounceCall F)

/-- An announce before it looks up its user, as long as its passkey is mapped to them. -/
def AnnounceCall.LooksForUser
    (handler : Handler LockSection (AppState F) (Except AnnounceError (Accepted F))) : Prop :=
  handler.Until (call.MapsToUser id) (fun _ _ _ => True)
    fun handler => AtLookUp id handler ∨ FindsUser handler

/-- An announce looks up the user to whom its passkey is mapped. -/
theorem AnnounceCall.looksForUser_handler : call.LooksForUser id call.handler := by
  unfold AnnounceCall.LooksForUser AnnounceCall.handler announce
  refine Handler.Guarantees.bind_until ((validate_guarantees call.request).mono
    (fun _ _ _ _ => trivial) fun _ h => h) fun validated hvalidated => ?_
  cases validated with
  | error e =>
    refine Handler.until_of_end (Or.inr (Handler.guarantees_pure ?_))
    intro he
    rw [Except.error.injEq] at he
    exact hvalidated.ne_userNotFound (by rw [he])
  | ok validated =>
    obtain ⟨userAgent, passkey⟩ := validated
    have hpasskey := hvalidated.passkey userAgent passkey rfl
    refine Handler.Guarantees.bind_until (Q := fun userId => userId = .ok id)
      (Handler.guarantees_read fun state hmaps => ⟨trivial, ?_⟩) fun userId huserId => ?_
    · obtain ⟨passkey', hpasskey', hmapped⟩ := hmaps
      rw [hpasskey, Option.some_inj] at hpasskey'
      subst hpasskey'
      simp only [hmapped]
    · subst huserId
      refine Handler.until_of_end (Or.inl ⟨_, rfl, fun state hstored => ?_⟩)
      obtain ⟨user, huser⟩ := Option.ne_none_iff_exists'.mp hstored
      simp only [huser]
      refine Handler.Guarantees.bind (Q := fun user' => user' = .ok user)
        (Handler.guarantees_pure rfl) fun user' huser' => ?_
      subst huser'
      refine Handler.Guarantees.bind (Q := fun torrentId => torrentId ≠ .error .userNotFound)
        (Handler.guarantees_read fun state _ => ⟨trivial, ?_⟩) fun torrentId htorrentId => ?_
      · cases state.stores.infohash2id.get? call.request.queries.infoHash <;> simp
      · cases torrentId with
        | error e =>
          refine Handler.Guarantees.bind (Handler.guarantees_trivial _) fun _ _ => ?_
          refine Handler.guarantees_pure fun he => htorrentId ?_
          rw [Except.error.injEq] at he
          rw [he]
        | ok torrentId =>
          refine Handler.Guarantees.bind (Handler.guarantees_trivial _) fun isConnectable _ => ?_
          refine Handler.Guarantees.bind (Q := fun result => result ≠ .error .userNotFound)
            (fun state _ => ⟨trivial, fun he => ?_⟩) fun result hresult => ?_
          · rcases announceTorrent_error_kind (Prod.ext rfl he) with ⟨-, he⟩ | he | he | ⟨-, he⟩
            · cases he
            · cases he
            · cases he
            · exact he rfl
          · cases result with
            | error e =>
              refine Handler.guarantees_pure fun he => hresult ?_
              rw [Except.error.injEq] at he
              rw [he]
            | ok result =>
              refine Handler.Guarantees.bind (Handler.guarantees_trivial _) fun accepted _ => ?_
              refine Handler.Guarantees.bind (Handler.guarantees_trivial _) fun _ _ => ?_
              exact Handler.guarantees_pure (by simp)

end LookUp

section Runs

variable {ι κ : Type} [RateField F]

/-- Once all have finished, the rates of the user are the old ones, ticked once for each announce that
has requested the list. -/
def KeepsRates (announces : ι → AnnounceCall F) (id : UInt32) (user : User F)
    (world : World LockSection (AppState F) (ServedResult F ι κ)) : Prop :=
  (∀ x, ((world.handlers x).result?).isSome) →
    ∃ user', world.state.stores.users.get? id = some user' ∧ ∀ kind, TickedFor announces
      (fun i => ∃ a, world.handlers (.inl i) = .ret (.ok a) ∧ a.userId = id ∧
        a.list.hasRequested kind = true) (user.rates kind) (user'.rates kind)

variable {announces : ι → AnnounceCall F} {id : UInt32} {user : User F}
  {world : World LockSection (AppState F) (ServedResult F ι κ)}
  {rates base : ListKind → RateCollection F} {phase : ι → Phase F}

lemma tracksRates_serveUsers {upserts : κ → UserUpsert F} {state : AppState F}
    (hstored : state.stores.users.get? id = some user)
    (hupserts : ∀ j, (upserts j).user.id = id ∧ (upserts j).IsValid) :
    TracksRates id (serveUsers announces upserts state) (fun kind => user.rates kind) announces
      (fun kind => user.rates kind) (fun _ => .looking) where
  announcing _ := AnnounceCall.inPhase_handler
  ticked _ := (TickedFor.refl _).congr fun _ => Iff.rfl
  place := Or.inl ⟨⟨user, hstored, fun _ => rfl⟩, fun j =>
    Or.inl ((upserts j).atRemove (hupserts j).1 (hupserts j).2)⟩

lemma TracksRates.keepsRates
    (h : TracksRates id world rates announces (fun kind => user.rates kind) phase) :
    KeepsRates announces id user world := by
  intro hfinished
  have hrates : HasRates id rates world.state := by
    rcases h.place with hstored | ⟨j, hcarries, -⟩
    · exact hstored.1
    · obtain ⟨result, hresult⟩ := Option.isSome_iff_exists.mp (hfinished (.inr j))
      rw [Handler.eq_ret_of_result? hresult] at hcarries
      obtain ⟨act, next, hlock, -⟩ := hcarries
      cases hlock
  obtain ⟨user', huser', hrates⟩ := hrates
  refine ⟨user', huser', fun kind => ?_⟩
  rw [hrates kind]
  refine (h.ticked kind).congr fun i => ?_
  obtain ⟨result, hresult⟩ := Option.isSome_iff_exists.mp (hfinished (.inl i))
  have hret := Handler.eq_ret_of_result? hresult
  have hin := h.announcing i
  rw [hret] at hin
  rcases hin.ret with ⟨hphase, e, rfl⟩ | ⟨a, a', hphase, rfl, ha⟩
  · rw [hret]
    refine iff_of_false ?_ fun hticked => ?_
    · rintro ⟨a, ha, -⟩
      cases ha
    · rcases hphase with hphase | hphase
      · rw [hphase] at hticked
        exact hticked
      · rw [hphase] at hticked
        exact hticked
  · rw [hphase, hret, ← ha]
    constructor
    · rintro ⟨a'', ha'', hticked⟩
      rw [Handler.ret.injEq, Except.ok.injEq] at ha''
      subst ha''
      exact hticked
    · intro hticked
      exact ⟨a', rfl, hticked⟩

variable [DecidableEq ι] [DecidableEq κ]

/-- An announce looks up its user while no upsert has them. -/
lemma TracksRates.looksForUser_step (h : TracksRates id world rates announces base phase)
    {x : ι ⊕ κ} (hguard : UserGuarded id world x) {i : ι}
    (hmaps : (announces i).MapsToUser id world.state)
    (hlooks : (announces i).LooksForUser id (world.handlers (.inl i))) :
    (announces i).LooksForUser id ((world.step x).handlers (.inl i)) := by
  by_cases hx : x = .inl i
  · subst hx
    cases hlock : world.handlers (.inl i) with
    | ret result =>
      rw [World.step_of_ret hlock]
      exact hlooks
    | lock label act next =>
      rw [World.step_handlers_self hlock]
      rw [hlock] at hlooks
      rcases hlooks with (⟨next', hlock', hfinds⟩ | hfinds) | hlooks
      · rw [Handler.lock.injEq] at hlock'
        obtain ⟨rfl, rfl, rfl⟩ := hlock'
        have hnone := hguard (by rw [hlock]; simp [Handler.label?])
        obtain ⟨⟨user, huser, -⟩, -⟩ := RatesStored.of_guarded h.place hnone
        exact Handler.until_of_end (Or.inr (hfinds world.state (by simp [huser])))
      · exact Handler.until_of_end (Or.inr (hfinds world.state trivial).2)
      · exact (hlooks world.state hmaps).2
  · rw [World.step_handlers_of_ne world fun heq => hx heq.symm]
    exact hlooks

/-- As long as no lookup, update or removal of the user runs while an upsert has them, any number of
announces and upserts keep their rates, and no announce whose passkey stays mapped to them misses
them. -/
theorem user_rates_kept (announces : ι → AnnounceCall F) (upserts : κ → UserUpsert F) (id : UInt32)
    (state : AppState F) (user : User F) (schedule : List (ι ⊕ κ))
    (hstored : state.stores.users.get? id = some user)
    (hupserts : ∀ j, (upserts j).user.id = id ∧ (upserts j).IsValid)
    (hguarded : Along World.step (UserGuarded id) (serveUsers announces upserts state) schedule) :
    KeepsRates announces id user (run World.step (serveUsers announces upserts state) schedule) ∧
      ∀ i, Always World.step (fun world => (announces i).MapsToUser id world.state)
          (serveUsers announces upserts state) schedule →
        (run World.step (serveUsers announces upserts state) schedule).handlers (.inl i) ≠
          .ret (.error .userNotFound) := by
  have htracks : Always World.step (fun world => ∃ rates phase,
      TracksRates id world rates announces (fun kind => user.rates kind) phase)
      (serveUsers announces upserts state) schedule := by
    refine hguarded.invariant ?_ ⟨_, _, tracksRates_serveUsers hstored hupserts⟩
    rintro world x hguard ⟨rates, phase, h⟩
    exact h.step hguard
  constructor
  · obtain ⟨rates, phase, h⟩ := htracks.last
    exact h.keepsRates
  · intro i hmaps hret
    have hstep (world : World LockSection (AppState F) (ServedResult F ι κ)) (x : ι ⊕ κ)
        (h : (((∃ rates phase, TracksRates id world rates announces
              (fun kind => user.rates kind) phase) ∧
            ∃ rates phase, TracksRates id (world.step x) rates announces
              (fun kind => user.rates kind) phase) ∧
          (announces i).MapsToUser id world.state ∧ (announces i).MapsToUser id (world.step x).state) ∧
          UserGuarded id world x)
        (hlooks : (announces i).LooksForUser id (world.handlers (.inl i))) :
        (announces i).LooksForUser id ((world.step x).handlers (.inl i)) := by
      obtain ⟨⟨⟨⟨rates, phase, h⟩, -⟩, hmaps, -⟩, hguard⟩ := h
      exact h.looksForUser_step hguard hmaps hlooks
    have hlooks : (announces i).LooksForUser id
        ((run World.step (serveUsers announces upserts state) schedule).handlers (.inl i)) :=
      (((htracks.along.and hmaps.along).and hguarded).invariant
        (P := fun world => (announces i).LooksForUser id (world.handlers (.inl i))) hstep
        ((announces i).looksForUser_handler id)).last
    rw [hret] at hlooks
    rcases hlooks with ⟨next, hlock, -⟩ | hfinds
    · cases hlock
    · exact hfinds rfl

end Runs

namespace Sample

def rate : Rate ℝ := ⟨0, 5, 3600, 0⟩

/-- With a limit on how often a user receives leech lists. -/
def limitedConfig : Config ℝ :=
  { config with userReceiveLeechListRateLimits := ⟨[rate]⟩ }

def limitedUser : User ℝ :=
  { user 1 0x61 with receiveLeechListRates := ⟨[rate]⟩ }

def limitedState : AppState ℝ :=
  { state none [1] with stores.users := .insert .empty 1 limitedUser }

/-- A leecher of torrent 1, which requests a leech list. -/
def limitedCall : AnnounceCall ℝ := ⟨limitedConfig, env 0, request 1 1 .started 5⟩

def limitedUpsert : UserUpsert ℝ := ⟨limitedConfig, userRequest 0x61 none⟩

/-- The announce and two upserts of its user. -/
noncomputable def limitedWorld : World LockSection (AppState ℝ) (ServedResult ℝ Unit Bool) :=
  serveUsers (fun _ => limitedCall) (fun _ => limitedUpsert) limitedState

/-- A whole upsert between two sections of the announce, and another after it. -/
def betweenSchedule : List (Unit ⊕ Bool) :=
  List.replicate 5 (.inl ()) ++ List.replicate 3 (.inr true) ++ List.replicate 20 (.inl ()) ++
    List.replicate 3 (.inr false)

lemma limitedUpsert_isValid : limitedUpsert.IsValid := by
  refine ⟨by decide, ?_⟩
  rintro text htext
  cases htext

end Sample

theorem user_rates_kept_sample :
    KeepsRates (fun _ => Sample.limitedCall) 1 Sample.limitedUser
        (run World.step Sample.limitedWorld Sample.betweenSchedule) ∧
      ∀ i, Always World.step (fun world => Sample.limitedCall.MapsToUser 1 world.state)
          Sample.limitedWorld Sample.betweenSchedule →
        (run World.step Sample.limitedWorld Sample.betweenSchedule).handlers (.inl i) ≠
          .ret (.error .userNotFound) :=
  user_rates_kept (fun _ => Sample.limitedCall) (fun _ => Sample.limitedUpsert) 1 Sample.limitedState
    Sample.limitedUser Sample.betweenSchedule rfl (fun _ => ⟨rfl, Sample.limitedUpsert_isValid⟩)
    (by decide +kernel)

/-- Two upserts that both take the user out before one puts them back reset their rates, and an announce
between the two sections of an upsert misses them. -/
theorem user_rates_lost :
    ¬ (∀ (announces : Unit → AnnounceCall ℝ) (upserts : Bool → UserUpsert ℝ) id state user schedule,
        state.stores.users.get? id = some user →
      (∀ j, (upserts j).user.id = id ∧ (upserts j).IsValid) →
      KeepsRates announces id user (run World.step (serveUsers announces upserts state) schedule)) ∧
    ¬ (∀ (announces : Unit → AnnounceCall ℝ) (upserts : Bool → UserUpsert ℝ) id state user schedule i,
        state.stores.users.get? id = some user →
      (∀ j, (upserts j).user.id = id ∧ (upserts j).IsValid) →
      Always World.step (fun world => (announces i).MapsToUser id world.state)
        (serveUsers announces upserts state) schedule →
      (run World.step (serveUsers announces upserts state) schedule).handlers (.inl i) ≠
        .ret (.error .userNotFound)) := by
  constructor
  · intro h
    have hkeeps : KeepsRates (fun _ => Sample.limitedCall) 1 Sample.limitedUser
        (run World.step Sample.limitedWorld Sample.overlappingSchedule) :=
      h (fun _ => Sample.limitedCall) (fun _ => Sample.limitedUpsert) 1 Sample.limitedState
        Sample.limitedUser Sample.overlappingSchedule rfl
        (fun _ => ⟨rfl, Sample.limitedUpsert_isValid⟩)
    obtain ⟨user, hstored, hticked⟩ := hkeeps (by decide +kernel)
    have hrequested : (((run World.step Sample.limitedWorld Sample.overlappingSchedule).handlers
        (.inl ())).result?).map (fun result => result.toOption.map fun a =>
          (a.userId, a.list.hasRequested .leech)) = some (some (1, true)) := by decide +kernel
    have hreset : ((run World.step Sample.limitedWorld
        Sample.overlappingSchedule).state.stores.users.get? 1).map (User.rates .leech) =
          some ⟨[Sample.rate]⟩ := rfl
    rw [hstored, Option.map_some, Option.some_inj] at hreset
    obtain ⟨order, hnodup, hmem, hrates⟩ := hticked .leech
    rw [hreset] at hrates
    have horder : order = [()] := by
      obtain ⟨result, hret, hsome⟩ := Option.map_eq_some_iff.mp hrequested
      have hrun := Handler.eq_ret_of_result? hret
      cases result with
      | error e => cases hsome
      | ok a =>
        have hpair : (a.userId, a.list.hasRequested .leech) = (1, true) :=
          Option.some_inj.mp hsome
        rw [Prod.mk.injEq] at hpair
        have hin : () ∈ order := (hmem ()).mpr ⟨a, hrun, hpair.1, hpair.2⟩
        exact List.perm_singleton.mp ((List.perm_ext_iff_of_nodup hnodup (by simp)).mpr
          fun _ => by simp [hin])
    subst horder
    simp [Sample.limitedUser, User.rates, RateCollection.tick, Rate.tick, Sample.rate] at hrates
  · intro h
    have hmapped : Always World.step
        (fun world => Sample.limitedCall.MapsToUser 1 world.state)
        Sample.limitedWorld Sample.missingSchedule := by
      refine Always.mono (P := fun world => (Passkey.fromStr Sample.limitedCall.request.passkey).bind
        world.state.stores.passkey2id.get? = some 1) (by decide +kernel) fun world hmapped => ?_
      exact Option.bind_eq_some_iff.mp hmapped
    have hresult : (((run World.step Sample.limitedWorld Sample.missingSchedule).handlers
        (.inl ())).result?).map Sample.error? = some (some .userNotFound) := by decide +kernel
    obtain ⟨result, hret, herror⟩ := Option.map_eq_some_iff.mp hresult
    apply h (fun _ => Sample.limitedCall) (fun _ => Sample.limitedUpsert) 1 Sample.limitedState
      Sample.limitedUser Sample.missingSchedule () rfl
      (fun _ => ⟨rfl, Sample.limitedUpsert_isValid⟩) hmapped
    have hrun := Handler.eq_ret_of_result? hret
    rw [Sample.eq_error_of_error? herror] at hrun
    exact hrun

end Unit3dAnnounce
