import Unit3dAnnounce.Model.Sample
import Unit3dAnnounce.Proofs.Passkeys
import Unit3dAnnounce.Proofs.Roster
import Unit3dAnnounce.Proofs.Tables

/-!
# What is revoked stays revoked

As soon as a request that takes a passkey away has been answered, no announce with this passkey is
accepted any more, and none for a torrent whose removal has been answered, until another request brings
it back. Whatever else is being served makes no difference.
-/

namespace Unit3dAnnounce

open Machine

variable {F : Type}

/-- The passkey is nobody's. -/
def AppState.LacksPasskey (passkey : Passkey) (state : AppState F) : Prop :=
  state.stores.passkey2id.get? passkey = none

/-- There is no such torrent, or it is deleted. -/
def AppState.LacksTorrent (id : UInt32) (state : AppState F) : Prop :=
  ∀ torrent, state.stores.torrents.get? id = some torrent → torrent.isDeleted = true

lemma keeps_insert_passkey {passkey given : Passkey} (hgiven : given ≠ passkey) (id : UInt32)
    (label : LockSection) (state : AppState F) : Keeps (AppState.LacksPasskey passkey) label state
      { state with stores.passkey2id := state.stores.passkey2id.insert given id } := by
  intro h
  unfold AppState.LacksPasskey
  rw [IndexMap.get?_insert, if_neg hgiven.symm]
  exact h

lemma keeps_swapRemove_passkey (passkey removed : Passkey) (label : LockSection) (state : AppState F) :
    Keeps (AppState.LacksPasskey passkey) label state
      { state with stores.passkey2id := state.stores.passkey2id.swapRemove removed } := by
  intro h
  unfold AppState.LacksPasskey
  rw [IndexMap.get?_swapRemove]
  split_ifs
  · rfl
  · exact h

lemma lacksPasskey_swapRemove (passkey : Passkey) (state : AppState F) : AppState.LacksPasskey passkey
    { state with stores.passkey2id := state.stores.passkey2id.swapRemove passkey } := by
  unfold AppState.LacksPasskey
  rw [IndexMap.get?_swapRemove, if_pos rfl]

lemma keeps_swapRemove_torrent (id removed : UInt32) (label : LockSection) (state : AppState F) :
    Keeps (AppState.LacksTorrent id) label state
      { state with stores.torrents := state.stores.torrents.swapRemove removed } := by
  intro h torrent ht
  rw [IndexMap.get?_swapRemove] at ht
  split_ifs at ht
  exact h torrent ht

lemma keeps_insert_torrent {id : UInt32} {torrent : Torrent} {inserted : UInt32}
    (hdeleted : inserted = id → torrent.isDeleted = true) (label : LockSection) (state : AppState F) :
    Keeps (AppState.LacksTorrent id) label state
      { state with stores.torrents := state.stores.torrents.insert inserted torrent } := by
  intro h torrent' ht
  rw [IndexMap.get?_insert] at ht
  split_ifs at ht with hid
  · rw [← Option.some_inj.mp ht]
    exact hdeleted hid.symm
  · exact h torrent' ht

/-- The request gives the passkey to a user. -/
def ServiceCall.Gives (passkey : Passkey) : ServiceCall F → Prop
  | .upsertUser upsert => upsert.user.givenPasskey = some passkey
  | _ => False

/-- The request takes the passkey away, with its user or for another one. -/
def ServiceCall.Revokes (passkey : Passkey) : ServiceCall F → Prop
  | .destroyUser user => Passkey.fromStr user.passkey = some passkey
  | .upsertUser upsert => Passkey.fromStr upsert.user.passkey = some passkey ∧
      upsert.user.newPasskey ≠ none ∧ ∃ given, upsert.user.givenPasskey = some given ∧ given ≠ passkey
  | _ => False

/-- The request brings the torrent back. -/
def ServiceCall.Restores (id : UInt32) : ServiceCall F → Prop
  | .upsertTorrent torrent => torrent.id = id ∧ torrent.isDeleted = false
  | _ => False

section Users

variable {passkey : Passkey}

lemma keeps_lacksPasskey_insertUser {given : Passkey} (hgiven : given ≠ passkey) (user : APIInsertUser)
    (rates : RateCollection F × RateCollection F) : (upsertUser.insertUser user given rates).Guarantees
      (fun _ => True) (Keeps (AppState.LacksPasskey passkey)) fun _ => True :=
  fun _ _ => ⟨fun h => h, fun state _ => ⟨keeps_insert_passkey hgiven user.id _ state, trivial⟩⟩

lemma keeps_lacksPasskey_upsertUser (config : Config F) {user : APIInsertUser}
    (hgiven : user.givenPasskey ≠ some passkey) : (upsertUser config user).Guarantees (fun _ => True)
      (Keeps (AppState.LacksPasskey passkey)) fun _ => True := by
  unfold APIInsertUser.givenPasskey at hgiven
  unfold upsertUser
  cases hold : Passkey.fromStr user.passkey with
  | none => exact Handler.guarantees_pure trivial
  | some old =>
    refine Handler.Guarantees.bind (Q := fun _ => True) (fun _ _ => ⟨fun h => h, trivial⟩)
      fun oldUser _ => ?_
    cases hnew : user.newPasskey with
    | none =>
      rw [hnew, hold] at hgiven
      exact keeps_lacksPasskey_insertUser (fun h => hgiven (congrArg some h)) user _
    | some text =>
      rw [hnew] at hgiven
      simp only at hgiven ⊢
      cases hgive : Passkey.fromStr text with
      | none => exact Handler.guarantees_pure trivial
      | some given =>
        rw [hgive] at hgiven
        exact Handler.Guarantees.bind (Q := fun _ => True)
          (fun state _ => ⟨keeps_swapRemove_passkey passkey old _ state, trivial⟩)
          fun _ _ => keeps_lacksPasskey_insertUser (fun h => hgiven (congrArg some h)) user _

lemma keeps_lacksPasskey_destroyUser (user : APIRemoveUser) : (destroyUser user).Guarantees
    (fun _ => True) (Keeps (F := F) (AppState.LacksPasskey passkey)) fun _ => True := by
  unfold destroyUser
  cases Passkey.fromStr user.passkey with
  | none => exact Handler.guarantees_pure trivial
  | some removed =>
    exact fun _ _ => ⟨fun h => h,
      fun state _ => ⟨keeps_swapRemove_passkey passkey removed _ state, trivial⟩⟩

lemma ensures_lacksPasskey {call : ServiceCall F} [RateField F] (h : call.Revokes passkey) :
    call.handler.Ensures (AppState.LacksPasskey passkey) := by
  cases call with
  | destroyUser user =>
    have hpasskey : Passkey.fromStr user.passkey = some passkey := h
    simp only [ServiceCall.handler, destroyUser, hpasskey]
    exact fun _ => Or.inr fun state => Or.inl (lacksPasskey_swapRemove passkey state)
  | upsertUser upsert =>
    obtain ⟨hpasskey, hnew, given, hgiven, -⟩ := h
    obtain ⟨text, htext⟩ := Option.ne_none_iff_exists'.mp hnew
    simp only [APIInsertUser.givenPasskey, htext] at hgiven
    simp only [ServiceCall.handler, UserUpsert.handler, upsertUser, hpasskey, htext, hgiven]
    exact fun _ => Or.inr fun state => Or.inl (lacksPasskey_swapRemove passkey state)
  | announce announce => exact h.elim
  | upsertTorrent torrent => exact h.elim
  | destroyTorrent torrent => exact h.elim

end Users

section Torrents

variable [RateField F] {config : Config F} {env : Env F} {request : AnnounceRequest}
  {isConnectable : Bool} {userId : Except AnnounceError UInt32} {user : Except AnnounceError (User F)}

lemma keeps_lacksTorrent_announceTorrent (id torrentId : UInt32) (state : AppState F) :
    Keeps (AppState.LacksTorrent id) (.announceTorrent torrentId) state
      (announceTorrent config env request isConnectable userId user torrentId state).1 := by
  intro hlacks torrent ht
  generalize h : announceTorrent config env request isConnectable userId user torrentId state = after at ht
  obtain ⟨state', outcome⟩ := after
  cases outcome with
  | error e =>
    rw [show state'.stores = state.stores from
      (AnnounceCall.announceTorrent_stores_of_error h).1] at ht
    exact hlacks torrent ht
  | ok result =>
    obtain ⟨-, -, old, torrent', hsection, rfl⟩ := announceTorrent_ok h
    rw [IndexMap.get?_modify] at ht
    split_ifs at ht with hid
    · subst hid
      rw [hsection.stored, Option.map_some, Option.some_inj] at ht
      obtain ⟨peers', -, rfl, -⟩ := changeTorrent_ok hsection.change
      rw [← ht]
      exact hlacks old hsection.stored
    · exact hlacks torrent ht

omit [RateField F] in
lemma keeps_lacksTorrent_upsertTorrent {id : UInt32} {torrent : APIInsertTorrent}
    (hdeleted : torrent.id = id → torrent.isDeleted = true) :
    (upsertTorrent torrent).Guarantees (fun _ => True) (Keeps (F := F) (AppState.LacksTorrent id))
      fun _ => True := by
  unfold upsertTorrent
  cases InfoHash.fromStr torrent.infoHash with
  | none => exact Handler.guarantees_pure trivial
  | some infoHash =>
    refine fun state _ => ⟨keeps_swapRemove_torrent id torrent.id _ state, fun state _ => ?_⟩
    exact ⟨keeps_insert_torrent hdeleted _ state, fun _ _ => ⟨fun h => h, trivial⟩⟩

omit [RateField F] in
/-- A removal leaves the torrent deleted, if there is one. -/
lemma lacksTorrent_destroyTorrent {id : UInt32} {torrent : APIRemoveTorrent} {state : AppState F}
    (h : state.LacksTorrent id ∨ torrent.id = id) :
    AppState.LacksTorrent id ((destroyTorrent torrent).run state).1 := by
  intro deleted ht
  rw [destroyTorrent, Handler.run_atomically] at ht
  split_ifs at ht with hcontains
  · rw [IndexMap.get?_modify] at ht
    split_ifs at ht with hid
    · obtain ⟨stored, -, rfl⟩ := Option.map_eq_some_iff.mp ht
      rfl
    · exact h.elim (fun h => h deleted ht) fun h => absurd h.symm hid
  · refine h.elim (fun h => h deleted ht) fun h => ?_
    rw [h, IndexMap.contains_eq_true.mpr ⟨deleted, ht⟩] at hcontains
    exact absurd rfl hcontains

end Torrents

namespace ServiceCall

variable [RateField F]

lemma keeps_lacksPasskey {passkey : Passkey} (call : ServiceCall F) (h : ¬ call.Gives passkey) :
    call.handler.Guarantees (fun _ => True) (Keeps (AppState.LacksPasskey passkey)) fun _ => True := by
  cases call with
  | announce announce =>
    refine (announce_guarantees (P := fun _ => True) (T := fun _ => True) (Q := fun _ _ => True)
      (fun _ _ _ _ _ h => h) (fun _ _ _ _ => trivial) (fun _ _ _ _ => trivial) ?_).mono
        (fun _ _ _ h => h) fun _ _ => trivial
    intro isConnectable userId user torrentId state _ _ _
    refine ⟨?_, fun _ _ => trivial⟩
    unfold Keeps AppState.LacksPasskey
    rw [(mappings_announceTorrent announce.config announce.env announce.request isConnectable userId
      user torrentId state).1]
    exact fun h => h
  | upsertTorrent torrent => exact upsertTorrent_writes (fun _ _ _ _ h => h) torrent
  | destroyTorrent torrent => exact destroyTorrent_writes (fun _ _ _ _ h => h) torrent
  | upsertUser upsert => exact keeps_lacksPasskey_upsertUser upsert.config h
  | destroyUser user => exact keeps_lacksPasskey_destroyUser user

lemma keeps_lacksTorrent {id : UInt32} (call : ServiceCall F) (h : ¬ call.Restores id) :
    call.handler.Guarantees (fun _ => True) (Keeps (AppState.LacksTorrent id)) fun _ => True := by
  cases call with
  | announce announce =>
    refine (announce_guarantees (P := fun _ => True) (T := fun _ => True) (Q := fun _ _ => True)
      (fun _ _ _ _ _ h => h) (fun _ _ _ _ => trivial) (fun _ _ _ _ => trivial) ?_).mono
        (fun _ _ _ h => h) fun _ _ => trivial
    exact fun _ _ _ torrentId state _ _ _ =>
      ⟨keeps_lacksTorrent_announceTorrent id torrentId state, fun _ _ => trivial⟩
  | upsertTorrent torrent =>
    refine keeps_lacksTorrent_upsertTorrent fun hid => ?_
    by_contra hdeleted
    exact h ⟨hid, by simpa using hdeleted⟩
  | destroyTorrent torrent =>
    exact fun state _ => ⟨fun hlacks => lacksTorrent_destroyTorrent (Or.inl hlacks), trivial⟩
  | upsertUser upsert => exact upsertUser_writes (fun _ _ _ _ h => h) upsert.config upsert.user
  | destroyUser user => exact destroyUser_writes (fun _ _ _ _ h => h) user

/-- What every accepted announce satisfies, whichever kind the call is of. -/
lemma guarantees_accepted {R : AppState F → Prop} {Q : AnnounceCall F → Accepted F → Prop}
    (call : ServiceCall F) (h : ∀ announce : AnnounceCall F, announce.handler.Guarantees R
      (fun _ _ _ => True) fun outcome => ∀ a, outcome = .ok a → Q announce a) :
    call.handler.Guarantees R (fun _ _ _ => True)
      fun result => ∀ announce a, call.accepted? result = some (announce, a) → Q announce a := by
  cases call with
  | announce call =>
    refine (h call).mono (fun _ _ _ h => h) fun result hresult announce a ha => ?_
    cases result with
    | ok a' =>
      simp only [accepted?, Option.some_inj, Prod.mk.injEq] at ha
      obtain ⟨rfl, rfl⟩ := ha
      exact hresult a' rfl
    | error e => cases ha
  | upsertTorrent torrent =>
    exact (Handler.guarantees_trivial _).mono (fun _ _ _ h => h) fun _ _ _ _ ha => by cases ha
  | destroyTorrent torrent =>
    exact (Handler.guarantees_trivial _).mono (fun _ _ _ h => h) fun _ _ _ _ ha => by cases ha
  | upsertUser upsert =>
    exact (Handler.guarantees_trivial _).mono (fun _ _ _ h => h) fun _ _ _ _ ha => by cases ha
  | destroyUser user =>
    exact (Handler.guarantees_trivial _).mono (fun _ _ _ h => h) fun _ _ _ _ ha => by cases ha

/-- An announce that finds its passkey to be nobody's is not accepted. -/
lemma refuses_passkey {passkey : Passkey} (call : ServiceCall F) :
    call.handler.Guarantees (AppState.LacksPasskey passkey) (fun _ _ _ => True)
      fun result => ∀ announce a, call.accepted? result = some (announce, a) →
        Passkey.fromStr announce.request.passkey ≠ some passkey := by
  refine guarantees_accepted call fun announce => ?_
  by_cases hpasskey : Passkey.fromStr announce.request.passkey = some passkey
  · refine (announce_guarantees (P := fun userId => ∃ e, userId = .error e) (T := fun _ => True)
      (Q := fun _ _ => False) (fun _ _ _ _ _ => trivial) (fun passkey' hpasskey' state hlacks => ?_)
      (fun _ _ _ _ => trivial) ?_).mono
        (fun _ _ _ h => h) fun _ hrefused a ha => (hrefused a ha).elim
    · rw [hpasskey, Option.some_inj] at hpasskey'
      subst hpasskey'
      rw [show state.stores.passkey2id.get? passkey = none from hlacks]
      exact ⟨_, rfl⟩
    · rintro isConnectable _ user torrentId state - ⟨e, rfl⟩ -
      refine ⟨trivial, fun result hresult => ?_⟩
      have hok := announceTorrent_ok (Prod.ext rfl hresult)
      cases hok.1
  · exact (Handler.guarantees_trivial _).mono (fun _ _ _ h => h) fun _ _ _ _ => hpasskey

/-- An announce is not accepted for a torrent that its torrents section does not find, or finds deleted. -/
lemma refuses_torrent {id : UInt32} (call : ServiceCall F) :
    call.handler.Guarantees (AppState.LacksTorrent id) (fun _ _ _ => True)
      fun result => ∀ announce a, call.accepted? result = some (announce, a) → a.torrentId ≠ id := by
  refine guarantees_accepted call fun announce => ?_
  refine announce_guarantees (P := fun _ => True) (T := fun _ => True)
    (Q := fun torrentId _ => torrentId ≠ id) (fun _ _ _ _ _ => trivial) (fun _ _ _ _ => trivial)
    (fun _ _ _ _ => trivial) ?_
  intro isConnectable userId user torrentId state hlacks _ _
  refine ⟨trivial, fun result hresult => ?_⟩
  rintro rfl
  obtain ⟨-, -, torrent, torrent', hsection, -⟩ := announceTorrent_ok (Prod.ext rfl hresult)
  have hdeleted := hlacks torrent hsection.stored
  rw [hsection.notDeleted] at hdeleted
  cases hdeleted

end ServiceCall

namespace Service

variable [RateField F] {ι : Type} [DecidableEq ι] {calls : ι → ServiceCall F} {P : AppState F → Prop}

/-- Reaps and the requests that tell of a row leave a condition alone. -/
structure Untouched (P : AppState F → Prop) : Prop where
  reap : ∀ config activeNow inactiveNow state, P state →
    P ((Unit3dAnnounce.reap config activeNow inactiveNow state).getD state)
  request : ∀ (request : TableRequest) state, P state → P (request.handle state)

omit [RateField F] in
lemma untouched_lacksPasskey (passkey : Passkey) : Untouched (F := F) (AppState.LacksPasskey passkey) where
  reap config activeNow inactiveNow state h := by
    cases hr : Unit3dAnnounce.reap config activeNow inactiveNow state with
    | none => exact h
    | some state' =>
      obtain ⟨activeCutoff, inactiveCutoff, rfl⟩ := reap_some hr
      exact h
  request request state h := by
    cases request <;> exact h

omit [RateField F] in
lemma untouched_lacksTorrent (id : UInt32) : Untouched (F := F) (AppState.LacksTorrent id) where
  reap config activeNow inactiveNow state h := by
    cases hr : Unit3dAnnounce.reap config activeNow inactiveNow state with
    | none => exact h
    | some state' =>
      obtain ⟨activeCutoff, inactiveCutoff, rfl⟩ := reap_some hr
      intro torrent ht
      simp only [Option.getD_some, reapTorrents, IndexMap.get?_mapValues] at ht
      obtain ⟨stored, hstored, rfl⟩ := Option.map_eq_some_iff.mp ht
      rw [Torrent.reap_eq]
      exact h stored hstored
  request request state h := by
    cases request <;> exact h

/-- No call is going to change what holds, and one of them makes it hold if it does not yet. -/
structure Holds (P : AppState F → Prop) (k : ι) (service : Service calls) : Prop where
  calls : ∀ i, (service.world.handlers i).Guarantees (fun _ => True) (fun _ state state' =>
    P state → P state') fun _ => True
  now : P service.world.state ∨ (service.world.handlers k).Ensures P

omit [RateField F] in
lemma Holds.step {k : ι} {service : Service calls} (h : service.Holds P k) (hP : Untouched P)
    (event : ServiceEvent F ι) : (service.step event).Holds P k := by
  cases event with
  | advance i =>
    exact ⟨fun j => World.guarantees_step (w := service.world) (h.calls j) trivial i,
      World.ensures_step h.calls h.now i⟩
  | reap config activeNow inactiveNow => exact ⟨h.calls, h.now.imp_left (hP.reap _ _ _ _)⟩
  | request request => exact ⟨h.calls, h.now.imp_left (hP.request _ _)⟩

omit [RateField F] in
lemma Holds.run {k : ι} {service : Service calls} (h : service.Holds P k) (hP : Untouched P)
    (events : List (ServiceEvent F ι)) : (Machine.run Service.step service events).Holds P k :=
  ((Along.of_forall (C := fun _ _ => True) (fun _ _ => trivial) service events).invariant
    (fun _ event _ h => h.step hP event) h).last

omit [RateField F] [DecidableEq ι] in
/-- Once the call has returned, it holds. -/
lemma Holds.of_finishes {k : ι} {service : Service calls} (h : service.Holds P k)
    (hfinishes : (service.world.handlers k).result?.isSome) : P service.world.state := by
  refine h.now.resolve_right fun hensures => ?_
  rw [hensures.result?_eq_none] at hfinishes
  cases hfinishes

omit [RateField F] in
/-- Where it holds all along, a call can rely on it. -/
lemma Holds.guarantees_run {k i : ι} {service : Service calls} {Q : (calls i).Result → Prop}
    (h : service.Holds P k) (hP : Untouched P) (hnow : P service.world.state)
    (hi : (service.world.handlers i).Guarantees P (fun _ _ _ => True) Q)
    (events : List (ServiceEvent F ι)) :
    ((Machine.run Service.step service events).world.handlers i).Guarantees P
      (fun _ _ _ => True) Q := by
  induction events generalizing service with
  | nil => exact hi
  | cons event events ih =>
    have hnext := h.step hP event
    cases event with
    | advance j =>
      refine ih hnext ?_ (World.guarantees_step hi hnow j)
      rcases World.state_step (w := service.world) (h.calls j) trivial with hstate | ⟨label, hkeeps⟩
      · exact hstate ▸ hnow
      · exact hkeeps hnow
    | reap config activeNow inactiveNow => exact ih hnext (hP.reap _ _ _ _ hnow) hi
    | request request => exact ih hnext (hP.request _ _ hnow) hi

omit [RateField F] in
/-- What a call guarantees, relying on nothing, it goes on to guarantee. -/
lemma guarantees_run {i : ι} {service : Service calls} {G : LockSection → AppState F → AppState F → Prop}
    {Q : (calls i).Result → Prop} (h : (service.world.handlers i).Guarantees (fun _ => True) G Q)
    (events : List (ServiceEvent F ι)) :
    ((run step service events).world.handlers i).Guarantees (fun _ => True) G Q := by
  induction events generalizing service with
  | nil => exact h
  | cons event events ih =>
    cases event with
    | advance j => exact ih (World.guarantees_step (w := service.world) h trivial j)
    | reap config activeNow inactiveNow => exact ih h
    | request request => exact ih h

/-- A call makes a condition true that no other call undoes which has not returned before it starts. Then
every call that starts later can rely on it. -/
lemma relies_after {service : Service calls} (hfresh : service.Fresh) (hP : Untouched P)
    {start middle rest : List (ServiceEvent F ι)} {k i : ι} (hk : .advance k ∉ start)
    (hensures : (calls k).handler.Ensures P)
    (hkeeps : ∀ j, service.FinishesBy j start ∨ (calls j).handler.Guarantees (fun _ => True)
      (fun _ state state' => P state → P state') fun _ => True)
    (hfinishes : service.FinishesBy k (start ++ middle)) (hi : .advance i ∉ start ++ middle)
    {Q : (calls i).Result → Prop} (hQ : (calls i).handler.Guarantees P (fun _ _ _ => True) Q)
    {result : (calls i).Result}
    (hresult : (run step service (start ++ middle ++ rest)).world.handlers i = .ret result) :
    Q result := by
  have hstart : (run step service start).Holds P k := by
    refine ⟨fun j => ?_, Or.inr ?_⟩
    · rcases hkeeps j with hfinished | hj
      · obtain ⟨r, hr⟩ := Option.isSome_iff_exists.mp hfinished
        rw [Handler.eq_ret_of_result? hr]
        trivial
      · exact guarantees_run (by rw [hfresh j]; exact hj) start
    · rw [handlers_run hk, hfresh k]
      exact hensures
  have hmiddle := hstart.run hP middle
  rw [← run_append] at hmiddle
  have hrest := hmiddle.guarantees_run hP (hmiddle.of_finishes hfinishes) (i := i) (Q := Q)
    (by rw [handlers_run hi, hfresh i]; exact hQ) rest
  rw [← run_append, hresult] at hrest
  exact hrest

end Service

section Revocations

variable [RateField F] {ι : Type} [DecidableEq ι] {calls : ι → ServiceCall F}

/-- Announces that start after a passkey has been taken away, or a torrent has been removed, are not
accepted for it, unless a request that brings it back has not been answered by the time the other one
starts. -/
theorem revocations_are_final {service : Service calls} (hfresh : service.Fresh)
    {start middle rest : List (ServiceEvent F ι)} {result : ∀ i, (calls i).Result}
    (hresult : (run Service.step service (start ++ middle ++ rest)).Returned result) {k i : ι}
    (hk : .advance k ∉ start) (hfinishes : service.FinishesBy k (start ++ middle))
    (hi : .advance i ∉ start ++ middle) {announce : AnnounceCall F} {a : Accepted F}
    (ha : (calls i).accepted? (result i) = some (announce, a)) :
    (∀ passkey, (calls k).Revokes passkey →
      (∀ j, (calls j).Gives passkey → service.FinishesBy j start) →
      Passkey.fromStr announce.request.passkey ≠ some passkey) ∧
    ∀ torrent, calls k = .destroyTorrent torrent →
      (∀ j, (calls j).Restores torrent.id → service.FinishesBy j start) →
      a.torrentId ≠ torrent.id := by
  constructor
  · intro passkey hrevokes hgivers
    refine Service.relies_after hfresh (Service.untouched_lacksPasskey passkey) hk
      (ensures_lacksPasskey hrevokes) (fun j => ?_) hfinishes hi
      (ServiceCall.refuses_passkey (calls i)) (hresult i) announce a ha
    by_cases hgives : (calls j).Gives passkey
    · exact Or.inl (hgivers j hgives)
    · exact Or.inr ((calls j).keeps_lacksPasskey hgives)
  · intro torrent hcall hrestorers
    refine Service.relies_after hfresh (Service.untouched_lacksTorrent torrent.id) hk ?_
      (fun j => ?_) hfinishes hi (ServiceCall.refuses_torrent (calls i)) (hresult i) announce a ha
    · rw [hcall]
      exact fun state => Or.inl (lacksTorrent_destroyTorrent (Or.inr rfl))
    · by_cases hrestores : (calls j).Restores torrent.id
      · exact Or.inl (hrestorers j hrestores)
      · exact Or.inr ((calls j).keeps_lacksTorrent hrestores)

end Revocations

namespace Sample

/-- The other user is removed, and the first one announces. -/
def revokingCalls : Bool → ServiceCall ℝ
  | true => .announce ⟨config, env 60, request 1 1 .started 5⟩
  | false => .destroyUser ⟨2, List.replicate 32 0x62⟩

noncomputable def revokingService : Service revokingCalls :=
  ⟨⟨sharedSite, fun i => (revokingCalls i).handler⟩⟩

def removal : List (ServiceEvent ℝ Bool) := List.replicate 2 (.advance false)

def afterRemoval : List (ServiceEvent ℝ Bool) := List.replicate 16 (.advance true)

lemma isSome_afterRemoval (i : Bool) : (((run Service.step revokingService
    ([] ++ removal ++ afterRemoval)).world.handlers i).result?).isSome = true := by
  revert i
  decide +kernel

noncomputable def revokingResult (i : Bool) : (revokingCalls i).Result :=
  Option.get _ (isSome_afterRemoval i)

lemma finishesBy_removal : revokingService.FinishesBy false ([] ++ removal) := by
  unfold Service.FinishesBy
  decide +kernel

end Sample

theorem revocations_are_final_sample : ∃ announce a,
    (Sample.revokingCalls true).accepted? (Sample.revokingResult true) = some (announce, a) ∧
      Passkey.fromStr announce.request.passkey ≠ some (Sample.passkey 0x62) := by
  have hsome : ((Sample.revokingCalls true).accepted? (Sample.revokingResult true)).isSome = true := by
    decide +kernel
  obtain ⟨⟨announce, a⟩, ha⟩ := Option.isSome_iff_exists.mp hsome
  refine ⟨announce, a, ha, ?_⟩
  have hfinal := revocations_are_final (fun _ => rfl)
    (fun _ => Handler.eq_ret_of_result? (Option.some_get _).symm) (by simp) (k := false)
    Sample.finishesBy_removal (by simp [Sample.removal]) ha
  refine hfinal.1 (Sample.passkey 0x62) (show Passkey.fromStr _ = _ by decide +kernel) fun j hgives => ?_
  cases j with
  | true => exact hgives.elim
  | false => exact hgives.elim

end Unit3dAnnounce
