import Unit3dAnnounce.Model.Sample

/-!
# Passkeys

The passkey of a user is kept twice, in the user and in the map that announces look it up in. An
upsert that changes the passkey without naming the new one leaves the old one in the map, and a
removal trusts the passkey that it is sent.
-/

namespace Unit3dAnnounce

open Machine

variable {F : Type}

inductive UserOperation where
  | upsert (user : APIInsertUser)
  | destroy (user : APIRemoveUser)

def UserOperation.handler (config : Config F) :
    UserOperation → Handler LockSection (AppState F) StatusCode
  | .upsert user => upsertUser config user
  | .destroy user => destroyUser user

def performUser (config : Config F) (state : AppState F) (op : UserOperation) : AppState F :=
  ((op.handler config).run state).1

/-- The passkey that an upsert gives its user. -/
def APIInsertUser.givenPasskey (user : APIInsertUser) : Option Passkey :=
  match user.newPasskey with
  | some text => Passkey.fromStr text
  | none => Passkey.fromStr user.passkey

/-- A request that succeeds and gives no user a passkey stored for another user. -/
def UserOperation.IsProper (config : Config F) (state : AppState F) (op : UserOperation) : Prop :=
  ((op.handler config).run state).2 = .ok ∧
    match op with
    | .upsert user => ∀ passkey ∈ user.givenPasskey, ∀ id stored,
      state.stores.users.get? id = some stored → stored.passkey = passkey → id = user.id
    | .destroy _ => True

/-- The passkey that a request is sent belongs to its user, if to anyone, and is the only one that
the user is left to lose. -/
def UserOperation.NamesHolder (state : AppState F) : UserOperation → Prop
  | .upsert user => ∀ passkey ∈ Passkey.fromStr user.passkey, ∀ given ∈ user.givenPasskey,
    (∀ stored ∈ state.stores.users.get? user.id, stored.passkey = passkey ∨ stored.passkey = given) ∧
      ∀ id ∈ state.stores.passkey2id.get? passkey, id = user.id
  | .destroy user => ∀ passkey ∈ Passkey.fromStr user.passkey,
    (∀ stored ∈ state.stores.users.get? user.id, stored.passkey = passkey) ∧
      ∀ id ∈ state.stores.passkey2id.get? passkey, id = user.id

-- Spelled out, as a search over all passkeys would decide it as well.
instance (state : AppState F) : (op : UserOperation) → Decidable (op.NamesHolder state)
  | .upsert user => @Option.decidableForallMem _ _
    (fun _ => @Option.decidableForallMem _ _ (fun _ => @instDecidableAnd _ _
      (Option.decidableForallMem _) (Option.decidableForallMem _)) user.givenPasskey)
    (Passkey.fromStr user.passkey)
  | .destroy user => @Option.decidableForallMem _ _
    (fun _ => @instDecidableAnd _ _ (Option.decidableForallMem _) (Option.decidableForallMem _))
    (Passkey.fromStr user.passkey)

/-- The passkey map is the inverse of the passkeys of the users. -/
structure PasskeysAgree (state : AppState F) : Prop where
  holder : ∀ passkey id, state.stores.passkey2id.get? passkey = some id →
    ∃ user, state.stores.users.get? id = some user ∧ user.passkey = passkey
  mapped : ∀ id user, state.stores.users.get? id = some user →
    state.stores.passkey2id.get? user.passkey = some id

lemma PasskeysAgree.unique {state : AppState F} (h : PasskeysAgree state) {passkey passkey' : Passkey}
    {id : UInt32} (h1 : state.stores.passkey2id.get? passkey = some id)
    (h2 : state.stores.passkey2id.get? passkey' = some id) : passkey = passkey' := by
  obtain ⟨user, huser, rfl⟩ := h.holder passkey id h1
  obtain ⟨user', huser', rfl⟩ := h.holder passkey' id h2
  rw [huser, Option.some_inj] at huser'
  rw [huser']

/-- The rates that an upsert carries over, or starts with. -/
def APIInsertUser.rates (config : Config F) (state : AppState F) (user : APIInsertUser) :
    RateCollection F × RateCollection F :=
  (state.stores.users.get? user.id).elim
    (config.userReceiveSeedListRateLimits, config.userReceiveLeechListRateLimits)
    fun stored => (stored.receiveSeedListRates, stored.receiveLeechListRates)

/-- What a successful upsert does to the two stores. -/
lemma upsertUser_ok {config : Config F} {user : APIInsertUser} {state : AppState F}
    (h : ((upsertUser config user).run state).2 = .ok) :
    ∃ passkey given, Passkey.fromStr user.passkey = some passkey ∧
      user.givenPasskey = some given ∧
      (∀ id, ((upsertUser config user).run state).1.stores.users.get? id =
        if id = user.id then some (user.toUser given (user.rates config state))
        else state.stores.users.get? id) ∧
      ∀ key, ((upsertUser config user).run state).1.stores.passkey2id.get? key =
        if key = given then some user.id
        else if key = passkey ∧ user.newPasskey.isSome then none
        else state.stores.passkey2id.get? key := by
  unfold upsertUser APIInsertUser.givenPasskey at *
  cases hp : Passkey.fromStr user.passkey with
  | none => simp [hp] at h
  | some passkey =>
    simp only [hp, Handler.run_bind, Handler.run_atomically] at h ⊢
    cases hn : user.newPasskey with
    | none =>
      simp only [upsertUser.insertUser, Handler.run_bind, Handler.run_write, Handler.run_pure]
      refine ⟨passkey, passkey, rfl, rfl, ?_, ?_⟩
      · intro id
        rw [IndexMap.get?_insert, IndexMap.get?_swapRemove]
        split_ifs
        · rfl
        · rfl
      · intro key
        rw [IndexMap.get?_insert]
        simp
    | some text =>
      simp only [hn] at h ⊢
      cases hg : Passkey.fromStr text with
      | none => simp [hg] at h
      | some given =>
        simp only [upsertUser.insertUser, Handler.run_bind, Handler.run_write, Handler.run_pure]
        refine ⟨passkey, given, rfl, rfl, ?_, ?_⟩
        · intro id
          rw [IndexMap.get?_insert, IndexMap.get?_swapRemove]
          split_ifs
          · rfl
          · rfl
        · intro key
          rw [IndexMap.get?_insert, IndexMap.get?_swapRemove]
          simp

lemma destroyUser_ok {user : APIRemoveUser} {state : AppState F}
    (h : ((destroyUser user).run state).2 = .ok) :
    ∃ passkey, Passkey.fromStr user.passkey = some passkey ∧
      (∀ id, ((destroyUser user).run state).1.stores.users.get? id =
        if id = user.id then none else state.stores.users.get? id) ∧
      ∀ key, ((destroyUser user).run state).1.stores.passkey2id.get? key =
        if key = passkey then none else state.stores.passkey2id.get? key := by
  unfold destroyUser at *
  cases hp : Passkey.fromStr user.passkey with
  | none => simp [hp] at h
  | some passkey =>
    simp only [Handler.run_bind, Handler.run_write, Handler.run_pure]
    refine ⟨passkey, rfl, ?_, ?_⟩
    · intro id
      rw [IndexMap.get?_swapRemove]
    · intro key
      rw [IndexMap.get?_swapRemove]

lemma PasskeysAgree.upsert {config : Config F} {state : AppState F} {user : APIInsertUser}
    (hproper : (UserOperation.upsert user).IsProper config state)
    (hholder : (UserOperation.upsert user).NamesHolder state) (h : PasskeysAgree state) :
    PasskeysAgree (performUser config state (.upsert user)) := by
  obtain ⟨hok, hgives⟩ := hproper
  obtain ⟨passkey, given, hp, hg, husers, hkeys⟩ := upsertUser_ok hok
  obtain ⟨hstored, hmine⟩ := hholder passkey hp given hg
  constructor
  · intro key id hkey
    have hkey' := (hkeys key).symm.trans hkey
    by_cases hgiven : key = given
    · rw [if_pos hgiven, Option.some_inj] at hkey'
      subst hkey'
      exact ⟨_, (husers user.id).trans (if_pos rfl), hgiven.symm⟩
    · rw [if_neg hgiven] at hkey'
      split_ifs at hkey' with hremoved
      obtain ⟨stored, hget, hpasskey⟩ := h.holder key id hkey'
      have hid : id ≠ user.id := by
        -- an old passkey of the user would have been removed or given again
        intro hid
        subst hid
        rcases hstored stored hget with hold | hold
        · rw [hpasskey] at hold
          subst hold
          cases hn : user.newPasskey with
          | some text => exact hremoved ⟨rfl, by simp [hn]⟩
          | none =>
            simp only [APIInsertUser.givenPasskey, hn, hp, Option.some_inj] at hg
            exact hgiven hg
        · exact hgiven (hpasskey.symm.trans hold)
      exact ⟨stored, (husers id).trans ((if_neg hid).trans hget), hpasskey⟩
  · intro id stored hget
    have hget' := (husers id).symm.trans hget
    by_cases hid : id = user.id
    · rw [if_pos hid, Option.some_inj] at hget'
      subst hget'
      rw [hid]
      exact (hkeys given).trans (if_pos rfl)
    · rw [if_neg hid] at hget'
      have hgiven : stored.passkey ≠ given := fun he => hid (hgives given hg id stored hget' he)
      have hpasskey : stored.passkey ≠ passkey := by
        intro he
        have hmapped := h.mapped id stored hget'
        rw [he] at hmapped
        exact hid (hmine id hmapped)
      refine (hkeys stored.passkey).trans ?_
      rw [if_neg hgiven, if_neg (fun he => hpasskey he.1)]
      exact h.mapped id stored hget'

lemma PasskeysAgree.destroy {config : Config F} {state : AppState F} {user : APIRemoveUser}
    (hproper : (UserOperation.destroy user).IsProper config state)
    (hholder : (UserOperation.destroy user).NamesHolder state) (h : PasskeysAgree state) :
    PasskeysAgree (performUser config state (.destroy user)) := by
  obtain ⟨passkey, hp, husers, hkeys⟩ := destroyUser_ok hproper.1
  obtain ⟨hstored, hmine⟩ := hholder passkey hp
  constructor
  · intro key id hkey
    have hkey' := (hkeys key).symm.trans hkey
    split_ifs at hkey' with hremoved
    obtain ⟨stored, hget, hpasskey⟩ := h.holder key id hkey'
    have hid : id ≠ user.id := by
      intro hid
      subst hid
      exact hremoved (hpasskey.symm.trans (hstored stored hget))
    exact ⟨stored, (husers id).trans ((if_neg hid).trans hget), hpasskey⟩
  · intro id stored hget
    have hget' := (husers id).symm.trans hget
    split_ifs at hget' with hid
    have hpasskey : stored.passkey ≠ passkey := by
      intro he
      have hmapped := h.mapped id stored hget'
      rw [he] at hmapped
      exact hid (hmine id hmapped)
    exact (hkeys stored.passkey).trans ((if_neg hpasskey).trans (h.mapped id stored hget'))

/-- A proper request that names the holder keeps the two in agreement. -/
lemma PasskeysAgree.performUser {config : Config F} {state : AppState F} {op : UserOperation}
    (hproper : op.IsProper config state) (hholder : op.NamesHolder state)
    (h : PasskeysAgree state) : PasskeysAgree (performUser config state op) := by
  cases op with
  | upsert user => exact h.upsert hproper hholder
  | destroy user => exact h.destroy hproper hholder

/-- Along every sequence of proper requests that name the holder, a passkey resolves to the user who
holds it, every user's passkey resolves to them, and no other passkey does. -/
theorem passkeys_agree_along_runs (config : Config F) (state : AppState F) (ops : List UserOperation)
    (hproper : Along (performUser config) (fun state op => op.IsProper config state) state ops)
    (hholder : Along (performUser config) (fun state op => op.NamesHolder state) state ops)
    (h : PasskeysAgree state) :
    Always (performUser config) (fun state => PasskeysAgree state ∧
      ∀ passkey passkey' id, state.stores.passkey2id.get? passkey = some id →
        state.stores.passkey2id.get? passkey' = some id → passkey = passkey') state ops := by
  have hrun : Always (performUser config) PasskeysAgree state ops :=
    (hproper.and hholder).invariant (fun state op hop hagree => hagree.performUser hop.1 hop.2) h
  exact hrun.mono fun state hagree => ⟨hagree, fun _ _ _ h1 h2 => hagree.unique h1 h2⟩

lemma passkeysAgree_sample : PasskeysAgree (Sample.state none []) := by
  constructor
  · intro passkey id hget
    obtain ⟨rfl, rfl⟩ := IndexMap.eq_of_get?_insert_empty hget
    exact ⟨_, rfl, rfl⟩
  · intro id user hget
    obtain ⟨rfl, rfl⟩ := IndexMap.eq_of_get?_insert_empty hget
    decide +kernel

/-- A passkey is changed by naming the new one, and then the user is removed. -/
theorem passkeys_agree_sample_run :
    Always (performUser Sample.config) (fun state => PasskeysAgree state ∧
      ∀ passkey passkey' id, state.stores.passkey2id.get? passkey = some id →
        state.stores.passkey2id.get? passkey' = some id → passkey = passkey') (Sample.state none [])
      [.upsert (Sample.userRequest 0x61 (some 0x62)), .destroy ⟨1, List.replicate 32 0x62⟩] :=
  passkeys_agree_along_runs Sample.config (Sample.state none [])
    [.upsert (Sample.userRequest 0x61 (some 0x62)), .destroy ⟨1, List.replicate 32 0x62⟩]
    ⟨⟨by decide +kernel, fun _ _ _ _ hget _ => (IndexMap.eq_of_get?_insert_empty hget).1⟩,
      ⟨by decide +kernel, trivial⟩, trivial⟩
    ⟨by decide +kernel, by decide +kernel, trivial⟩
    passkeysAgree_sample

/-- An upsert with another passkey, which it does not call new, leaves the old one in the map. -/
theorem passkeys_disagree :
    ¬ ∀ ops, Along (performUser Sample.config)
        (fun state op => op.IsProper Sample.config state) (Sample.state none []) ops →
      Always (performUser Sample.config) PasskeysAgree (Sample.state none []) ops := by
  intro h
  have hproper : UserOperation.IsProper Sample.config (Sample.state none [])
      (.upsert (Sample.userRequest 0x62 none)) := by
    refine ⟨by decide +kernel, ?_⟩
    intro passkey _ id stored hget _
    exact (IndexMap.eq_of_get?_insert_empty hget).1
  have hlast := (h [.upsert (Sample.userRequest 0x62 none)] ⟨hproper, trivial⟩).last
  obtain ⟨user, huser, hpasskey⟩ := hlast.holder (Sample.passkey 0x61) 1 (by decide +kernel)
  have hnew : ((run (performUser Sample.config) (Sample.state none [])
      [.upsert (Sample.userRequest 0x62 none)]).stores.users.get? 1).map User.passkey =
      some (Sample.passkey 0x62) := by decide +kernel
  rw [huser, Option.map_some, hpasskey] at hnew
  revert hnew
  decide +kernel

/-- The new passkey of a request is no passkey. -/
def APIInsertUser.HasInvalidNewPasskey (user : APIInsertUser) : Prop :=
  ∃ text, user.newPasskey = some text ∧ Passkey.fromStr text = none

/-- An upsert is rejected for either of its passkeys, and for nothing else. -/
lemma upsertUser_badRequest {config : Config F} {user : APIInsertUser} {state : AppState F} :
    ((upsertUser config user).run state).2 = .badRequest ↔
      Passkey.fromStr user.passkey = none ∨ user.HasInvalidNewPasskey := by
  unfold upsertUser APIInsertUser.HasInvalidNewPasskey
  cases hp : Passkey.fromStr user.passkey with
  | none => simp
  | some passkey =>
    cases hn : user.newPasskey with
    | none => simp [upsertUser.insertUser]
    | some text =>
      cases hg : Passkey.fromStr text with
      | none => simp [hg]
      | some given => simp [hg, upsertUser.insertUser]

/-- A request that is rejected for its passkey has not touched the state. -/
lemma run_upsertUser_of_invalid {config : Config F} {user : APIInsertUser} {state : AppState F}
    (h : Passkey.fromStr user.passkey = none) :
    (upsertUser config user).run state = (state, .badRequest) := by
  simp [upsertUser, h]

/-- A request that is rejected for its new passkey has taken the user out of their store. -/
lemma run_upsertUser_of_invalid_new {config : Config F} {user : APIInsertUser} {state : AppState F}
    {passkey : Passkey} (hp : Passkey.fromStr user.passkey = some passkey)
    (hn : user.HasInvalidNewPasskey) :
    (upsertUser config user).run state =
      ({ state with stores.users := state.stores.users.swapRemove user.id }, .badRequest) := by
  obtain ⟨text, htext, hnone⟩ := hn
  simp [upsertUser, hp, htext, hnone]

/-- A rejected upsert leaves both stores as they were exactly where its passkey is invalid, its new
passkey is not, or there is no such user. -/
theorem rejected_upsert_changes_nothing_iff (config : Config F) (user : APIInsertUser)
    (state : AppState F) :
    (((upsertUser config user).run state).2 = .badRequest →
      (∀ id, ((upsertUser config user).run state).1.stores.users.get? id =
        state.stores.users.get? id) ∧
      ∀ passkey, ((upsertUser config user).run state).1.stores.passkey2id.get? passkey =
        state.stores.passkey2id.get? passkey) ↔
    (Passkey.fromStr user.passkey = none ∨ ¬ user.HasInvalidNewPasskey ∨
      state.stores.users.get? user.id = none) := by
  rw [upsertUser_badRequest]
  cases hp : Passkey.fromStr user.passkey with
  | none =>
    rw [run_upsertUser_of_invalid hp]
    simp
  | some passkey =>
    by_cases hn : user.HasInvalidNewPasskey
    · rw [run_upsertUser_of_invalid_new hp hn]
      simp only [IndexMap.get?_swapRemove, hn, not_true_eq_false, reduceCtorEq, false_or, or_true,
        true_implies, implies_true, and_true]
      constructor
      · intro h
        exact (h user.id).symm.trans (if_pos rfl)
      · intro hnone id
        by_cases hid : id = user.id
        · rw [if_pos hid, hid, hnone]
        · rw [if_neg hid]
    · simp [hn]

/-- A new passkey of one byte: the request is rejected, and the user is gone. -/
theorem rejected_upsert_removes_user :
    ¬ ∀ user : APIInsertUser,
      ((upsertUser Sample.config user).run (Sample.state none [])).2 = .badRequest →
      (∀ id, ((upsertUser Sample.config user).run (Sample.state none [])).1.stores.users.get? id =
        (Sample.state none []).stores.users.get? id) ∧
      ∀ passkey, ((upsertUser Sample.config user).run (Sample.state none [])).1.stores.passkey2id.get?
        passkey = (Sample.state none []).stores.passkey2id.get? passkey := by
  intro h
  have hkept := h { Sample.userRequest 0x61 none with newPasskey := some [0x78] } (by decide +kernel)
  have hpasskey := congrArg (Option.map User.passkey) (hkept.1 1)
  revert hpasskey
  decide +kernel

end Unit3dAnnounce
