import Mathlib.Data.Prod.Lex
import Unit3dAnnounce.Collections.Preference
import Unit3dAnnounce.Model.Sample
import Unit3dAnnounce.Proofs.Lists

/-!
# Which torrent an info hash means

Loading the database prefers, among the torrents with an info hash, undeleted ones, then approved
ones, then the oldest. The handlers map the info hash of a request to its torrent whatever else has
that info hash, so that both agree only on some requests.
-/

namespace Unit3dAnnounce

open Machine

variable {F : Type}

/-- The status, the deletion flag and the info hash of a torrent. -/
structure SentTorrent where
  status : TorrentStatus
  isDeleted : Bool
  infoHash : InfoHash

/-- Undeleted approved torrents come first, then other undeleted ones. -/
def SentTorrent.rank (torrent : SentTorrent) : ℕ :=
  if torrent.isDeleted then 2 else if torrent.status = .approved then 0 else 1

/-- Of two torrents with the same rank, the older one comes first. -/
def SentTorrent.weight (id : UInt32) (torrent : SentTorrent) : ℕ ×ₗ ℕ :=
  toLex (torrent.rank, id.toNat)

/-- The torrents that were sent, by their ids. -/
abbrev SentTorrents := IndexMap UInt32 SentTorrent

/-- The torrent that an info hash should mean. -/
def SentTorrents.Means (sent : SentTorrents) (infoHash : InfoHash) (id : UInt32) : Prop :=
  sent.Prefers SentTorrent.infoHash SentTorrent.weight infoHash id

lemma SentTorrent.eq_of_weight (id : UInt32) (torrent : SentTorrent) (id' : UInt32)
    (torrent' : SentTorrent) (h : torrent.weight id = torrent'.weight id') : id = id' := by
  have hid : id.toNat = id'.toNat := congrArg (fun w => (ofLex w).2) h
  exact UInt32.toNat_inj.mp hid

lemma SentTorrent.weight_le_iff {id id' : UInt32} {torrent torrent' : SentTorrent} :
    torrent.weight id ≤ torrent'.weight id' ↔
      torrent.rank < torrent'.rank ∨ torrent.rank = torrent'.rank ∧ id ≤ id' := by
  unfold SentTorrent.weight
  rw [Prod.Lex.toLex_le_toLex, UInt32.le_iff_toNat_le]

section Loading

variable (db : Database)

def TorrentRow.toSent (row : TorrentRow) : SentTorrent where
  status := .fromI16 row.status
  isDeleted := row.deletedAt.isSome
  infoHash := row.infoHash

/-- The rows of the torrents are as they were sent. -/
def Database.Holds (sent : SentTorrents) : Prop :=
  ∀ id, (db.torrents.get? id).map TorrentRow.toSent = sent.get? id

lemma TorrentRow.isApproved_iff (row : TorrentRow) :
    TorrentStatus.fromI16 row.status = .approved ↔ row.status = 1 := by
  unfold TorrentStatus.fromI16
  split_ifs <;> simp_all

lemma TorrentRow.rank_eq (row : TorrentRow) (rank : ℕ) : row.toSent.rank = rank ↔
    (if row.deletedAt.isSome then 2 else if row.status = 1 then 0 else 1) = rank := by
  unfold SentTorrent.rank TorrentRow.toSent
  simp only [TorrentRow.isApproved_iff]

/-- The oldest torrent with an info hash and a rank. -/
def Database.minRank (infoHash : InfoHash) (rank : ℕ) : Option UInt32 :=
  db.minId infoHash fun row => decide (row.toSent.rank = rank)

lemma Database.distinctTorrent_eq (infoHash : InfoHash) : db.distinctTorrent infoHash =
    ((db.minRank infoHash 0).or (db.minRank infoHash 1)).or (db.minRank infoHash 2) := by
  have happroved (row : TorrentRow) : (row.deletedAt.isNone && decide (row.status = 1)) =
      decide (row.toSent.rank = 0) := by
    simp only [TorrentRow.rank_eq]
    cases row.deletedAt <;> by_cases h : row.status = 1 <;> simp [h]
  have hother (row : TorrentRow) : (row.deletedAt.isNone && decide (row.status ≠ 1)) =
      decide (row.toSent.rank = 1) := by
    simp only [TorrentRow.rank_eq]
    cases row.deletedAt <;> by_cases h : row.status = 1 <;> simp [h]
  have hdeleted (row : TorrentRow) : row.deletedAt.isSome = decide (row.toSent.rank = 2) := by
    simp only [TorrentRow.rank_eq]
    cases row.deletedAt <;> by_cases h : row.status = 1 <;> simp [h]
  unfold Database.distinctTorrent Database.minRank
  simp only [happroved, hother, hdeleted]

variable {db} {infoHash : InfoHash} {rank : ℕ} {id : UInt32}

lemma Database.minRank_eq_none : db.minRank infoHash rank = none ↔ ∀ id row,
    db.torrents.get? id = some row → row.infoHash = infoHash → row.toSent.rank ≠ rank := by
  unfold Database.minRank Database.minId
  rw [List.min?_eq_none_iff, List.map_eq_nil_iff, List.filter_eq_nil_iff]
  simp only [Prod.forall, Bool.and_eq_true, decide_eq_true_eq, not_and, IndexMap.get?_eq_some]

lemma Database.minRank_eq_some : db.minRank infoHash rank = some id ↔
    (∃ row, db.torrents.get? id = some row ∧ row.infoHash = infoHash ∧ row.toSent.rank = rank) ∧
      ∀ id' row', db.torrents.get? id' = some row' → row'.infoHash = infoHash →
        row'.toSent.rank = rank → id ≤ id' := by
  unfold Database.minRank Database.minId
  rw [List.min?_eq_some_iff]
  simp only [List.mem_map, List.mem_filter, Bool.and_eq_true, decide_eq_true_eq, Prod.exists,
    exists_and_right, exists_eq_right, IndexMap.get?_eq_some]
  constructor
  · rintro ⟨⟨row, hmem, hrow⟩, hle⟩
    refine ⟨⟨row, hmem, hrow⟩, ?_⟩
    intro id' row' hmem' hhash hrank
    exact hle id' ⟨row', hmem', hhash, hrank⟩
  · rintro ⟨⟨row, hmem, hrow⟩, hle⟩
    refine ⟨⟨row, hmem, hrow⟩, ?_⟩
    rintro id' ⟨row', hmem', hhash, hrank⟩
    exact hle id' row' hmem' hhash hrank

/-- The choice of the database, as a preference. -/
def Database.Means (db : Database) (infoHash : InfoHash) (id : UInt32) : Prop :=
  db.torrents.Prefers (fun row => row.toSent.infoHash) (fun id row => row.toSent.weight id) infoHash id

lemma Database.means_of_minRank (h : db.minRank infoHash rank = some id)
    (hlower : ∀ rank' < rank, db.minRank infoHash rank' = none) : db.Means infoHash id := by
  obtain ⟨⟨row, hrow, hhash, hrank⟩, hle⟩ := minRank_eq_some.mp h
  refine ⟨row, hrow, hhash, fun id' row' hrow' hhash' => ?_⟩
  rw [SentTorrent.weight_le_iff, hrank]
  rcases lt_trichotomy rank row'.toSent.rank with hlt | heq | hgt
  · exact Or.inl hlt
  · exact Or.inr ⟨heq, hle id' row' hrow' hhash' heq.symm⟩
  · exact absurd rfl (minRank_eq_none.mp (hlower _ hgt) id' row' hrow' hhash')

lemma SentTorrent.rank_le (torrent : SentTorrent) : torrent.rank ≤ 2 := by
  unfold SentTorrent.rank
  split_ifs <;> omega

/-- The database chooses the preferred torrent. -/
theorem Database.distinctTorrent_eq_some :
    db.distinctTorrent infoHash = some id ↔ db.Means infoHash id := by
  have hmeans (id' : UInt32) (h : db.distinctTorrent infoHash = some id') : db.Means infoHash id' := by
    rw [distinctTorrent_eq] at h
    cases h0 : db.minRank infoHash 0 with
    | some id0 =>
      have hid : id0 = id' := by simpa [h0] using h
      exact means_of_minRank (hid ▸ h0) (by omega)
    | none =>
      cases h1 : db.minRank infoHash 1 with
      | some id1 =>
        have hid : id1 = id' := by simpa [h0, h1] using h
        refine means_of_minRank (hid ▸ h1) fun rank' hlt => ?_
        have hzero : rank' = 0 := by omega
        rw [hzero]
        exact h0
      | none =>
        have h2 : db.minRank infoHash 2 = some id' := by simpa [h0, h1] using h
        refine means_of_minRank h2 fun rank' hlt => ?_
        obtain rfl | rfl : rank' = 0 ∨ rank' = 1 := by omega
        · exact h0
        · exact h1
  constructor
  · exact hmeans id
  · intro h
    cases hd : db.distinctTorrent infoHash with
    | some id' =>
      have heq := (hmeans id' hd).unique (fun id row id' row' => SentTorrent.eq_of_weight id _ id' _) h
      rw [heq]
    | none =>
      -- some rank has a torrent
      obtain ⟨row, hrow, hhash, -⟩ := h
      rw [distinctTorrent_eq, Option.or_eq_none_iff, Option.or_eq_none_iff] at hd
      obtain ⟨⟨h0, h1⟩, h2⟩ := hd
      have hrank := row.toSent.rank_le
      obtain hr | hr | hr : row.toSent.rank = 0 ∨ row.toSent.rank = 1 ∨ row.toSent.rank = 2 := by omega
      · exact absurd hr (minRank_eq_none.mp h0 id row hrow hhash)
      · exact absurd hr (minRank_eq_none.mp h1 id row hrow hhash)
      · exact absurd hr (minRank_eq_none.mp h2 id row hrow hhash)

lemma get?_foldl_insert (choice : InfoHash → Option UInt32) (rows : List (UInt32 × TorrentRow))
    (hchoice : ∀ row ∈ rows, choice row.2.infoHash = some row.1) (store : IndexMap InfoHash UInt32)
    (infoHash : InfoHash) :
    (rows.foldl (fun store row => store.insert row.2.infoHash row.1) store).get? infoHash =
      if ∃ row ∈ rows, row.2.infoHash = infoHash then choice infoHash else store.get? infoHash := by
  induction rows generalizing store with
  | nil => simp
  | cons row rows ih =>
    rw [List.foldl_cons, ih (fun row' hmem => hchoice row' (List.mem_cons_of_mem row hmem))]
    by_cases hrest : ∃ row' ∈ rows, row'.2.infoHash = infoHash
    · obtain ⟨row', hmem, hhash⟩ := hrest
      rw [if_pos ⟨row', hmem, hhash⟩, if_pos ⟨row', List.mem_cons_of_mem row hmem, hhash⟩]
    · rw [if_neg hrest, IndexMap.get?_insert]
      by_cases hhash : row.2.infoHash = infoHash
      · rw [if_pos hhash.symm, if_pos ⟨row, List.mem_cons_self, hhash⟩, ← hhash,
          hchoice row List.mem_cons_self]
      · rw [if_neg (fun h => hhash h.symm), if_neg]
        rintro ⟨row', hmem, hhash'⟩
        rcases List.mem_cons.mp hmem with rfl | hmem
        · exact hhash hhash'
        · exact hrest ⟨row', hmem, hhash'⟩

/-- The loaded mapping is the choice of the database. -/
theorem InfoHash2IdStore.get?_fromDb (db : Database) (infoHash : InfoHash) :
    (InfoHash2IdStore.fromDb db).get? infoHash = db.distinctTorrent infoHash := by
  have hchoice : ∀ row ∈ db.distinctTorrents.entries,
      db.distinctTorrent row.2.infoHash = some row.1 := by
    intro row hmem
    have hget : db.distinctTorrents.get? row.1 = some row.2 := IndexMap.get?_eq_some.mpr hmem
    rw [Database.distinctTorrents, IndexMap.get?_retain, Option.filter_eq_some_iff] at hget
    exact of_decide_eq_true hget.2
  rw [InfoHash2IdStore.fromDb, get?_foldl_insert db.distinctTorrent _ hchoice]
  split_ifs with hrow
  · rfl
  · cases hd : db.distinctTorrent infoHash with
    | none => rfl
    | some id =>
      obtain ⟨row, hget, hhash, -⟩ := Database.distinctTorrent_eq_some.mp hd
      have hhash : row.infoHash = infoHash := hhash
      refine absurd ⟨(id, row), ?_, hhash⟩ hrow
      rw [← IndexMap.get?_eq_some, Database.distinctTorrents, IndexMap.get?_retain, hget,
        Option.filter_some, hhash, hd]
      simp

/-- A table that holds what was sent. -/
def SentTorrents.toDatabase (sent : SentTorrents) : Database where
  torrents := sent.mapValues fun _ torrent => {
    status := match torrent.status with
      | .pending => 0
      | .approved => 1
      | .rejected => 2
      | .postponed => 3
      | .unknown => 4
    infoHash := torrent.infoHash
    seeders := 0
    leechers := 0
    timesCompleted := 0
    free := 0
    doubleup := false
    deletedAt := if torrent.isDeleted then some 0 else none }
  users := .empty
  peers := .empty
  groups := .empty
  freeleechTokens := []
  personalFreeleeches := []
  featuredTorrents := []
  blacklistClients := []

lemma SentTorrents.holds_toDatabase (sent : SentTorrents) : sent.toDatabase.Holds sent := by
  intro id
  simp only [SentTorrents.toDatabase, IndexMap.get?_mapValues, Option.map_map]
  cases sent.get? id with
  | none => rfl
  | some torrent =>
    obtain ⟨status, isDeleted, infoHash⟩ := torrent
    cases status <;> cases isDeleted <;> rfl

lemma Database.Holds.means_iff {sent : SentTorrents} (h : db.Holds sent) :
    sent.Means infoHash id ↔ db.Means infoHash id :=
  IndexMap.prefers_of_map h

end Loading

inductive TorrentRequest where
  | upsert (torrent : APIInsertTorrent)
  | destroy (torrent : APIRemoveTorrent)

/-- The tracker, and what was last sent for each torrent. -/
structure TorrentSite (F : Type) where
  state : AppState F
  sent : SentTorrents

namespace TorrentSite

variable (site : TorrentSite F)

def step (site : TorrentSite F) : TorrentRequest → TorrentSite F
  | .upsert torrent =>
    { state := ((upsertTorrent torrent).run site.state).1
      sent := match InfoHash.fromStr torrent.infoHash with
        | some infoHash => site.sent.insert torrent.id ⟨torrent.status, torrent.isDeleted, infoHash⟩
        | none => site.sent }
  | .destroy torrent =>
    { state := ((destroyTorrent torrent).run site.state).1
      sent := site.sent.modify torrent.id fun torrent => { torrent with isDeleted := true } }

/-- Every info hash is mapped as a database with the same rows would be loaded. -/
def LoadsSame : Prop :=
  ∀ db : Database, db.Holds site.sent → ∀ infoHash,
    site.state.stores.infohash2id.get? infoHash = (InfoHash2IdStore.fromDb db).get? infoHash

/-- No other torrent with the info hash is preferred to the one that is sent, and a torrent that is
sent with another info hash than before was not the one that the old info hash means. A torrent that
is the one its info hash means stays so when it is deleted. -/
def KeepsPreference : TorrentRequest → Prop
  | .upsert torrent => ∀ infoHash, InfoHash.fromStr torrent.infoHash = some infoHash →
      (∀ id other, site.sent.get? id = some other → id ≠ torrent.id → other.infoHash = infoHash →
        SentTorrent.weight torrent.id ⟨torrent.status, torrent.isDeleted, infoHash⟩ ≤
          other.weight id) ∧
      ∀ old, site.sent.get? torrent.id = some old → old.infoHash ≠ infoHash →
        ¬ site.sent.Means old.infoHash torrent.id
  | .destroy torrent => ∀ old, site.sent.get? torrent.id = some old →
      site.sent.Means old.infoHash torrent.id →
        ∀ id other, site.sent.get? id = some other → id ≠ torrent.id →
          other.infoHash = old.infoHash →
            SentTorrent.weight torrent.id { old with isDeleted := true } ≤ other.weight id

lemma loadsSame_iff : site.LoadsSame ↔ ∀ infoHash id,
    site.state.stores.infohash2id.get? infoHash = some id ↔ site.sent.Means infoHash id := by
  constructor
  · intro h infoHash id
    rw [h _ site.sent.holds_toDatabase, InfoHash2IdStore.get?_fromDb,
      Database.distinctTorrent_eq_some, site.sent.holds_toDatabase.means_iff]
  · intro h db hdb infoHash
    apply Option.ext
    intro id
    rw [h, InfoHash2IdStore.get?_fromDb, Database.distinctTorrent_eq_some, hdb.means_iff]

lemma infohash2id_upsertTorrent (torrent : APIInsertTorrent) (state : AppState F) :
    ((upsertTorrent torrent).run state).1.stores.infohash2id =
      match InfoHash.fromStr torrent.infoHash with
      | some infoHash => state.stores.infohash2id.insert infoHash torrent.id
      | none => state.stores.infohash2id := by
  unfold upsertTorrent
  cases InfoHash.fromStr torrent.infoHash with
  | none => rfl
  | some infoHash =>
    simp only [Handler.run_bind, Handler.run_atomically, Handler.run_write, Handler.run_pure]

variable {site}

/-- What an upsert takes to keep the mapping. -/
lemma loadsSame_upsert (h : site.LoadsSame) (torrent : APIInsertTorrent) :
    (site.step (.upsert torrent)).LoadsSame ↔ site.KeepsPreference (.upsert torrent) := by
  rw [loadsSame_iff] at h ⊢
  unfold KeepsPreference
  simp only [step, infohash2id_upsertTorrent]
  cases hhash : InfoHash.fromStr torrent.infoHash with
  | none => simp [h]
  | some infoHash =>
    simp only [Option.some_inj, forall_eq']
    have hchange (id : UInt32) (hid : id ≠ torrent.id) : (site.sent.insert torrent.id
        ⟨torrent.status, torrent.isDeleted, infoHash⟩).get? id = site.sent.get? id := by
      rw [IndexMap.get?_insert, if_neg hid]
    have hnew : (site.sent.insert torrent.id
        ⟨torrent.status, torrent.isDeleted, infoHash⟩).get? torrent.id =
          some ⟨torrent.status, torrent.isDeleted, infoHash⟩ := by
      rw [IndexMap.get?_insert, if_pos rfl]
    generalize site.sent.insert torrent.id ⟨torrent.status, torrent.isDeleted, infoHash⟩ = sent'
      at hchange hnew ⊢
    have hmeans : SentTorrents.Means sent' infoHash torrent.id ↔
        ∀ id other, site.sent.get? id = some other → id ≠ torrent.id → other.infoHash = infoHash →
          SentTorrent.weight torrent.id ⟨torrent.status, torrent.isDeleted, infoHash⟩ ≤
            other.weight id := IndexMap.prefers_changed_iff hchange hnew
    rw [← hmeans]
    simp only [IndexMap.get?_insert]
    constructor
    · intro hsame
      refine ⟨(hsame infoHash torrent.id).mp (if_pos rfl), fun old hold hne hbefore => ?_⟩
      -- the old info hash is still mapped to the torrent, which now has another one
      have hafter := (hsame old.infoHash torrent.id).mp
        ((if_neg hne).trans ((h old.infoHash torrent.id).mpr hbefore))
      obtain ⟨_, hget, hclass, -⟩ := hafter
      rw [hnew, Option.some_inj] at hget
      subst hget
      exact hne hclass.symm
    · rintro ⟨hpreferred, hmoved⟩ infoHash' id'
      by_cases hsame : infoHash' = infoHash
      · subst hsame
        rw [if_pos rfl, Option.some_inj]
        constructor
        · rintro rfl
          exact hpreferred
        · exact hpreferred.unique SentTorrent.eq_of_weight
      · rw [if_neg hsame, h]
        apply IndexMap.prefers_congr hchange
        · intro hbefore
          obtain ⟨old, hold, hclass, -⟩ := id hbefore
          subst hclass
          exact hmoved old hold hsame hbefore
        · rintro ⟨_, hget, hclass, -⟩
          rw [hnew, Option.some_inj] at hget
          subst hget
          exact hsame hclass.symm

/-- What a destroy takes to keep the mapping. -/
lemma loadsSame_destroy (h : site.LoadsSame) (torrent : APIRemoveTorrent) :
    (site.step (.destroy torrent)).LoadsSame ↔ site.KeepsPreference (.destroy torrent) := by
  rw [loadsSame_iff] at h ⊢
  unfold KeepsPreference
  simp only [step, run_destroyTorrent]
  have hchange (id : UInt32) (hid : id ≠ torrent.id) : (site.sent.modify torrent.id
      fun torrent => { torrent with isDeleted := true }).get? id = site.sent.get? id := by
    rw [IndexMap.get?_modify, if_neg hid]
  cases hold : site.sent.get? torrent.id with
  | none =>
    rw [IndexMap.modify_of_get?_none hold]
    simp [h]
  | some old =>
    have hnew : (site.sent.modify torrent.id
        fun torrent => { torrent with isDeleted := true }).get? torrent.id =
          some { old with isDeleted := true } := by
      rw [IndexMap.get?_modify, if_pos rfl, hold, Option.map_some]
    generalize (site.sent.modify torrent.id fun torrent => { torrent with isDeleted := true }) = sent'
      at hchange hnew ⊢
    have hmeans : SentTorrents.Means sent' old.infoHash torrent.id ↔ ∀ id other,
        site.sent.get? id = some other → id ≠ torrent.id → other.infoHash = old.infoHash →
          SentTorrent.weight torrent.id { old with isDeleted := true } ≤ other.weight id :=
      IndexMap.prefers_changed_iff hchange hnew
    simp only [Option.some_inj, forall_eq']
    rw [← hmeans]
    constructor
    · intro hsame hbefore
      exact (hsame old.infoHash torrent.id).mp ((h old.infoHash torrent.id).mpr hbefore)
    · intro hstays infoHash id'
      rw [h]
      by_cases hbefore : site.sent.Means infoHash torrent.id
      · have hclass : old.infoHash = infoHash := by
          obtain ⟨old', hold', hclass, -⟩ := hbefore
          rw [hold, Option.some_inj] at hold'
          rw [hold']
          exact hclass
        subst hclass
        have hafter := hstays hbefore
        constructor
        · intro hmeans'
          rw [← hbefore.unique SentTorrent.eq_of_weight hmeans']
          exact hafter
        · intro hmeans'
          rw [← hafter.unique SentTorrent.eq_of_weight hmeans']
          exact hbefore
      · apply IndexMap.prefers_congr hchange hbefore
        -- a deleted torrent is no more preferred than it was before
        rintro ⟨_, hget, hclass, hle⟩
        rw [hnew, Option.some_inj] at hget
        subst hget
        refine hbefore ⟨old, hold, hclass, fun id other hother hhash => ?_⟩
        have hdeleted : old.weight torrent.id ≤
            SentTorrent.weight torrent.id { old with isDeleted := true } := by
          rw [SentTorrent.weight_le_iff]
          rcases lt_or_eq_of_le old.rank_le with hlt | heq
          · exact Or.inl hlt
          · exact Or.inr ⟨heq, UInt32.le_refl _⟩
        by_cases hid : id = torrent.id
        · subst hid
          rw [hold, Option.some_inj] at hother
          rw [hother]
        · exact hdeleted.trans (hle id other ((hchange id hid).trans hother) hhash)

/-- A request keeps the mapping exactly when it keeps the preferences. -/
lemma loadsSame_step (request : TorrentRequest) (h : site.LoadsSame) :
    (site.step request).LoadsSame ↔ site.KeepsPreference request := by
  cases request with
  | upsert torrent => exact loadsSame_upsert h torrent
  | destroy torrent => exact loadsSame_destroy h torrent

end TorrentSite

/-- From empty stores, the info hashes are mapped as the database would load them throughout a run
exactly when every request keeps the preferences. -/
theorem infohash2id_loads_same_iff (state : AppState F)
    (hempty : state.stores.infohash2id = .empty) (requests : List TorrentRequest) :
    Always TorrentSite.step TorrentSite.LoadsSame ⟨state, .empty⟩ requests ↔
      Along TorrentSite.step TorrentSite.KeepsPreference ⟨state, .empty⟩ requests := by
  apply always_iff_along (fun site request h => TorrentSite.loadsSame_step request h)
  rw [TorrentSite.loadsSame_iff]
  intro infoHash id
  rw [hempty]
  constructor
  · intro h
    simp [IndexMap.get?, IndexMap.empty] at h
  · rintro ⟨torrent, h, -⟩
    simp [IndexMap.get?, IndexMap.empty] at h

/-- A torrent is destroyed and uploaded again under another id. -/
def Sample.reupload : List TorrentRequest :=
  [.upsert torrentRequest, .destroy ⟨1⟩, .upsert { torrentRequest with id := 2 }]

theorem infohash2id_loads_same_iff_sample :
    Always TorrentSite.step TorrentSite.LoadsSame ⟨Sample.state none [], .empty⟩ Sample.reupload ↔
      Along TorrentSite.step TorrentSite.KeepsPreference ⟨Sample.state none [], .empty⟩
        Sample.reupload :=
  infohash2id_loads_same_iff (Sample.state none []) rfl Sample.reupload

/-- The same file is uploaded again and waits for moderation. -/
theorem infohash2id_loads_other :
    ¬ ∀ (state : AppState ℝ), state.stores.infohash2id = .empty → ∀ requests,
      (run TorrentSite.step ⟨state, .empty⟩ requests).LoadsSame := by
  intro h
  have hsame := h (Sample.state none []) rfl [.upsert Sample.torrentRequest,
    .upsert { Sample.torrentRequest with id := 2, status := .pending }] _
    (SentTorrents.holds_toDatabase _) (Sample.infoHash 1)
  revert hsame
  decide +kernel

end Unit3dAnnounce
