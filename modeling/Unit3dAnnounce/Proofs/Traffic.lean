import Unit3dAnnounce.Model.Sample
import Unit3dAnnounce.Proofs.StoredPeer

/-!
# The traffic of a peer

What is recorded for the announces of one peer, from the one that inserts it to the one that stops
it. Every announce is compared with the totals of the one before, which stay with the peer whatever
else happens.
-/

namespace Unit3dAnnounce

open Machine

variable {F : Type}

/-- A total of each direction, or the difference of two. -/
structure Totals where
  uploaded : UInt64
  downloaded : UInt64
deriving DecidableEq

namespace Totals

variable (previous totals : Totals)

def zero : Totals := ⟨0, 0⟩

/-- One of the totals went down. -/
def HasDecreased : Prop :=
  totals.uploaded < previous.uploaded ∨ totals.downloaded < previous.downloaded

instance : Decidable (HasDecreased previous totals) :=
  inferInstanceAs (Decidable (_ ∨ _))

/-- The traffic since the previous totals, which is none for a restarted session. -/
def since : Totals :=
  if HasDecreased previous totals then zero
  else ⟨totals.uploaded - previous.uploaded, totals.downloaded - previous.downloaded⟩

/-- The traffic since the previous totals, each direction for itself. -/
def saturatingSince : Totals :=
  ⟨saturatingSubU64 totals.uploaded previous.uploaded,
    saturatingSubU64 totals.downloaded previous.downloaded⟩

/-- One of the totals went down and the other one up. -/
def HasDiverged : Prop :=
  totals.uploaded < previous.uploaded ∧ previous.downloaded < totals.downloaded ∨
    totals.downloaded < previous.downloaded ∧ previous.uploaded < totals.uploaded

lemma saturatingSubU64_eq (x y : UInt64) :
    saturatingSubU64 x y = if x < y then 0 else x - y := by
  unfold saturatingSubU64
  by_cases h : y ≤ x
  · rw [if_pos h, if_neg (UInt64.not_lt.mpr h)]
  · rw [if_neg h, if_pos (UInt64.not_le.mp h)]

lemma sub_eq_zero_iff_not_lt {x y : UInt64} (h : ¬ x < y) : x - y = 0 ↔ ¬ y < x := by
  rw [← UInt64.toNat_inj, UInt64.toNat_sub_of_le _ _ (UInt64.not_lt.mp h), UInt64.lt_iff_toNat_lt]
  rw [UInt64.lt_iff_toNat_lt] at h
  simp only [UInt64.toNat_zero]
  omega

/-- The two ways of counting differ when one total goes down and the other one up. -/
lemma saturatingSince_eq_since_iff :
    saturatingSince previous totals = since previous totals ↔ ¬ HasDiverged previous totals := by
  unfold saturatingSince since HasDiverged HasDecreased zero
  rw [saturatingSubU64_eq, saturatingSubU64_eq]
  by_cases hu : totals.uploaded < previous.uploaded
  · by_cases hd : totals.downloaded < previous.downloaded
    · have hd' : ¬ previous.downloaded < totals.downloaded := by grind
      have hu' : ¬ previous.uploaded < totals.uploaded := by grind
      simp [hu, hd, hd', hu']
    · simp [hu, hd, sub_eq_zero_iff_not_lt hd]
  · by_cases hd : totals.downloaded < previous.downloaded
    · simp [hu, hd, sub_eq_zero_iff_not_lt hu]
    · simp [hu, hd]

end Totals

def Peer.totals (peer : Peer) : Totals := ⟨peer.uploaded, peer.downloaded⟩

/-- What an accepted announce reports, and what is recorded for it. -/
structure TrafficReport where
  totals : Totals
  deltas : Totals
  isStopped : Bool
deriving DecidableEq

namespace TrafficReport

/-- The rule for two announces in a row. -/
def Follows (previous report : TrafficReport) : Prop :=
  report.deltas = previous.totals.since report.totals

/-- The rule for the whole life of a peer. -/
def FollowRule (reports : List TrafficReport) : Prop :=
  (∀ first, reports.head? = some first → first.deltas = .zero) ∧ reports.IsChain Follows

/-- No total ever decreases. -/
def NeverDecrease (reports : List TrafficReport) : Prop :=
  reports.IsChain fun previous report => ¬ previous.totals.HasDecreased report.totals

/-- The deltas sum to the difference between the last and the first total. -/
def Telescope (reports : List TrafficReport) : Prop :=
  ∀ first last, reports.head? = some first → reports.getLast? = some last →
    first.totals.uploaded.toNat + (reports.map fun report => report.deltas.uploaded.toNat).sum =
        last.totals.uploaded.toNat ∧
      first.totals.downloaded.toNat + (reports.map fun report => report.deltas.downloaded.toNat).sum =
        last.totals.downloaded.toNat

/-- What the code records for an announce that finds the totals `stored`. -/
def Recorded (stored : Option Totals) (report : TrafficReport) : Prop :=
  match stored with
  | none => report.isStopped = false ∧ report.deltas = .zero
  | some previous => report.deltas =
      if report.isStopped then previous.saturatingSince report.totals
      else previous.since report.totals

/-- The totals that an announce leaves. -/
def stored (report : TrafficReport) : Option Totals :=
  if report.isStopped then none else some report.totals

/-- What the code records for announces in a row, the first of which finds `stored`. -/
def AllRecorded : Option Totals → List TrafficReport → Prop
  | _, [] => True
  | stored, report :: reports => Recorded stored report ∧ AllRecorded report.stored reports

variable {previous last : TrafficReport} {reports : List TrafficReport}

lemma Recorded.follows (h : Recorded (some previous.totals) last) (hrunning : last.isStopped = false) :
    Follows previous last := by
  unfold Recorded at h
  rw [hrunning] at h
  exact h

/-- The final announce follows the rule unless it finds that the totals have diverged. -/
lemma Recorded.follows_iff (h : Recorded (some previous.totals) last)
    (hstopped : last.isStopped = true) :
    Follows previous last ↔ ¬ previous.totals.HasDiverged last.totals := by
  unfold Recorded at h
  rw [hstopped] at h
  unfold Follows
  rw [← Totals.saturatingSince_eq_since_iff]
  constructor
  · intro hfollows
    rw [← hfollows]
    exact h.symm
  · intro heq
    rw [← heq]
    exact h

lemma stored_of_running {report : TrafficReport} (h : report.isStopped = false) :
    report.stored = some report.totals := by
  rw [stored, h]
  rfl

/-- Announces in a row that do not stop the peer, and the one after them. -/
lemma AllRecorded.chain (h : AllRecorded previous.stored (reports ++ [last]))
    (hprevious : previous.isStopped = false) (hrunning : ∀ report ∈ reports, report.isStopped = false) :
    (previous :: reports).IsChain Follows ∧
      ∃ final, (previous :: reports).getLast? = some final ∧ Recorded (some final.totals) last := by
  induction reports generalizing previous with
  | nil =>
    rw [stored_of_running hprevious] at h
    exact ⟨List.isChain_singleton previous, previous, rfl, h.1⟩
  | cons report reports ih =>
    rw [stored_of_running hprevious] at h
    have hreport : report.isStopped = false := hrunning report List.mem_cons_self
    obtain ⟨hchain, final, hfinal, hlast⟩ :=
      ih h.2 hreport fun report' hmem => hrunning report' (List.mem_cons_of_mem report hmem)
    refine ⟨List.isChain_cons_cons.mpr ⟨h.1.follows hreport, hchain⟩, final, ?_, hlast⟩
    rw [List.getLast?_cons_cons]
    exact hfinal

/-- Differences along a growing total sum to the difference of its ends. -/
lemma sum_deltas (total delta : TrafficReport → UInt64) {first : TrafficReport}
    (h : (first :: reports).IsChain fun previous report =>
      total previous ≤ total report ∧ delta report = total report - total previous)
    (hlast : (first :: reports).getLast? = some last) :
    (total first).toNat + (reports.map fun report => (delta report).toNat).sum = (total last).toNat := by
  induction reports generalizing first with
  | nil =>
    simp only [List.getLast?_singleton, Option.some_inj] at hlast
    rw [hlast, List.map_nil, List.sum_nil, Nat.add_zero]
  | cons report reports ih =>
    rw [List.isChain_cons_cons] at h
    rw [List.getLast?_cons_cons] at hlast
    have hrest := ih h.2 hlast
    have hle : (total first).toNat ≤ (total report).toNat := UInt64.le_iff_toNat_le.mp h.1.1
    rw [List.map_cons, List.sum_cons, h.1.2, UInt64.toNat_sub_of_le _ _ h.1.1]
    omega

/-- Where the rule holds and no total decreases, the deltas sum up. -/
lemma FollowRule.telescope (h : FollowRule reports) (hgrow : NeverDecrease reports) :
    Telescope reports := by
  intro first last hfirst hlast
  cases reports with
  | nil => simp at hfirst
  | cons first' reports =>
    simp only [List.head?_cons, Option.some_inj] at hfirst
    subst hfirst
    have hzero : first'.deltas = .zero := h.1 first' rfl
    have hsteps : (first' :: reports).IsChain fun previous report =>
        ¬ previous.totals.HasDecreased report.totals ∧ Follows previous report := by
      rw [List.isChain_iff_getElem]
      intro i hi
      exact ⟨List.isChain_iff_getElem.mp hgrow i hi, List.isChain_iff_getElem.mp h.2 i hi⟩
    rw [List.map_cons, List.map_cons, List.sum_cons, List.sum_cons, hzero]
    simp only [Totals.zero, UInt64.toNat_zero, Nat.zero_add]
    constructor
    · refine sum_deltas (fun report => report.totals.uploaded) (fun report => report.deltas.uploaded)
        (hsteps.imp fun previous report ⟨hgrow, hfollows⟩ => ?_) hlast
      exact ⟨UInt64.not_lt.mp fun hlt => hgrow (Or.inl hlt),
        congrArg Totals.uploaded (hfollows.trans (if_neg hgrow))⟩
    · refine sum_deltas (fun report => report.totals.downloaded)
        (fun report => report.deltas.downloaded) (hsteps.imp fun previous report ⟨hgrow, hfollows⟩ => ?_)
        hlast
      exact ⟨UInt64.not_lt.mp fun hlt => hgrow (Or.inr hlt),
        congrArg Totals.downloaded (hfollows.trans (if_neg hgrow))⟩

end TrafficReport

open TrafficReport

section Announce

variable {config : Config F} {now : DateTime} {queries : Announce} {clientIp : IpAddr}
  {userId : UInt32} {isConnectable hit : Bool} {warnings : WarningCollection}
  {peers peers' : PeerStore} {change : PeerChange}

/-- What an announce that changes a peer reports and records. -/
def Announce.trafficReport (queries : Announce) (change : PeerChange) : TrafficReport where
  totals := ⟨queries.uploaded, queries.downloaded⟩
  deltas := ⟨change.uploadedDelta, change.downloadedDelta⟩
  isStopped := queries.event = .stopped

lemma changePeer_recorded
    (h : changePeer config now queries clientIp userId isConnectable hit warnings peers =
      (peers', .ok change)) :
    Recorded ((peers.get? ⟨userId, queries.peerId⟩).map Peer.totals) (queries.trafficReport change) := by
  unfold Recorded Announce.trafficReport
  cases changePeer_ok h with
  | stops hevent hpeer =>
    rw [hpeer]
    simp only [Option.map_some, hevent, decide_true, if_true]
    rfl
  | inserts hevent hpeer hnew hlimit =>
    rw [hpeer]
    exact ⟨decide_eq_false hevent, rfl⟩
  | @renews peer newPeer hevent hpeer hnew =>
    rw [hpeer]
    simp only [Option.map_some, hevent, decide_false, Bool.false_eq_true, if_false]
    unfold Totals.since Totals.HasDecreased Peer.totals Totals.zero
    by_cases hrestarted : queries.uploaded < peer.uploaded ∨ queries.downloaded < peer.downloaded
    · simp [hrestarted]
    · simp [hrestarted]

lemma totals_announcedPeer (old : Option Peer) :
    (announcedPeer config now queries clientIp isConnectable hit old).map Peer.totals =
      (queries.trafficReport change).stored := by
  unfold announcedPeer TrafficReport.stored Announce.trafficReport
  by_cases hs : queries.event = .stopped
  · simp [hs]
  · simp only [hs, if_false, decide_false, Bool.false_eq_true]
    cases old <;> rfl

end Announce

/-- What an accepted announce reports, and what it records for the history. -/
def Accepted.trafficReport (config : Config F) (env : Env F) (request : AnnounceRequest)
    (a : Accepted F) : TrafficReport :=
  let update := a.historyUpdate config env request
  { totals := ⟨update.uploaded, update.downloaded⟩
    deltas := ⟨update.uploadedDelta, update.downloadedDelta⟩
    isStopped := request.queries.event = .stopped }

namespace Tracker

variable (key : PeerUpdate.Index)

/-- The totals that are stored for a peer. -/
def totals? (tracker : Tracker F) : Option Totals :=
  (tracker.state.stores.torrents.peer? key).map Peer.totals

variable [RateField F]

/-- The accepted announces of a peer. -/
def trafficReports (tracker : Tracker F) : TrackerEvent F → List TrafficReport
  | .announce config env request =>
    match ((announce config env request).run tracker.state).2 with
    | .ok a =>
      if key = ⟨a.userId, a.torrentId, request.queries.peerId⟩ then
        [a.trafficReport config env request]
      else []
    | .error _ => []
  | _ => []

/-- A reap does not erase the peer. -/
def KeepsPeer (tracker : Tracker F) : TrackerEvent F → Prop
  | .reap config activeNow inactiveNow => tracker.state.stores.torrents.peer? key ≠ none →
      (tracker.step (.reap config activeNow inactiveNow)).state.stores.torrents.peer? key ≠ none
  | _ => True

variable {key} {tracker : Tracker F}

lemma totals?_announce {config : Config F} {env : Env F} {request : AnnounceRequest} {a : Accepted F}
    {torrent torrent' : Torrent} (h : AcceptedBy config env request tracker.state a torrent torrent')
    (hkey : key = ⟨a.userId, a.torrentId, request.queries.peerId⟩) :
    Recorded (tracker.totals? key) (a.trafficReport config env request) ∧
      (tracker.step (.announce config env request)).totals? key =
        (a.trafficReport config env request).stored := by
  have htorrents := h.torrents_eq
  simp only [totals?, step, htorrents]
  rw [h.torrents.announcedPeer hkey]
  obtain ⟨peers', hp, -, -⟩ := changeTorrent_ok h.torrents.change
  constructor
  · have hrecorded := changePeer_recorded hp
    subst hkey
    have hold : tracker.state.stores.torrents.peer? ⟨a.userId, a.torrentId, request.queries.peerId⟩ =
        torrent.peers.get? ⟨a.userId, request.queries.peerId⟩ :=
      TorrentStore.peer?_of_get? h.torrents.stored
    rw [hold]
    exact hrecorded
  · exact totals_announcedPeer _

/-- A reap that keeps the peer keeps its totals. -/
lemma totals?_reap {config : Config F} {activeNow inactiveNow : DateTime}
    (hkeeps : tracker.KeepsPeer key (.reap config activeNow inactiveNow)) :
    (tracker.step (.reap config activeNow inactiveNow)).totals? key = tracker.totals? key := by
  unfold KeepsPeer at hkeeps
  simp only [totals?, step] at hkeeps ⊢
  cases hr : reap config activeNow inactiveNow tracker.state with
  | none => rfl
  | some state =>
    obtain ⟨activeCutoff, inactiveCutoff, rfl⟩ := reap_some hr
    rw [hr, Option.getD_some, peer?_reapTorrents] at hkeeps
    rw [Option.getD_some, peer?_reapTorrents]
    cases hp : tracker.state.stores.torrents.peer? key with
    | none => rfl
    | some peer =>
      rw [hp] at hkeeps
      have hkept := hkeeps (Option.some_ne_none peer)
      rw [Option.filter_some] at hkept ⊢
      split_ifs at hkept ⊢ with hrecent
      · simp only [Option.map_some, Option.some_inj]
        unfold Peer.expire
        split_ifs
        · rfl
        · rfl
      · simp at hkept

/-- An event either is an announce of the peer or keeps its totals. -/
lemma step_traffic (event : TrackerEvent F) (hkeeps : tracker.KeepsPeer key event) :
    (tracker.trafficReports key event = [] ∧ (tracker.step event).totals? key = tracker.totals? key) ∨
      ∃ report, tracker.trafficReports key event = [report] ∧
        Recorded (tracker.totals? key) report ∧ (tracker.step event).totals? key = report.stored := by
  cases event with
  | announce config env request =>
    simp only [trafficReports]
    cases hr : ((announce config env request).run tracker.state).2 with
    | error e =>
      refine Or.inl ⟨rfl, ?_⟩
      simp only [totals?, step, (stores_of_rejected hr).2]
    | ok a =>
      obtain ⟨torrent, torrent', h⟩ := announce_ok hr
      by_cases hkey : key = ⟨a.userId, a.torrentId, request.queries.peerId⟩
      · refine Or.inr ⟨_, if_pos hkey, ?_⟩
        exact totals?_announce h hkey
      · refine Or.inl ⟨if_neg hkey, ?_⟩
        have htorrents := h.torrents_eq
        simp only [totals?, step, htorrents]
        rw [h.torrents.peer?_of_ne hkey]
  | reap config activeNow inactiveNow => exact Or.inl ⟨rfl, totals?_reap hkeeps⟩
  | flushHistories event => exact Or.inl ⟨rfl, rfl⟩
  | flushPeers event => exact Or.inl ⟨rfl, rfl⟩
  | flushTorrents event => exact Or.inl ⟨rfl, rfl⟩
  | flushUsers event => exact Or.inl ⟨rfl, rfl⟩

/-- Every announce of a peer is recorded against the one before. -/
lemma allRecorded_run {events : List (TrackerEvent F)}
    (hkeeps : Along Tracker.step (KeepsPeer key) tracker events) :
    AllRecorded (tracker.totals? key) (log Tracker.step (trafficReports key) tracker events) := by
  induction events generalizing tracker with
  | nil => trivial
  | cons event events ih =>
    have hrest := ih hkeeps.2
    unfold log
    rcases step_traffic event hkeeps.1 with ⟨hnone, hsame⟩ | ⟨report, hone, hrecorded, hstored⟩
    · rw [hnone, ← hsame]
      exact hrest
    · rw [hone]
      rw [hstored] at hrest
      exact ⟨hrecorded, hrest⟩

end Tracker

variable [RateField F]

/-- Over the life of a peer, which starts absent and which no reap erases, up to the announce that
stops it, the deltas follow the rule exactly when the totals do not diverge in the last announce. -/
theorem traffic_follows_rule_iff (tracker : Tracker F) (events : List (TrackerEvent F))
    (key : PeerUpdate.Index) (habsent : tracker.state.stores.torrents.peer? key = none)
    (hkeeps : Along Tracker.step (Tracker.KeepsPeer key) tracker events)
    (reports : List TrafficReport) (last : TrafficReport)
    (hreports : log Tracker.step (Tracker.trafficReports key) tracker events = reports ++ [last])
    (hrunning : ∀ report ∈ reports, report.isStopped = false) (hstopped : last.isStopped = true) :
    (FollowRule (reports ++ [last]) ∧
        (NeverDecrease (reports ++ [last]) → Telescope (reports ++ [last]))) ↔
      ∀ previous, reports.getLast? = some previous →
        ¬ previous.totals.HasDiverged last.totals := by
  have hrecorded := Tracker.allRecorded_run hkeeps
  rw [hreports, Tracker.totals?, habsent, Option.map_none] at hrecorded
  cases reports with
  | nil =>
    -- nothing is recorded for a peer that is not there
    have hnot : last.isStopped = false := hrecorded.1.1
    rw [hstopped] at hnot
    simp at hnot
  | cons first reports =>
    have hfirst : first.deltas = .zero := hrecorded.1.2
    obtain ⟨hchain, final, hfinal, hlast⟩ := hrecorded.2.chain (hrunning first List.mem_cons_self)
      fun report hmem => hrunning report (List.mem_cons_of_mem first hmem)
    have hrule : FollowRule (first :: reports ++ [last]) ↔ Follows final last := by
      unfold FollowRule
      rw [List.isChain_append, hfinal]
      simp [hfirst, hchain]
    rw [hfinal]
    simp only [Option.some_inj, forall_eq']
    rw [← hlast.follows_iff hstopped, ← hrule]
    exact ⟨fun h => h.1, fun h => ⟨h, h.telescope⟩⟩

/-- A leecher's announce with its totals. -/
def Sample.totalling (now : ℤ) (event : AnnounceEvent) (totals : Totals) : TrackerEvent ℝ :=
  .announce config (env now) { request 1 1 event 5 with queries := {
    (request 1 1 event 5).queries with
      uploaded := totals.uploaded
      downloaded := totals.downloaded } }

/-- A peer that a reap makes inactive before it goes on and stops. -/
def Sample.life : List (TrackerEvent ℝ) :=
  [totalling 0 .started ⟨100, 100⟩, .reap config (time 8000) (time 8000),
    totalling 9000 .empty ⟨150, 300⟩, totalling 9060 .stopped ⟨400, 350⟩]

theorem traffic_follows_rule_iff_sample :
    (FollowRule [⟨⟨100, 100⟩, ⟨0, 0⟩, false⟩, ⟨⟨150, 300⟩, ⟨50, 200⟩, false⟩,
        ⟨⟨400, 350⟩, ⟨250, 50⟩, true⟩] ∧
      (NeverDecrease [⟨⟨100, 100⟩, ⟨0, 0⟩, false⟩, ⟨⟨150, 300⟩, ⟨50, 200⟩, false⟩,
          ⟨⟨400, 350⟩, ⟨250, 50⟩, true⟩] →
        Telescope [⟨⟨100, 100⟩, ⟨0, 0⟩, false⟩, ⟨⟨150, 300⟩, ⟨50, 200⟩, false⟩,
          ⟨⟨400, 350⟩, ⟨250, 50⟩, true⟩])) ↔
      ∀ previous, [(⟨⟨100, 100⟩, ⟨0, 0⟩, false⟩ : TrafficReport),
          ⟨⟨150, 300⟩, ⟨50, 200⟩, false⟩].getLast? = some previous →
        ¬ previous.totals.HasDiverged ⟨400, 350⟩ :=
  traffic_follows_rule_iff (Sample.tracker none [1]) Sample.life ⟨1, 1, Sample.peerId 1⟩
    (by decide +kernel) ⟨trivial, fun _ => by decide +kernel, trivial, trivial, trivial⟩
    [⟨⟨100, 100⟩, ⟨0, 0⟩, false⟩, ⟨⟨150, 300⟩, ⟨50, 200⟩, false⟩] ⟨⟨400, 350⟩, ⟨250, 50⟩, true⟩
    (by decide +kernel) (by decide +kernel) rfl

/-- The client stops with a greater upload and a smaller download than it started with. -/
theorem traffic_breaks_rule :
    ¬ ∀ (tracker : Tracker ℝ) events key, tracker.state.stores.torrents.peer? key = none →
      Along Tracker.step (Tracker.KeepsPeer key) tracker events → ∀ reports last,
      log Tracker.step (Tracker.trafficReports key) tracker events = reports ++ [last] →
      (∀ report ∈ reports, report.isStopped = false) → last.isStopped = true →
      FollowRule (reports ++ [last]) ∧
        (NeverDecrease (reports ++ [last]) → Telescope (reports ++ [last])) := by
  intro h
  have hrule := h (Sample.tracker none [1])
    [Sample.totalling 0 .started ⟨100, 100⟩, Sample.totalling 60 .stopped ⟨200, 50⟩]
    ⟨1, 1, Sample.peerId 1⟩ (by decide +kernel) ⟨trivial, trivial, trivial⟩
    [⟨⟨100, 100⟩, ⟨0, 0⟩, false⟩] ⟨⟨200, 50⟩, ⟨100, 0⟩, true⟩ (by decide +kernel) (by decide +kernel) rfl
  have hfollows := List.isChain_pair.mp hrule.1.2
  revert hfollows
  unfold Follows
  decide +kernel

end Unit3dAnnounce
