import Unit3dAnnounce.Model.Sample
import Unit3dAnnounce.Proofs.Announce

/-!
# Failing announces

Each of the many exits of an announce comes before its effects or undoes them. The peer that is
inserted before the limit is checked is the last of its map, so taking it out restores the map.
-/

namespace Unit3dAnnounce

open Machine

variable {F : Type} [RateField F]

/-- An announce that returns an error leaves no trace. Only the connectivity cache may differ, and
the queue of unregistered info hashes, the latter only if the user is known and the info hash is
unknown or its torrent deleted. -/
theorem failed_announce_leaves_no_trace (config : Config F) (env : Env F)
    (request : AnnounceRequest) (state state' : AppState F) (e : AnnounceError)
    (h : (announce config env request).run state = (state', .error e)) :
    state'.stores = { state.stores with connectablePorts := state'.stores.connectablePorts } ∧
      state'.queues = { state.queues with
        unregisteredInfoHashes := state'.queues.unregisteredInfoHashes } ∧
      (state'.queues.unregisteredInfoHashes ≠ state.queues.unregisteredInfoHashes →
        request.UserKnown state ∧ request.Unregistered state) := by
  have hrejected := announce_error (congrArg Prod.snd h)
  rw [h] at hrejected
  obtain ⟨⟨ports, hstores⟩, hqueues⟩ := hrejected
  simp only at hstores hqueues
  rw [hstores]
  refine ⟨rfl, ?_⟩
  rcases hqueues with hq | ⟨hknown, hunregistered, queue, hq⟩
  · rw [hq]
    exact ⟨rfl, fun hne => absurd rfl hne⟩
  · rw [hq]
    exact ⟨rfl, fun _ => ⟨hknown, hunregistered⟩⟩

/-- A second peer of the user is refused when one is allowed, although it was already inserted. -/
theorem failed_announce_over_limit :
    let state := perform Sample.onePeerConfig (Sample.state none [1])
      (.announce (Sample.env 0) (Sample.request 1 1 .started 5))
    let state' := perform Sample.onePeerConfig state
      (.announce (Sample.env 60) (Sample.request 1 2 .started 5))
    state'.stores = { state.stores with connectablePorts := state'.stores.connectablePorts } :=
  (failed_announce_leaves_no_trace Sample.onePeerConfig (Sample.env 60)
    (Sample.request 1 2 .started 5) _ _ (.peersPerTorrentPerUserLimit 1)
    (Prod.ext rfl (Sample.eq_error_of_error? (by decide +kernel)))).1

end Unit3dAnnounce
