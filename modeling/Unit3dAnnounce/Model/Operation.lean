import Unit3dAnnounce.Machine.Run
import Unit3dAnnounce.Model.Api
import Unit3dAnnounce.Model.Scheduler

/-!
# Complete operations

The tracker as a machine that serves one announce, reap or torrent removal at a time.
-/

namespace Unit3dAnnounce

inductive Operation (F : Type) where
  | announce (env : Env F) (request : AnnounceRequest)
  | reap (activeNow inactiveNow : DateTime)
  | destroyTorrent (torrent : APIRemoveTorrent)

variable {F : Type} [RateField F]

/-- The state after an operation. A reap that panics leaves it as it was. -/
def perform (config : Config F) (state : AppState F) : Operation F → AppState F
  | .announce env request => ((announce config env request).run state).1
  | .reap activeNow inactiveNow => (reap config activeNow inactiveNow state).getD state
  | .destroyTorrent torrent => ((destroyTorrent torrent).run state).1

end Unit3dAnnounce
