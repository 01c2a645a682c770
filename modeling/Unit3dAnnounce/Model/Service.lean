import Unit3dAnnounce.Model.Concurrency
import Unit3dAnnounce.Model.Operation

/-!
# The tracker as a service

Announces and the other requests take their sections in any order. The requests by which UNIT3D tells of
a row of a table take one section each, and reaps come in between.
-/

namespace Unit3dAnnounce

open Machine

variable {F : Type}

inductive TableRequest where
  | upsertGroup (group : APIInsertGroup)
  | destroyGroup (group : APIRemoveGroup)
  | upsertFeaturedTorrent (torrentId : UInt32)
  | destroyFeaturedTorrent (torrentId : UInt32)
  | upsertFreeleechToken (token : FreeleechToken)
  | destroyFreeleechToken (token : FreeleechToken)
  | upsertPersonalFreeleech (userId : UInt32)
  | destroyPersonalFreeleech (userId : UInt32)
  | upsertBlacklistedAgent (peerIdPrefix : List UInt8)
  | destroyBlacklistedAgent (peerIdPrefix : List UInt8)

def TableRequest.handle (state : AppState F) : TableRequest → AppState F
  | .upsertGroup group => (Unit3dAnnounce.upsertGroup group state).1
  | .destroyGroup group => (Unit3dAnnounce.destroyGroup group state).1
  | .upsertFeaturedTorrent torrentId => Unit3dAnnounce.upsertFeaturedTorrent torrentId state
  | .destroyFeaturedTorrent torrentId => Unit3dAnnounce.destroyFeaturedTorrent torrentId state
  | .upsertFreeleechToken token => Unit3dAnnounce.upsertFreeleechToken token state
  | .destroyFreeleechToken token => Unit3dAnnounce.destroyFreeleechToken token state
  | .upsertPersonalFreeleech userId => Unit3dAnnounce.upsertPersonalFreeleech userId state
  | .destroyPersonalFreeleech userId => Unit3dAnnounce.destroyPersonalFreeleech userId state
  | .upsertBlacklistedAgent peerIdPrefix => Unit3dAnnounce.upsertBlacklistedAgent peerIdPrefix state
  | .destroyBlacklistedAgent peerIdPrefix => Unit3dAnnounce.destroyBlacklistedAgent peerIdPrefix state

section Serving

variable [RateField F]

/-- The requests that take more than one section, and the removal of a torrent. -/
inductive ServiceCall (F : Type) where
  | announce (call : AnnounceCall F)
  | upsertTorrent (torrent : APIInsertTorrent)
  | destroyTorrent (torrent : APIRemoveTorrent)
  | upsertUser (upsert : UserUpsert F)
  | destroyUser (user : APIRemoveUser)

namespace ServiceCall

abbrev Result : ServiceCall F → Type
  | .announce _ => Except AnnounceError (Accepted F)
  | _ => StatusCode

def handler : (call : ServiceCall F) → Handler LockSection (AppState F) call.Result
  | .announce call => call.handler
  | .upsertTorrent torrent => Unit3dAnnounce.upsertTorrent torrent
  | .destroyTorrent torrent => Unit3dAnnounce.destroyTorrent torrent
  | .upsertUser upsert => upsert.handler
  | .destroyUser user => Unit3dAnnounce.destroyUser user

end ServiceCall

variable {ι : Type}

structure Service (calls : ι → ServiceCall F) where
  world : World LockSection (AppState F) fun i => (calls i).Result

inductive ServiceEvent (F ι : Type) where
  | advance (i : ι)
  | reap (config : Config F) (activeNow inactiveNow : DateTime)
  | request (request : TableRequest)

namespace Service

variable {calls : ι → ServiceCall F}

/-- A tracker that has just started. None of the calls has entered a section yet. -/
def atStartup (calls : ι → ServiceCall F) (stores : Stores F) : Service calls where
  world := ⟨⟨Queues.new, stores⟩, fun i => (calls i).handler⟩

def step [DecidableEq ι] (service : Service calls) : ServiceEvent F ι → Service calls
  | .advance i => { world := service.world.step i }
  | .reap config activeNow inactiveNow =>
    { service with
      world.state := (reap config activeNow inactiveNow service.world.state).getD service.world.state }
  | .request request => { service with world.state := request.handle service.world.state }

end Service

end Serving

end Unit3dAnnounce
