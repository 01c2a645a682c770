import Unit3dAnnounce.Model.Api
import Unit3dAnnounce.Model.Flush

/-!
# Requests served at once

The handlers of several requests take their sections in any order.
-/

namespace Unit3dAnnounce

open Machine

structure AnnounceCall (F : Type) where
  config : Config F
  env : Env F
  request : AnnounceRequest

variable {F : Type} [RateField F]

def AnnounceCall.handler (call : AnnounceCall F) :
    Handler LockSection (AppState F) (Except AnnounceError (Accepted F)) :=
  announce call.config call.env call.request

variable {ι κ : Type}

abbrev ServedResult (F ι κ : Type) : ι ⊕ κ → Type
  | .inl _ => Except AnnounceError (Accepted F)
  | .inr _ => StatusCode

/-- Announces alone, none of which has entered a section yet. -/
def serveAnnounces (announces : ι → AnnounceCall F) (state : AppState F) :
    World LockSection (AppState F) (fun _ : ι => Except AnnounceError (Accepted F)) where
  state := state
  handlers i := (announces i).handler

/-- Announces and torrent upserts, none of which has entered a section yet. -/
def serve (announces : ι → AnnounceCall F) (upserts : κ → APIInsertTorrent) (state : AppState F) :
    World LockSection (AppState F) (ServedResult F ι κ) where
  state := state
  handlers
    | .inl i => (announces i).handler
    | .inr j => upsertTorrent (upserts j)

structure UserUpsert (F : Type) where
  config : Config F
  user : APIInsertUser

def UserUpsert.handler (upsert : UserUpsert F) : Handler LockSection (AppState F) StatusCode :=
  upsertUser upsert.config upsert.user

/-- Announces and user upserts, none of which has entered a section yet. -/
def serveUsers (announces : ι → AnnounceCall F) (upserts : κ → UserUpsert F) (state : AppState F) :
    World LockSection (AppState F) (ServedResult F ι κ) where
  state := state
  handlers
    | .inl i => (announces i).handler
    | .inr j => (upserts j).handler

/-- Announces that are being served, and what is behind their queue of peers. -/
structure PeerService (ι F : Type) where
  world : World LockSection (AppState F) (fun _ : ι => Except AnnounceError (Accepted F))
  peers : Writes PeerUpdate.Index PeerUpdate PeerRow

/-- Announces none of which has entered a section yet, and whatever is behind their queue of peers. -/
def servePeers (announces : ι → AnnounceCall F) (state : AppState F)
    (peers : Writes PeerUpdate.Index PeerUpdate PeerRow) : PeerService ι F where
  world := serveAnnounces announces state
  peers := peers

namespace PeerService

def pipeline (service : PeerService ι F) : Pipeline PeerUpdate.Index PeerUpdate PeerRow :=
  ⟨service.world.state.queues.peers, service.peers⟩

/-- A section of an announce, or a step of a flush. -/
def step [DecidableEq ι] (service : PeerService ι F) : ι ⊕ FlushEvent F → PeerService ι F
  | .inl i => { service with world := service.world.step i }
  | .inr event =>
    let pipeline := service.pipeline.flush event
    { world := { service.world with state.queues.peers := pipeline.queue }
      peers := pipeline.writes }

end PeerService

end Unit3dAnnounce
