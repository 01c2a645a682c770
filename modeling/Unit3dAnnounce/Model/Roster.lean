import Unit3dAnnounce.Model.Service

/-!
# The roster of the swarms

What the torrent store is there for: to know who is at which torrent, where they can be reached and when
they have been seen last. Neither the order of the peers nor their counters matter for this.
-/

namespace Unit3dAnnounce

/-- What others may learn of a peer, and when it has announced last. -/
@[ext] structure Sighting where
  ipAddress : IpAddr
  port : UInt16
  isSeeder : Bool
  seenAt : DateTime
deriving DecidableEq

def Peer.sighting (peer : Peer) : Sighting where
  ipAddress := peer.ipAddress
  port := peer.port
  isSeeder := peer.isSeeder
  seenAt := peer.updatedAt

/-- The peers that are at the torrents. -/
abbrev Roster := PeerUpdate.Index → Option Sighting

namespace Roster

/-- Those at one torrent. -/
def part (roster : Roster) (torrentId : UInt32) (index : Peer.Index) : Option Sighting :=
  roster ⟨index.userId, torrentId, index.peerId⟩

/-- Another part for one torrent. -/
def withPart (roster : Roster) (torrentId : UInt32) (part : Peer.Index → Option Sighting) : Roster :=
  fun key => if key.torrentId = torrentId then part ⟨key.userId, key.peerId⟩ else roster key

end Roster

inductive RosterOp where
  /-- A peer comes, stays or leaves, and is told of others. -/
  | announce (key : PeerUpdate.Index) (sighting : Option Sighting) (given : List (Peer.Index × Peer))
  /-- All that have been seen too long ago are gone. -/
  | expire (activeCutoff : DateTime)
  /-- A torrent is taken out, with whoever is there. -/
  | takeOut (torrentId : UInt32) (part : Peer.Index → Option Sighting)
  /-- A torrent is put back, and replaces one that has been put there meanwhile. -/
  | putBack (torrentId : UInt32) (part : Peer.Index → Option Sighting)

inductive Roster.Step : Roster → RosterOp → Roster → Prop
  | announce {roster : Roster} {key : PeerUpdate.Index} {sighting : Option Sighting}
      {given : List (Peer.Index × Peer)}
      (hgiven : ∀ entry ∈ given, entry.1.userId ≠ key.userId ∧
        roster.part key.torrentId entry.1 = some entry.2.sighting)
      (hnodup : (given.map Prod.fst).Nodup) :
      Step roster (.announce key sighting given) (Function.update roster key sighting)
  | expire {roster : Roster} {activeCutoff : DateTime} :
      Step roster (.expire activeCutoff) fun key =>
        (roster key).filter fun sighting => decide (activeCutoff ≤ sighting.seenAt)
  | takeOut {roster : Roster} {torrentId : UInt32} :
      Step roster (.takeOut torrentId (roster.part torrentId)) (roster.withPart torrentId fun _ => none)
  | putBack {roster : Roster} {torrentId : UInt32} {part : Peer.Index → Option Sighting} :
      Step roster (.putBack torrentId part) (roster.withPart torrentId part)

end Unit3dAnnounce
