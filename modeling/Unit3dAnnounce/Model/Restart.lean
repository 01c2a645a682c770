import Unit3dAnnounce.Model.Tracker

/-!
# Restarting

A tracker starts with empty queues and the stores that the database holds. What it has flushed is what
the next tracker starts with, its times as the columns hold them.
-/

namespace Unit3dAnnounce

/-- A row with the columns that flushes write, if they have written any. -/
def TorrentRow.withTotals (row : TorrentRow) : Option TorrentTotals → TorrentRow
  | some totals =>
    { row with
      seeders := totals.seeders
      leechers := totals.leechers
      timesCompleted := totals.timesCompleted }
  | none => row

def PeerRow.stored (second : DateTime → ℤ) (row : PeerRow) : PeerRow :=
  { row with
    createdAt := row.createdAt.map (storedTime second)
    updatedAt := row.updatedAt.map (storedTime second) }

namespace Tracker

variable {F : Type}

def atStartup (stores : Stores F) (db : Database)
    (histories : IndexMap HistoryUpdate.Index HistoryRow)
    (torrents : IndexMap TorrentUpdate.Index TorrentTotals)
    (users : IndexMap UserUpdate.Index UserTotals) : Tracker F where
  state := ⟨Queues.new, stores⟩
  histories := ⟨[], histories⟩
  peers := ⟨[], db.peers⟩
  torrents := ⟨[], torrents⟩
  users := ⟨[], users⟩

/-- The database after what the tracker has flushed, where nothing else writes to it. -/
def database (tracker : Tracker F) (second : DateTime → ℤ) (db : Database) : Database :=
  { db with
    peers := tracker.peers.table.mapValues fun _ => PeerRow.stored second
    torrents := db.torrents.mapValues fun id row =>
      row.withTotals (tracker.torrents.table.get? ⟨id⟩) }

end Tracker

end Unit3dAnnounce
