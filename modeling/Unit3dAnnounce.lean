import Unit3dAnnounce.Arithmetic.Decay
import Unit3dAnnounce.Arithmetic.Saturating
import Unit3dAnnounce.Collections.Cuts
import Unit3dAnnounce.Collections.IndexMap
import Unit3dAnnounce.Collections.MergeTree
import Unit3dAnnounce.Collections.Preference
import Unit3dAnnounce.Collections.Separated
import Unit3dAnnounce.Format.Address
import Unit3dAnnounce.Format.Bencode
import Unit3dAnnounce.Format.Binary64
import Unit3dAnnounce.Format.Numeral
import Unit3dAnnounce.Machine.Fallible
import Unit3dAnnounce.Machine.Handler
import Unit3dAnnounce.Machine.Journal
import Unit3dAnnounce.Machine.Parallel
import Unit3dAnnounce.Machine.Run
import Unit3dAnnounce.Model.Announce
import Unit3dAnnounce.Model.Api
import Unit3dAnnounce.Model.Background
import Unit3dAnnounce.Model.ClientIp
import Unit3dAnnounce.Model.Concurrency
import Unit3dAnnounce.Model.Config
import Unit3dAnnounce.Model.Environment
import Unit3dAnnounce.Model.Flush
import Unit3dAnnounce.Model.Operation
import Unit3dAnnounce.Model.Outbox
import Unit3dAnnounce.Model.ParallelReap
import Unit3dAnnounce.Model.Query
import Unit3dAnnounce.Model.Queue
import Unit3dAnnounce.Model.Response
import Unit3dAnnounce.Model.Restart
import Unit3dAnnounce.Model.Roster
import Unit3dAnnounce.Model.Sample
import Unit3dAnnounce.Model.Scheduler
import Unit3dAnnounce.Model.Service
import Unit3dAnnounce.Model.Shutdown
import Unit3dAnnounce.Model.Startup
import Unit3dAnnounce.Model.Statement
import Unit3dAnnounce.Model.Store
import Unit3dAnnounce.Model.Tracker
import Unit3dAnnounce.Model.Types
import Unit3dAnnounce.Proofs.Accounting
import Unit3dAnnounce.Proofs.Announce
import Unit3dAnnounce.Proofs.Batching
import Unit3dAnnounce.Proofs.ClientIp
import Unit3dAnnounce.Proofs.Coalescing
import Unit3dAnnounce.Proofs.Configuration
import Unit3dAnnounce.Proofs.Counters
import Unit3dAnnounce.Proofs.Credit
import Unit3dAnnounce.Proofs.Failure
import Unit3dAnnounce.Proofs.HexText
import Unit3dAnnounce.Proofs.Histories
import Unit3dAnnounce.Proofs.InfoHashes
import Unit3dAnnounce.Proofs.Lists
import Unit3dAnnounce.Proofs.MergeOrder
import Unit3dAnnounce.Proofs.Outbox
import Unit3dAnnounce.Proofs.ParallelReap
import Unit3dAnnounce.Proofs.Passkeys
import Unit3dAnnounce.Proofs.PeerLimit
import Unit3dAnnounce.Proofs.PeerOrder
import Unit3dAnnounce.Proofs.PeerRows
import Unit3dAnnounce.Proofs.PeerSelection
import Unit3dAnnounce.Proofs.Peers
import Unit3dAnnounce.Proofs.PersistedPeers
import Unit3dAnnounce.Proofs.Phases
import Unit3dAnnounce.Proofs.Pipeline
import Unit3dAnnounce.Proofs.Provenance
import Unit3dAnnounce.Proofs.Query
import Unit3dAnnounce.Proofs.QueryEncoding
import Unit3dAnnounce.Proofs.RateLimits
import Unit3dAnnounce.Proofs.Reload
import Unit3dAnnounce.Proofs.Response
import Unit3dAnnounce.Proofs.Restart
import Unit3dAnnounce.Proofs.Revocation
import Unit3dAnnounce.Proofs.Roster
import Unit3dAnnounce.Proofs.Sections
import Unit3dAnnounce.Proofs.Shutdown
import Unit3dAnnounce.Proofs.Slots
import Unit3dAnnounce.Proofs.Startup
import Unit3dAnnounce.Proofs.StoredPeer
import Unit3dAnnounce.Proofs.Swarm
import Unit3dAnnounce.Proofs.Tables
import Unit3dAnnounce.Proofs.Torrents
import Unit3dAnnounce.Proofs.Tracker
import Unit3dAnnounce.Proofs.Traffic
import Unit3dAnnounce.Proofs.UrlDecoding
import Unit3dAnnounce.Proofs.UserCounters
import Unit3dAnnounce.Proofs.UserRates
import Unit3dAnnounce.WriteBehind.Cell
import Unit3dAnnounce.WriteBehind.Channel
import Unit3dAnnounce.WriteBehind.Content
