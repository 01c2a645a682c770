import Unit3dAnnounce.Model.Scheduler
import Unit3dAnnounce.Model.Statement

/-!
# Work in the background

The arithmetic on configured values that the scheduler, the flush of the histories and the
connectivity check do. `none` is an overflow, a remainder by zero or a panic.
-/

namespace Unit3dAnnounce

variable {F : Type}

def checkedAddU64 (x y : UInt64) : Option UInt64 :=
  if x.toNat + y.toNat < 2 ^ 64 then some (x + y) else none

def checkedMulU64 (x y : UInt64) : Option UInt64 :=
  if x.toNat * y.toNat < 2 ^ 64 then some (x * y) else none

def checkedRemU64 (x y : UInt64) : Option UInt64 := if y = 0 then none else some (x % y)

/-- `Duration::seconds`. -/
def durationSeconds (n : ℤ) : Option ℤ := if |n| ≤ (2 ^ 63 - 1) / 1000 then some (seconds n) else none

/-- What the scheduler does at a tick. -/
structure Tick where
  counter : UInt64
  flushes : Bool
  reaps : Bool

/-- The loop of the scheduler, which ticks every millisecond, up to its awaits. -/
def schedulerTick (config : Config F) (counter : UInt64) : Option Tick := do
  let counter ← checkedAddU64 counter 1
  let flushPhase ← checkedRemU64 counter config.flushIntervalMilliseconds
  let peerExpiryMilliseconds ← checkedMulU64 config.peerExpiryInterval 1000
  let reapPhase ← checkedRemU64 counter peerExpiryMilliseconds
  return ⟨counter, flushPhase = 0, reapPhase = 0⟩

/-- How many records `take_batches` may take. -/
def Queue.takeLimit {K V : Type} (config : Config F) (queue : Queue K V) : Option UInt64 :=
  checkedMulU64 config.maxBatchesPerFlush (queue.config.maxBatchSize config)

/-- What `flush_to_db` binds for a batch of histories. -/
def Batch.historyBindings (config : Config F) (now : DateTime)
    (batch : Batch HistoryUpdate.Index HistoryUpdate) : Option (List Binding) :=
  if batch.size = 0 then some []
  else do
    let ttl ← checkedAddU64 config.activePeerTtl config.peerExpiryInterval
    return batch.entries.flatMap (fun record => Statement.pushValues now record.1 record.2) ++ [.u64 ttl]

/-- What the connectivity check finds in its cache for a socket. -/
def cachedConnectivity (config : Config F) (now : DateTime) (connectablePort : Option ConnectablePort) :
    Option (Option Bool) :=
  match config.isConnectivityCheckEnabled, connectablePort with
  | true, some connectablePort => do
    let ttl ← durationSeconds config.connectivityCheckInterval
    if (checkedAddSigned connectablePort.updatedAt ttl).any fun cachedUntil => decide (now < cachedUntil)
    then return some connectablePort.connectable
    else return none
  | _, _ => some none

end Unit3dAnnounce
