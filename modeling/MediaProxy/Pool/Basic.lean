import MediaProxy.Config
import MediaProxy.Pool.Slots

/-!
This module contains connection pools, which have as many connections of either flavor.
-/

namespace MediaProxy

structure Pool where
  blocking : Slots
  nonBlocking : Slots
  /--
  How long an acquisition waits, in milliseconds.
  -/
  timeout : Nat
  deriving DecidableEq, Repr

namespace Pool

/--
A pool without connections. It may have at least one of each flavor, whatever the configuration
says.
-/
def ofConfig (config : Config) : Pool :=
  let capacity := max 1 config.maxConnections.toNat
  { blocking := { capacity }, nonBlocking := { capacity }, timeout := config.acquireTimeout.toNat }

def slots (pool : Pool) : Flavor → Slots
  | .blocking => pool.blocking
  | .nonBlocking => pool.nonBlocking

def setSlots (pool : Pool) (flavor : Flavor) (slots : Slots) : Pool :=
  match flavor with
  | .blocking => { pool with blocking := slots }
  | .nonBlocking => { pool with nonBlocking := slots }

def stats (pool : Pool) : Stats :=
  pool.blocking.stats.merge pool.nonBlocking.stats

def exhausted (pool : Pool) (flavor : Flavor) : Error :=
  .resourceExhausted ("no " ++ flavor.name ++ " connection available after " ++
    toString pool.timeout ++ "ms (max " ++ toString (pool.slots flavor).capacity ++ ")")

def shown (pool : Pool) : String :=
  Text.record "ConnectionPool"
    [("blocking", pool.blocking.stats.shown), ("non_blocking", pool.nonBlocking.stats.shown)]

end Pool

end MediaProxy
