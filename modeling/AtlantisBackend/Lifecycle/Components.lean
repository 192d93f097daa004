import Mathlib.Data.Fintype.Basic
import Mathlib.Tactic.DeriveFintype

/-!
# The components of the full-node service

`New` opens the chain database and builds the blockchain, the bloom indexer, the transaction
pool, the protocol manager and the miner on it; `AddLesServer` attaches a light server to the
bloom indexer; `Start` starts the bloom-request handlers, the protocol manager and the light
server; `Stop` stops them all again.  Each of the three is the list of components it starts or
stops, in the order of the source, and `uses` is the wiring `New`, `Start` and `AddLesServer`
set up between them.
-/

namespace AtlantisBackend
namespace Lifecycle

/-- A component of the full-node service that runs goroutines of its own. -/
inductive Component
  /-- `s.eventMux`, the node's `ctx.EventMux`. -/
  | eventMux
  /-- `s.chainDb`. -/
  | chainDb
  /-- `s.blockchain`. -/
  | blockchain
  /-- `s.bloomIndexer`. -/
  | bloomIndexer
  /-- `s.txPool`. -/
  | txPool
  /-- `s.protocolManager`. -/
  | protocolManager
  /-- `s.miner`. -/
  | miner
  /-- `s.lesServer`. -/
  | lesServer
  /-- The bloom-request handlers of `startBloomHandlers`, running until `shutdownChan` closes. -/
  | bloomHandlers
  deriving DecidableEq, Repr, Fintype

/-- Whether `user` operates on `used`: the bloom indexer is built on the chain database and
started on the blockchain, the blockchain on the database, the pool on the blockchain; the
protocol manager is handed the pool, the blockchain, the database and the event mux, the miner
the service (its blockchain and pool) and the event mux; `AddLesServer` hands the light server
the bloom indexer, and the bloom-request handlers read the database. -/
def uses : Component → Component → Bool
  | .bloomIndexer, .chainDb | .bloomIndexer, .blockchain => true
  | .blockchain, .chainDb => true
  | .txPool, .blockchain => true
  | .protocolManager, .txPool | .protocolManager, .blockchain | .protocolManager, .chainDb
  | .protocolManager, .eventMux => true
  | .miner, .blockchain | .miner, .txPool | .miner, .eventMux => true
  | .lesServer, .bloomIndexer => true
  | .bloomHandlers, .chainDb => true
  | _, _ => false

/-- What the lifecycle depends on. -/
structure Setup where
  /-- Whether `AddLesServer` attached a light server before `Start`. -/
  lesServer : Bool
  /-- `s.config.LightServ`. -/
  lightServ : Int
  /-- `s.config.LightPeers`. -/
  lightPeers : Int
  /-- `srvr.MaxPeers`. -/
  maxPeers : Int

/-- The peer count `Start` hands `protocolManager.Start`, or the error it returns instead. -/
def peerLimit (setup : Setup) : Except String Int :=
  if setup.lightServ > 0 then
    if setup.lightPeers ≥ setup.maxPeers then
      .error ("invalid peer config: light peer count (" ++ toString setup.lightPeers ++
        ") >= total peer count (" ++ toString setup.maxPeers ++ ")")
    else .ok (setup.maxPeers - setup.lightPeers)
  else .ok setup.maxPeers

/-- The components running once `New` returned, in the order they start: the node's event
mux, `CreateDB`, `core.NewBlockChain`, `bloomIndexer.Start`, `core.NewTxPool` and `miner.New`. -/
def newOrder : List Component :=
  [.eventMux, .chainDb, .blockchain, .bloomIndexer, .txPool, .miner]

/-- The components `Start` starts: `startBloomHandlers`, then, past the peer check,
`protocolManager.Start` and `lesServer.Start`. -/
def startOrder (setup : Setup) : List Component :=
  .bloomHandlers ::
    match peerLimit setup with
    | .ok _ => .protocolManager :: if setup.lesServer then [.lesServer] else []
    | .error _ => []

/-- The components `Stop` stops, in its order: `bloomIndexer.Close`, `blockchain.Stop`,
`protocolManager.Stop`, `lesServer.Stop`, `txPool.Stop`, `miner.Stop`, `eventMux.Stop`,
`chainDb.Close` and `close(s.shutdownChan)`. -/
def stopOrder (lesServer : Bool) : List Component :=
  [.bloomIndexer, .blockchain, .protocolManager] ++ (if lesServer then [.lesServer] else []) ++
    [.txPool, .miner, .eventMux, .chainDb, .bloomHandlers]

/-- Whether `Stop` stops `first` while `later` still runs. -/
def StoppedBefore (order : List Component) (first later : Component) : Prop :=
  ∃ j ≤ order.length, first ∈ order.take j ∧ later ∉ order.take j

instance (order : List Component) (first later : Component) :
    Decidable (StoppedBefore order first later) :=
  inferInstanceAs (Decidable (∃ j ≤ order.length, _))

end Lifecycle
end AtlantisBackend
