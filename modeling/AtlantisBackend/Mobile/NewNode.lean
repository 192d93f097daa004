import Mathlib.Tactic.SplitIfs
import Mathlib.Data.List.Basic

/-!
# Creating a node on a mobile platform

`NewNode` fills the defaults into a partial `NodeConfig`, builds the networking stack, parses
the genesis spec, and registers the light Atlantis service with its netstats reporter and the
Whisper service, returning an error at the first step that fails.  It writes the defaults and the
testnet network id into the caller's configuration.  What it leaves there is a fixed point:
`NewNode` run again on it builds the same node, or fails in the same way, and leaves it as it is.
-/

namespace AtlantisBackend
namespace Mobile

/-- `NodeConfig`, the configuration of a node embedded in a mobile process. -/
structure NodeConfig where
  /-- `BootstrapNodes`: `nil`, or the enodes of an `*Enodes`. -/
  bootstrapNodes : Option (List String)
  /-- `MaxPeers`. -/
  maxPeers : Int
  /-- `AtlantisEnabled`. -/
  atlantisEnabled : Bool
  /-- `AtlantisNetworkID`, an `int64` whose bits `uint64(...)` reads. -/
  atlantisNetworkID : BitVec 64
  /-- `AtlantisGenesis`, the genesis spec in JSON, empty for the main net. -/
  atlantisGenesis : String
  /-- `AtlantisDatabaseCache`. -/
  atlantisDatabaseCache : Int
  /-- `AtlantisNetStats`, the netstats connection string. -/
  atlantisNetStats : String
  /-- `WhisperEnabled`. -/
  whisperEnabled : Bool
  deriving DecidableEq, Repr

/-- The fields of `node.Config` that `NewNode` takes from its arguments. -/
structure StackConfig where
  /-- `DataDir`. -/
  dataDir : String
  /-- `P2P.BootstrapNodesV5`. -/
  bootstrapNodesV5 : List String
  /-- `P2P.MaxPeers`. -/
  maxPeers : Int
  deriving DecidableEq, Repr

/-- `downloader.SyncMode`. -/
inductive SyncMode
  | fullSync
  | fastSync
  | lightSync
  deriving DecidableEq, Repr

/-- The fields `NewNode` sets on its copy of `ath.DefaultConfig` for `les.New`. -/
structure LesConfig (Genesis : Type) where
  /-- `Genesis`. -/
  genesis : Option Genesis
  /-- `SyncMode`. -/
  syncMode : SyncMode
  /-- `NetworkId`. -/
  networkId : BitVec 64
  /-- `DatabaseCache`. -/
  databaseCache : Int
  deriving DecidableEq, Repr

/-- A service constructor `NewNode` registers on the stack. -/
inductive Service (Genesis : Type)
  /-- `les.New(ctx, &athConf)`. -/
  | les (config : LesConfig Genesis)
  /-- `athstats.New(config.AtlantisNetStats, nil, lesServ)`. -/
  | athstats (url : String)
  /-- `whisper.New(&whisper.DefaultConfig)`. -/
  | whisper
  deriving DecidableEq, Repr

/-- The prefix of the error `NewNode` returns when the stack refuses a service. -/
def Service.initError {Genesis : Type} : Service Genesis → String
  | .les _ => "athereum init: "
  | .athstats _ => "netstats init: "
  | .whisper => "whisper init: "

/-- What `NewNode` consults beyond its arguments. -/
structure Platform (Genesis : Type) where
  /-- `FoundationBootnodes()`. -/
  foundationBootnodes : List String
  /-- `TestnetGenesis()`. -/
  testnetGenesis : String
  /-- The outcome of `node.New` on the stack's configuration. -/
  nodeNew : StackConfig → Except String Unit
  /-- `json.Unmarshal` of a genesis spec. -/
  unmarshal : String → Except String Genesis
  /-- `genesis.Config = params.TestnetChainConfig`. -/
  testnetChainConfig : Genesis → Genesis
  /-- The outcome of `rawStack.Register` for a service. -/
  register : Service Genesis → Except String Unit

/-- The node `NewNode` returns: its stack and the services registered on it, in order. -/
structure Node (Genesis : Type) where
  /-- The stack's configuration. -/
  stack : StackConfig
  /-- The registered services. -/
  services : List (Service Genesis)
  deriving DecidableEq, Repr

variable {Genesis : Type}

/-- `defaultNodeConfig`. -/
def defaultNodeConfig (p : Platform Genesis) : NodeConfig :=
  ⟨some p.foundationBootnodes, 25, true, 1, "", 16, "", false⟩

/-- `NewNodeConfig`: a copy of the defaults. -/
def newNodeConfig (p : Platform Genesis) : NodeConfig := defaultNodeConfig p

/-- The defaults `NewNode` writes into a partial configuration: `MaxPeers` when zero, and the
bootstrap nodes when `nil` or empty. -/
def NodeConfig.withDefaults (p : Platform Genesis) (config : NodeConfig) : NodeConfig :=
  { config with
    maxPeers := if config.maxPeers = 0 then (defaultNodeConfig p).maxPeers else config.maxPeers
    bootstrapNodes := if config.bootstrapNodes.all List.isEmpty then
        (defaultNodeConfig p).bootstrapNodes
      else config.bootstrapNodes }

/-- The stack's configuration `NewNode` builds. -/
def stackConfig (datadir : String) (config : NodeConfig) : StackConfig :=
  ⟨datadir, config.bootstrapNodes.getD [], config.maxPeers⟩

/-- The genesis block `NewNode` parses, with the configuration it leaves: on the testnet genesis
the testnet chain configuration, and the network id `1` replaced by `3`. -/
def genesisOf (p : Platform Genesis) (config : NodeConfig) :
    Except String (Option Genesis × NodeConfig) :=
  if config.atlantisGenesis = "" then .ok (none, config)
  else
    match p.unmarshal config.atlantisGenesis with
    | .error err => .error ("invalid genesis spec: " ++ err)
    | .ok genesis =>
        if config.atlantisGenesis = p.testnetGenesis then
          .ok (some (p.testnetChainConfig genesis),
            if config.atlantisNetworkID = 1 then { config with atlantisNetworkID := 3 } else config)
        else .ok (some genesis, config)

/-- The services `NewNode` registers, in order. -/
def services (genesis : Option Genesis) (config : NodeConfig) : List (Service Genesis) :=
  (if config.atlantisEnabled then
      .les ⟨genesis, .lightSync, config.atlantisNetworkID, config.atlantisDatabaseCache⟩ ::
        if config.atlantisNetStats = "" then [] else [.athstats config.atlantisNetStats]
    else []) ++
    if config.whisperEnabled then [.whisper] else []

/-- `rawStack.Register` of each service in turn, stopping at the first refusal. -/
def registerAll (p : Platform Genesis) : List (Service Genesis) → Except String Unit
  | [] => .ok ()
  | service :: rest =>
      match p.register service with
      | .error err => .error (service.initError ++ err)
      | .ok () => registerAll p rest

/-- `NewNode` on a configuration that is not `nil`: the node or the error, and the
configuration as `NewNode` leaves it. -/
def newNodeOn (p : Platform Genesis) (datadir : String) (config : NodeConfig) :
    Except String (Node Genesis) × NodeConfig :=
  let config := config.withDefaults p
  let stack := stackConfig datadir config
  match p.nodeNew stack with
  | .error err => (.error err, config)
  | .ok () =>
      match genesisOf p config with
      | .error err => (.error err, config)
      | .ok (genesis, config) =>
          ((registerAll p (services genesis config)).map fun () => ⟨stack, services genesis config⟩,
            config)

/-- `NewNode(datadir, config)`: the node or the error, and the caller's configuration after the
call.  A `nil` configuration is replaced by a copy of the defaults, which the caller never sees. -/
def newNode (p : Platform Genesis) (datadir : String) :
    Option NodeConfig → Except String (Node Genesis) × Option NodeConfig
  | none => ((newNodeOn p datadir (newNodeConfig p)).1, none)
  | some config => ((newNodeOn p datadir config).1, some (newNodeOn p datadir config).2)

/-! ## The configuration `NewNode` leaves -/

theorem NodeConfig.withDefaults_withDefaults (p : Platform Genesis) (config : NodeConfig) :
    (config.withDefaults p).withDefaults p = config.withDefaults p := by
  simp only [NodeConfig.withDefaults]
  split_ifs <;> simp_all [defaultNodeConfig]

theorem NodeConfig.withDefaults_atlantisNetworkID (p : Platform Genesis) (config : NodeConfig)
    (id : BitVec 64) :
    { config with atlantisNetworkID := id }.withDefaults p =
      { config.withDefaults p with atlantisNetworkID := id } := rfl

/-- The genesis step changes nothing but the network id, and leaves a configuration on which it
parses the same genesis and changes nothing. -/
theorem genesisOf_ok {p : Platform Genesis} {config fixed : NodeConfig} {genesis : Option Genesis}
    (parsed : genesisOf p config = .ok (genesis, fixed)) :
    genesisOf p fixed = .ok (genesis, fixed) ∧ ∃ id, fixed = { config with atlantisNetworkID := id } := by
  unfold genesisOf at parsed
  split_ifs at parsed with empty testnet mainnet
  · obtain ⟨rfl, rfl⟩ := Prod.mk.inj (Except.ok.inj parsed)
    exact ⟨by simp [genesisOf, empty], _, rfl⟩
  all_goals
    rcases unmarshalled : p.unmarshal config.atlantisGenesis with err | spec
    · simp [unmarshalled] at parsed
    simp only [unmarshalled] at parsed
    obtain ⟨rfl, rfl⟩ := Prod.mk.inj (Except.ok.inj parsed)
    refine ⟨?_, _, rfl⟩
  · simp [genesisOf, empty, unmarshalled, ← testnet]
  · simpa [genesisOf, empty, unmarshalled, ← testnet] using fun same => absurd same mainnet
  · simp [genesisOf, empty, unmarshalled, testnet]

/-- `NewNode` run on a configuration `NewNode` left behind builds the same node, or fails with the
same error, and leaves the configuration as it is. -/
theorem newNodeOn_again (p : Platform Genesis) (datadir : String) (config : NodeConfig) :
    newNodeOn p datadir (newNodeOn p datadir config).2 = newNodeOn p datadir config := by
  have normal := config.withDefaults_withDefaults p
  unfold newNodeOn
  cases built : p.nodeNew (stackConfig datadir (config.withDefaults p)) with
  | error err => simp [normal, built]
  | ok =>
      cases parsed : genesisOf p (config.withDefaults p) with
      | error err => simp [normal, built, parsed]
      | ok result =>
          obtain ⟨genesis, fixed⟩ := result
          obtain ⟨again, id, only⟩ := genesisOf_ok parsed
          have fixed_normal : fixed.withDefaults p = fixed := by
            rw [only, NodeConfig.withDefaults_atlantisNetworkID, normal]
          have stack : stackConfig datadir fixed = stackConfig datadir (config.withDefaults p) := by
            rw [only]
            rfl
          simp [built, parsed, fixed_normal, stack, again]

/-- What `NewNode` leaves in the caller's configuration is a fixed point: run again on it,
`NewNode` builds the same node, or fails with the same error, and leaves it as it is. -/
theorem newNode_again (p : Platform Genesis) (datadir : String) (given : Option NodeConfig) :
    newNode p datadir (newNode p datadir given).2 = newNode p datadir given := by
  cases given with
  | none => rfl
  | some config => simp only [newNode, newNodeOn_again]

end Mobile
end AtlantisBackend
