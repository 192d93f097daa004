import AtlantisBackend.Lifecycle.Components

/-!
# Construction of the full-node service

`New` checks the sync mode, opens the chain database, sets up the genesis block, checks and
writes the database version, then builds the blockchain, the bloom indexer, the transaction
pool, the protocol manager and the miner, and returns an error at the first step that fails.
A `New` that succeeds leaves running the components of `newOrder`, which `Start` and `Stop`
take over.  Across restarts, `New` writes the database version only on a fresh database or on
one already at `core.BlockChainVersion`: a database of another version is never overwritten.
-/

namespace AtlantisBackend
namespace Lifecycle

/-- What `New` reads from its configuration and learns from the calls it makes. -/
structure Construction where
  /-- `config.SyncMode == downloader.LightSync`. -/
  lightSync : Bool
  /-- `config.SyncMode.IsValid()`. -/
  validSyncMode : Bool
  /-- `config.SyncMode`, as the invalid-mode error prints it. -/
  syncMode : Int
  /-- The outcome of `CreateDB`. -/
  createDB : Except String Unit
  /-- The outcome of `core.SetupGenesisBlock`; a `*params.ConfigCompatError` counts as
  success. -/
  setupGenesisBlock : Except String Unit
  /-- `config.SkipBcVersionCheck`. -/
  skipBcVersionCheck : Bool
  /-- `core.BlockChainVersion`. -/
  blockChainVersion : Nat
  /-- The outcome of `core.NewBlockChain`. -/
  newBlockChain : Except String Unit
  /-- The outcome of `NewProtocolManager`. -/
  newProtocolManager : Except String Unit

/-- The error of `New` in light sync mode. -/
def lightSyncError : String := "can't run ath.Atlantis in light sync mode, use les.LightAtlantis"

/-- The error of `New` for an invalid sync mode. -/
def invalidSyncMode (syncMode : Int) : String := "invalid sync mode " ++ toString syncMode

/-- The error of `New` for a database of another version. -/
def versionMismatch (bcVersion blockChainVersion : Nat) : String :=
  "Blockchain DB version mismatch (" ++ toString bcVersion ++ " / " ++
    toString blockChainVersion ++ "). Run gath upgradedb.\n"

/-- The version check of `New` on a database storing `bcVersion` (`0` when it stores none):
its error, or the version the database stores afterwards. -/
def checkVersion (skipBcVersionCheck : Bool) (blockChainVersion bcVersion : Nat) :
    Except String Nat :=
  if skipBcVersionCheck then .ok bcVersion
  else if bcVersion ≠ blockChainVersion ∧ bcVersion ≠ 0 then
    .error (versionMismatch bcVersion blockChainVersion)
  else .ok blockChainVersion

/-- What `New` leaves behind. -/
structure Built where
  /-- The error `New` returns, or none. -/
  result : Except String Unit
  /-- The components running when `New` returns, in the order they started. -/
  running : List Component
  /-- The version the chain database stores. -/
  dbVersion : Nat

/-- `New` on a chain database that stores the version `dbVersion`. -/
def new (c : Construction) (dbVersion : Nat) : Built :=
  if c.lightSync then ⟨.error lightSyncError, [.eventMux], dbVersion⟩
  else if !c.validSyncMode then ⟨.error (invalidSyncMode c.syncMode), [.eventMux], dbVersion⟩
  else
    match c.createDB with
    | .error err => ⟨.error err, [.eventMux], dbVersion⟩
    | .ok () =>
        match c.setupGenesisBlock with
        | .error err => ⟨.error err, [.eventMux, .chainDb], dbVersion⟩
        | .ok () =>
            match checkVersion c.skipBcVersionCheck c.blockChainVersion dbVersion with
            | .error err => ⟨.error err, [.eventMux, .chainDb], dbVersion⟩
            | .ok dbVersion =>
                match c.newBlockChain with
                | .error err => ⟨.error err, [.eventMux, .chainDb], dbVersion⟩
                | .ok () =>
                    match c.newProtocolManager with
                    | .error err =>
                        ⟨.error err, [.eventMux, .chainDb, .blockchain, .bloomIndexer, .txPool],
                          dbVersion⟩
                    | .ok () => ⟨.ok (), newOrder, dbVersion⟩

/-! ## The database version across restarts -/

/-- The version check stores `core.BlockChainVersion` or leaves the stored version; it changes
the stored version only on a fresh database. -/
theorem checkVersion_stored {skipBcVersionCheck : Bool} {blockChainVersion bcVersion stored : Nat}
    (checked : checkVersion skipBcVersionCheck blockChainVersion bcVersion = .ok stored) :
    stored = bcVersion ∨ bcVersion = 0 ∧ stored = blockChainVersion := by
  unfold checkVersion at checked
  split_ifs at checked <;> cases checked
  · exact .inl rfl
  · omega

/-- `New` leaves the stored version, or stores what its version check returned. -/
theorem new_dbVersion_checked (c : Construction) (dbVersion : Nat) :
    (new c dbVersion).dbVersion = dbVersion ∨
      checkVersion c.skipBcVersionCheck c.blockChainVersion dbVersion =
        .ok (new c dbVersion).dbVersion := by
  unfold new
  split_ifs <;> (repeat' split) <;> simp_all

/-- `New` changes the stored database version only on a fresh database, to
`core.BlockChainVersion`. -/
theorem new_dbVersion (c : Construction) (dbVersion : Nat) :
    (new c dbVersion).dbVersion = dbVersion ∨
      dbVersion = 0 ∧ (new c dbVersion).dbVersion = c.blockChainVersion :=
  (new_dbVersion_checked c dbVersion).elim .inl checkVersion_stored

/-- The version the chain database stores after `New` ran on it once per restart, with the
configuration and the outcomes of each. -/
def restarts : List Construction → Nat → Nat
  | [], dbVersion => dbVersion
  | c :: cs, dbVersion => restarts cs (new c dbVersion).dbVersion

/-- Over any restarts, whatever their configurations, software versions and failures, the
database keeps the version it stores, unless it was fresh and some restart wrote its
`core.BlockChainVersion`: a database of another version is never overwritten. -/
theorem restarts_dbVersion (cs : List Construction) (dbVersion : Nat) :
    restarts cs dbVersion = dbVersion ∨
      dbVersion = 0 ∧ ∃ c ∈ cs, restarts cs dbVersion = c.blockChainVersion := by
  induction cs generalizing dbVersion with
  | nil => exact .inl rfl
  | cons c cs ih =>
      rw [restarts]
      rcases new_dbVersion c dbVersion with same | ⟨fresh, written⟩
      · rw [same]
        exact (ih dbVersion).imp_right fun ⟨fresh, c', mem, eq⟩ =>
          ⟨fresh, c', List.mem_cons_of_mem c mem, eq⟩
      · rw [written]
        rcases ih c.blockChainVersion with kept | ⟨-, c', mem, eq⟩
        · exact .inr ⟨fresh, c, List.mem_cons_self c cs, kept⟩
        · exact .inr ⟨fresh, c', List.mem_cons_of_mem c mem, eq⟩

end Lifecycle
end AtlantisBackend
