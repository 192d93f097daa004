import Mathlib.Tactic.SplitIfs

/-!
# Block numbers in the full and the light API backend

`EthAPIBackend` answers the RPC API of a full node from its miner and its blockchain;
`LesApiBackend` answers it for a light node from its light chain, which retrieves what it lacks
on demand.  Both resolve an `rpc.BlockNumber`: the pending block, the latest block, or a height,
read as `uint64(blockNr)`.  The full node takes the pending block from its miner, while the light
node, which does not mine, answers the pending block with its current header.  A light chain that
serves the full node's headers and blocks therefore answers every block number as the full node
answers it once the pending block is read as the latest.
-/

namespace AtlantisBackend
namespace Api

/-- `rpc.BlockNumber`, an `int64`. -/
abbrev BlockNumber := BitVec 64

/-- `rpc.PendingBlockNumber`, `BlockNumber(-2)` in package `rpc`. -/
def pendingBlockNumber : BlockNumber := -2

/-- `rpc.LatestBlockNumber`, `BlockNumber(-1)` in package `rpc`. -/
def latestBlockNumber : BlockNumber := -1

/-- A 32-byte `common.Hash`. -/
abbrev Hash := BitVec 256

/-- What `EthAPIBackend` reads of its full node. -/
structure EthAPIBackend (Header Block State : Type) where
  /-- `Block.Header()`. -/
  header : Block → Header
  /-- `b.ath.miner.Pending()`: the pending block and its state; `miner.PendingBlock()` is the
  block. -/
  pending : Block × State
  /-- `b.ath.blockchain.CurrentBlock()`. -/
  currentBlock : Block
  /-- `blockchain.GetHeaderByNumber`, `nil` for a height the chain does not hold. -/
  getHeaderByNumber : Nat → Option Header
  /-- `blockchain.GetBlockByNumber`. -/
  getBlockByNumber : Nat → Option Block
  /-- `BlockChain().StateAt(header.Root)`. -/
  stateAt : Header → Except String State

/-- What `LesApiBackend` reads of its light node. -/
structure LesApiBackend (Header Block State : Type) where
  /-- `Header.Hash()`. -/
  hash : Header → Hash
  /-- `b.ath.blockchain.CurrentHeader()`. -/
  currentHeader : Header
  /-- `blockchain.GetHeaderByNumberOdr`, which may fail to retrieve the header. -/
  getHeaderByNumberOdr : Nat → Except String (Option Header)
  /-- `blockchain.GetBlockByHash`, which may fail to retrieve the body. -/
  getBlockByHash : Hash → Except String (Option Block)
  /-- `light.NewState(ctx, header, b.ath.odr)`. -/
  newState : Header → State

variable {Header Block State : Type}

namespace EthAPIBackend

/-- `EthAPIBackend.HeaderByNumber`. -/
def headerByNumber (b : EthAPIBackend Header Block State) (blockNr : BlockNumber) :
    Except String (Option Header) :=
  if blockNr = pendingBlockNumber then .ok (some (b.header b.pending.1))
  else if blockNr = latestBlockNumber then .ok (some (b.header b.currentBlock))
  else .ok (b.getHeaderByNumber blockNr.toNat)

/-- `EthAPIBackend.BlockByNumber`. -/
def blockByNumber (b : EthAPIBackend Header Block State) (blockNr : BlockNumber) :
    Except String (Option Block) :=
  if blockNr = pendingBlockNumber then .ok (some b.pending.1)
  else if blockNr = latestBlockNumber then .ok (some b.currentBlock)
  else .ok (b.getBlockByNumber blockNr.toNat)

/-- `EthAPIBackend.StateAndHeaderByNumber`: the state, the header and the error.  A failed
`StateAt` returns the header with the error. -/
def stateAndHeaderByNumber (b : EthAPIBackend Header Block State) (blockNr : BlockNumber) :
    Option State × Option Header × Option String :=
  if blockNr = pendingBlockNumber then (some b.pending.2, some (b.header b.pending.1), none)
  else
    match b.headerByNumber blockNr with
    | .error err => (none, none, some err)
    | .ok none => (none, none, none)
    | .ok (some header) =>
        match b.stateAt header with
        | .ok stateDb => (some stateDb, some header, none)
        | .error err => (none, some header, some err)

end EthAPIBackend

namespace LesApiBackend

/-- `LesApiBackend.HeaderByNumber`: the latest and the pending block are the current header. -/
def headerByNumber (b : LesApiBackend Header Block State) (blockNr : BlockNumber) :
    Except String (Option Header) :=
  if blockNr = latestBlockNumber ∨ blockNr = pendingBlockNumber then .ok (some b.currentHeader)
  else b.getHeaderByNumberOdr blockNr.toNat

/-- `LesApiBackend.BlockByNumber`: the header, then the block of its hash. -/
def blockByNumber (b : LesApiBackend Header Block State) (blockNr : BlockNumber) :
    Except String (Option Block) :=
  match b.headerByNumber blockNr with
  | .error err => .error err
  | .ok none => .ok none
  | .ok (some header) => b.getBlockByHash (b.hash header)

/-- `LesApiBackend.StateAndHeaderByNumber`. -/
def stateAndHeaderByNumber (b : LesApiBackend Header Block State) (blockNr : BlockNumber) :
    Option State × Option Header × Option String :=
  match b.headerByNumber blockNr with
  | .error err => (none, none, some err)
  | .ok none => (none, none, none)
  | .ok (some header) => (some (b.newState header), some header, none)

end LesApiBackend

/-- The pending block as the light node reads it: the latest. -/
def lightBlockNumber (blockNr : BlockNumber) : BlockNumber :=
  if blockNr = pendingBlockNumber then latestBlockNumber else blockNr

/-- The light chain serves the full node's chain: the same current block, the same header at
every height, and for each header the block of that height. -/
structure Serves (light : LesApiBackend Header Block State)
    (full : EthAPIBackend Header Block State) : Prop where
  currentHeader : light.currentHeader = full.header full.currentBlock
  currentBlock : light.getBlockByHash (light.hash light.currentHeader) = .ok (some full.currentBlock)
  headers : ∀ n, light.getHeaderByNumberOdr n = .ok (full.getHeaderByNumber n)
  blocks : ∀ n header, full.getHeaderByNumber n = some header →
    light.getBlockByHash (light.hash header) = .ok (full.getBlockByNumber n)
  noBlock : ∀ n, full.getHeaderByNumber n = none → full.getBlockByNumber n = none

section Serves

variable {light : LesApiBackend Header Block State} {full : EthAPIBackend Header Block State}

theorem latestBlockNumber_ne_pending : latestBlockNumber ≠ pendingBlockNumber := by decide

theorem lightBlockNumber_ne_pending (blockNr : BlockNumber) :
    lightBlockNumber blockNr ≠ pendingBlockNumber := by
  unfold lightBlockNumber
  split_ifs with pending
  · exact latestBlockNumber_ne_pending
  · exact pending

theorem Serves.headerByNumber (serves : Serves light full) (blockNr : BlockNumber) :
    light.headerByNumber blockNr = full.headerByNumber (lightBlockNumber blockNr) := by
  simp only [LesApiBackend.headerByNumber, EthAPIBackend.headerByNumber, lightBlockNumber]
  split_ifs <;> simp_all [latestBlockNumber_ne_pending, serves.currentHeader, serves.headers]

/-- A light node serving a full node's chain answers every block number as the full node
answers it, the pending block read as the latest: the same header, the same block, and
`StateAndHeaderByNumber` the same header. -/
theorem lesApiBackend_refines (light : LesApiBackend Header Block State)
    (full : EthAPIBackend Header Block State) (serves : Serves light full) (blockNr : BlockNumber) :
    light.headerByNumber blockNr = full.headerByNumber (lightBlockNumber blockNr) ∧
      light.blockByNumber blockNr = full.blockByNumber (lightBlockNumber blockNr) ∧
      (light.stateAndHeaderByNumber blockNr).2.1 =
        (full.stateAndHeaderByNumber (lightBlockNumber blockNr)).2.1 := by
  have header := serves.headerByNumber blockNr
  have other := lightBlockNumber_ne_pending blockNr
  refine ⟨header, ?_, ?_⟩
  · simp only [LesApiBackend.blockByNumber, header, EthAPIBackend.headerByNumber,
      EthAPIBackend.blockByNumber, if_neg other]
    split_ifs
    · simpa [serves.currentHeader] using serves.currentBlock
    · cases at_n : full.getHeaderByNumber (lightBlockNumber blockNr).toNat with
      | none => simp [serves.noBlock _ at_n]
      | some h => simpa using serves.blocks _ h at_n
  · simp only [LesApiBackend.stateAndHeaderByNumber, header, EthAPIBackend.stateAndHeaderByNumber,
      if_neg other]
    rcases full.headerByNumber (lightBlockNumber blockNr) with err | _ | h
    · rfl
    · rfl
    · dsimp only
      split <;> rfl

end Serves

/-- A light chain holding the genesis block `0` and block `1` on top, served from a full node at
block `1`, answers the pending block with block `1`. -/
theorem lesApiBackend_refines_pending :
    let full : EthAPIBackend Nat Nat Unit :=
      ⟨id, (2, ()), 1, fun n => if n ≤ 1 then some n else none,
        fun n => if n ≤ 1 then some n else none, fun _ => .ok ()⟩
    let light : LesApiBackend Nat Nat Unit :=
      ⟨BitVec.ofNat 256, 1, fun n => .ok (if n ≤ 1 then some n else none),
        fun h => .ok (if h.toNat ≤ 1 then some h.toNat else none), fun _ => ()⟩
    light.blockByNumber pendingBlockNumber = full.blockByNumber latestBlockNumber :=
  (lesApiBackend_refines _ _
    ⟨rfl, rfl, fun _ => rfl,
      fun n h at_n => by
        by_cases low : n ≤ 1 <;> simp_all
        omega,
      fun n absent => by simp_all⟩ pendingBlockNumber).2.1

end Api
end AtlantisBackend
