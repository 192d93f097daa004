import Mathlib.Data.List.Basic

/-!
# The mining address of the full-node service

`Atlantisbase`, `SetAtlantisbase` and `StartMining` of the full-node service, each run as one
uninterrupted call.  Addresses are the 20-byte `common.Address`, and the zero address is the unset
value that `Atlantisbase` replaces by the first local account.  The interleaved semantics, which
splits each call at its lock boundaries, is built on these definitions in `Coinbase.Interleaving`.
-/

namespace AtlantisBackend
namespace Coinbase

/-- A 20-byte account address; `0` is `common.Address{}`. -/
abbrev Address := BitVec 160

/-- What the three calls consult but never write: the account manager and the consensus
engine of the service. -/
structure Collaborators where
  /-- The addresses of the accounts of each wallet of `AccountManager().Wallets()`. -/
  wallets : List (List Address)
  /-- Whether `s.engine` is a `*clique.Clique`. -/
  clique : Bool
  /-- The outcome of `accountManager.Find` for an account: the error, or a wallet holding it. -/
  find : Address → Except String Unit

/-- The state the three calls write. -/
structure Service where
  /-- `s.atherbase`, guarded by `s.lock`. -/
  atherbase : Address
  /-- The miner's coinbase, written by `miner.SetAtlantisbase` and by `miner.Start`. -/
  coinbase : Address
  /-- The signer of the clique engine, written by `clique.Authorize`. -/
  signer : Address
  /-- `s.protocolManager.acceptTxs`. -/
  acceptTxs : Bool
  deriving DecidableEq, Repr

/-- The pair the mining address is read from: `s.atherbase` and the miner's coinbase. -/
def Service.addresses (s : Service) : Address × Address := (s.atherbase, s.coinbase)

/-- The first account of the first wallet, which `Atlantisbase` falls back on. -/
def firstAccount : List (List Address) → Option Address
  | (account :: _) :: _ => some account
  | _ => none

/-- The error of `Atlantisbase` when no address is configured and no local account exists. -/
def missingAtlantisbase : String := "atherbase must be explicitly specified"

/-- What `Atlantisbase` does once its locked read of `s.atherbase` returned. -/
inductive AfterRead
  /-- Return without writing. -/
  | returned (result : Except String Address)
  /-- Store the first local account, then return it. -/
  | configure (account : Address)

/-- The decision `Atlantisbase` takes on the address it read. -/
def afterRead (env : Collaborators) (atherbase : Address) : AfterRead :=
  if atherbase ≠ 0 then .returned (.ok atherbase)
  else
    match firstAccount env.wallets with
    | some account => .configure account
    | none => .returned (.error missingAtlantisbase)

/-- The address `Atlantisbase` returns after its read. -/
def AfterRead.result : AfterRead → Except String Address
  | .returned result => result
  | .configure account => .ok account

/-- The value `s.atherbase` holds once `Atlantisbase`, having read `atherbase`, returned. -/
def AfterRead.stored (atherbase : Address) : AfterRead → Address
  | .returned _ => atherbase
  | .configure account => account

theorem afterRead_of_ne_zero (env : Collaborators) {atherbase : Address}
    (set : atherbase ≠ 0) : afterRead env atherbase = .returned (.ok atherbase) := by
  rw [afterRead, if_pos set]

theorem afterRead_of_some {env : Collaborators} {atherbase account : Address}
    (unset : atherbase = 0) (first : firstAccount env.wallets = some account) :
    afterRead env atherbase = .configure account := by
  rw [afterRead, if_neg (not_not.mpr unset), first]

theorem afterRead_of_none {env : Collaborators} {atherbase : Address}
    (unset : atherbase = 0) (first : firstAccount env.wallets = none) :
    afterRead env atherbase = .returned (.error missingAtlantisbase) := by
  rw [afterRead, if_neg (not_not.mpr unset), first]

/-- `Atlantisbase` stores only the first local account. -/
theorem firstAccount_of_afterRead {env : Collaborators} {atherbase account : Address}
    (configure : afterRead env atherbase = .configure account) :
    firstAccount env.wallets = some account := by
  unfold afterRead at configure
  split at configure
  · cases configure
  · split at configure <;> simp_all

/-- A successful `Atlantisbase` leaves `s.atherbase` at the address it returned. -/
theorem afterRead_stored_of_result {env : Collaborators} {atherbase eb : Address}
    (result : (afterRead env atherbase).result = .ok eb) :
    (afterRead env atherbase).stored atherbase = eb := by
  by_cases set : atherbase = 0
  · cases first : firstAccount env.wallets <;>
      simp_all [afterRead_of_some, afterRead_of_none, AfterRead.result, AfterRead.stored]
  · simp_all [afterRead_of_ne_zero, AfterRead.result, AfterRead.stored]

/-- The first local account, once stored, is what `Atlantisbase` returns. -/
theorem afterRead_result_of_firstAccount {env : Collaborators} {account : Address}
    (first : firstAccount env.wallets = some account) :
    (afterRead env account).result = .ok account := by
  by_cases set : account = 0
  · simp [afterRead_of_some set first, AfterRead.result]
  · simp [afterRead_of_ne_zero env set, AfterRead.result]

/-- An address `Atlantisbase` returned is returned again by every later `Atlantisbase`. -/
theorem afterRead_result_of_result {env : Collaborators} {atherbase eb : Address}
    (result : (afterRead env atherbase).result = .ok eb) :
    (afterRead env eb).result = .ok eb := by
  by_cases set : atherbase = 0
  · cases first : firstAccount env.wallets with
    | none => simp [afterRead_of_none set first, AfterRead.result] at result
    | some account =>
        simp only [afterRead_of_some set first, AfterRead.result, Except.ok.injEq] at result
        exact result ▸ afterRead_result_of_firstAccount first
  · simp_all [afterRead_of_ne_zero, AfterRead.result]

/-- `Atlantisbase`: the configured address, or else the first local account, stored on the
way. -/
def atlantisbase (env : Collaborators) (s : Service) : Except String Address × Service :=
  match afterRead env s.atherbase with
  | .returned result => (result, s)
  | .configure account => (.ok account, { s with atherbase := account })

@[simp] theorem atlantisbase_fst (env : Collaborators) (s : Service) :
    (atlantisbase env s).1 = (afterRead env s.atherbase).result := by
  unfold atlantisbase
  split <;> simp_all [AfterRead.result]

@[simp] theorem atlantisbase_snd (env : Collaborators) (s : Service) :
    (atlantisbase env s).2 =
      { s with atherbase := (afterRead env s.atherbase).stored s.atherbase } := by
  unfold atlantisbase
  split <;> simp_all [AfterRead.stored]

/-- `SetAtlantisbase`: the locked store of `s.atherbase`, then `miner.SetAtlantisbase`. -/
def setAtlantisbase (atherbase : Address) (s : Service) : Service :=
  { s with atherbase := atherbase, coinbase := atherbase }

/-- The clique check of `StartMining`: under clique, a local wallet must hold the account. -/
def signerCheck (env : Collaborators) (eb : Address) : Except String Unit :=
  if env.clique then env.find eb else .ok ()

/-- The rest of `StartMining` once `Atlantisbase` returned: the signer check with its
`clique.Authorize`, the `acceptTxs` store of local mining, and the address handed to the
`miner.Start` goroutine when one is spawned. -/
def startMiningAfter (env : Collaborators) (localMining : Bool) :
    Except String Address → Service → Except String Unit × Service × Option Address
  | .error err, s => (.error ("atherbase missing: " ++ err), s, none)
  | .ok eb, s =>
      match signerCheck env eb with
      | .error err => (.error ("signer missing: " ++ err), s, none)
      | .ok () =>
          (.ok (), { s with
              signer := if env.clique then eb else s.signer
              acceptTxs := s.acceptTxs || localMining }, some eb)

/-- The address `StartMining` hands to `miner.Start` once `Atlantisbase` returned `result`. -/
def spawned (env : Collaborators) : Except String Address → Option Address
  | .ok eb =>
      match signerCheck env eb with
      | .ok () => some eb
      | .error _ => none
  | .error _ => none

theorem startMiningAfter_spawned (env : Collaborators) (localMining : Bool)
    (result : Except String Address) (s : Service) :
    (startMiningAfter env localMining result s).2.2 = spawned env result := by
  rcases result with err | eb
  · rfl
  · simp only [startMiningAfter, spawned]
    split <;> simp_all

/-- `StartMining` succeeds exactly when it spawns the miner goroutine. -/
theorem startMiningAfter_ok_iff (env : Collaborators) (localMining : Bool)
    (result : Except String Address) (s : Service) :
    (startMiningAfter env localMining result s).1 = .ok () ↔ (spawned env result).isSome := by
  rcases result with err | eb
  · simp [startMiningAfter, spawned]
  · simp only [startMiningAfter, spawned]
    split <;> simp_all

/-- Only an address `Atlantisbase` returned is handed to the miner. -/
theorem spawned_eq_some {env : Collaborators} {result : Except String Address} {eb : Address}
    (spawn : spawned env result = some eb) : result = .ok eb := by
  rcases result with err | addr
  · simp [spawned] at spawn
  · simp only [spawned] at spawn
    split at spawn <;> simp_all

@[simp] theorem startMiningAfter_atherbase (env : Collaborators) (localMining : Bool)
    (result : Except String Address) (s : Service) :
    (startMiningAfter env localMining result s).2.1.atherbase = s.atherbase := by
  rcases result with err | eb
  · rfl
  · simp only [startMiningAfter]
    split <;> rfl

@[simp] theorem startMiningAfter_coinbase (env : Collaborators) (localMining : Bool)
    (result : Except String Address) (s : Service) :
    (startMiningAfter env localMining result s).2.1.coinbase = s.coinbase := by
  rcases result with err | eb
  · rfl
  · simp only [startMiningAfter]
    split <;> rfl

/-- Local mining opens the transaction pool once the checks passed, and nothing closes it. -/
theorem startMiningAfter_acceptTxs (env : Collaborators) (localMining : Bool)
    (result : Except String Address) (s : Service) :
    (startMiningAfter env localMining result s).2.1.acceptTxs =
      (s.acceptTxs || (localMining && (spawned env result).isSome)) := by
  rcases result with err | eb
  · simp [startMiningAfter, spawned]
  · rcases check : signerCheck env eb with err | ⟨⟩ <;> simp [startMiningAfter, spawned, check]

/-- `StartMining` authorizes no signer but the address `Atlantisbase` returned. -/
theorem startMiningAfter_signer (env : Collaborators) (localMining : Bool)
    (result : Except String Address) (s : Service) :
    (startMiningAfter env localMining result s).2.1.signer = s.signer ∨
      result = .ok (startMiningAfter env localMining result s).2.1.signer := by
  rcases result with err | eb
  · exact .inl rfl
  · simp only [startMiningAfter]
    split
    · exact .inl rfl
    · by_cases clique : env.clique <;> simp [clique]

/-- What `StartMining` returns once `Atlantisbase` returned depends on nothing else. -/
theorem startMiningAfter_fst (env : Collaborators) (localMining : Bool)
    (result : Except String Address) (s s' : Service) :
    (startMiningAfter env localMining result s).1 =
      (startMiningAfter env localMining result s').1 := by
  rcases result with err | eb
  · rfl
  · rcases check : signerCheck env eb with err | ⟨⟩ <;> simp [startMiningAfter, check]

/-- `StartMining`, with the spawned `miner.Start` goroutine run to its end. -/
def startMining (env : Collaborators) (localMining : Bool) (s : Service) :
    Except String Unit × Service :=
  match startMiningAfter env localMining (atlantisbase env s).1 (atlantisbase env s).2 with
  | (outcome, s, some eb) => (outcome, { s with coinbase := eb })
  | (outcome, s, none) => (outcome, s)

@[simp] theorem startMining_atherbase (env : Collaborators) (localMining : Bool) (s : Service) :
    (startMining env localMining s).2.atherbase =
      (afterRead env s.atherbase).stored s.atherbase := by
  have kept := startMiningAfter_atherbase env localMining (atlantisbase env s).1
    (atlantisbase env s).2
  unfold startMining
  generalize startMiningAfter env localMining (atlantisbase env s).1 (atlantisbase env s).2
    = after at kept ⊢
  rcases after with ⟨outcome, s', _ | eb⟩ <;> simp_all

@[simp] theorem startMining_coinbase (env : Collaborators) (localMining : Bool) (s : Service) :
    (startMining env localMining s).2.coinbase =
      (spawned env (afterRead env s.atherbase).result).getD s.coinbase := by
  have spawn := startMiningAfter_spawned env localMining (atlantisbase env s).1
    (atlantisbase env s).2
  have kept := startMiningAfter_coinbase env localMining (atlantisbase env s).1
    (atlantisbase env s).2
  unfold startMining
  generalize startMiningAfter env localMining (atlantisbase env s).1 (atlantisbase env s).2
    = after at spawn kept ⊢
  rw [atlantisbase_fst] at spawn
  rcases after with ⟨outcome, s', _ | eb⟩ <;> simp_all [← spawn, eq_comm]

/-- `StartMining` returns the outcome of its checks on what `Atlantisbase` returns. -/
theorem startMining_fst (env : Collaborators) (localMining : Bool) (s : Service) :
    (startMining env localMining s).1 =
      (startMiningAfter env localMining (afterRead env s.atherbase).result s).1 := by
  rw [← atlantisbase_fst, startMiningAfter_fst env localMining _ s (atlantisbase env s).2]
  unfold startMining
  generalize startMiningAfter env localMining (atlantisbase env s).1 (atlantisbase env s).2
    = after
  rcases after with ⟨outcome, s', _ | eb⟩ <;> rfl

/-- A call a client makes on the service. -/
inductive Call
  | atlantisbase
  | setAtlantisbase (atherbase : Address)
  | startMining (localMining : Bool)
  deriving DecidableEq, Repr

/-- What a call returns. -/
inductive Outcome
  | atlantisbase (result : Except String Address)
  | setAtlantisbase
  | startMining (result : Except String Unit)

/-- One call run to its end. -/
def Call.apply (env : Collaborators) : Call → Service → Outcome × Service
  | .atlantisbase, s =>
      (.atlantisbase (Coinbase.atlantisbase env s).1, (Coinbase.atlantisbase env s).2)
  | .setAtlantisbase atherbase, s => (.setAtlantisbase, Coinbase.setAtlantisbase atherbase s)
  | .startMining localMining, s =>
      (.startMining (Coinbase.startMining env localMining s).1,
        (Coinbase.startMining env localMining s).2)

/-- The calls run one after another, each to its end. -/
def serialRun (env : Collaborators) (s : Service) : List Call → Service
  | [] => s
  | call :: calls => serialRun env (call.apply env s).2 calls

@[simp] theorem serialRun_nil (env : Collaborators) (s : Service) : serialRun env s [] = s := rfl

@[simp] theorem serialRun_cons (env : Collaborators) (s : Service) (call : Call)
    (calls : List Call) :
    serialRun env s (call :: calls) = serialRun env (call.apply env s).2 calls := rfl

end Coinbase
end AtlantisBackend
