import AtlantisBackend.Coinbase.Interleaving

/-!
# Where the addresses come from

The races of `Coinbase.Interleaving` leave the node and its miner on different addresses, but
never on an address that came from nowhere.  Every address a run holds, in `s.atherbase`, in the
miner's coinbase, in the clique signer or in a thread between two steps, is the address the
service started with, the first local account, or the argument of one of the run's
`SetAtlantisbase` calls.  This holds after every prefix of every schedule, finished or not.
-/

namespace AtlantisBackend
namespace Coinbase

/-- An address a run of `calls` from `s` is supplied: the configured `s.atherbase`, the first
local account, or the argument of one of its `SetAtlantisbase` calls. -/
def Supplied (env : Collaborators) (s : Service) (calls : List Call) (address : Address) :
    Prop :=
  address = s.atherbase ∨ firstAccount env.wallets = some address ∨
    Call.setAtlantisbase address ∈ calls

/-- The addresses of a service are supplied ones, or the miner's and the signer's of `s`. -/
structure Service.Sourced (current : Service) (env : Collaborators) (s : Service)
    (calls : List Call) : Prop where
  atherbase : Supplied env s calls current.atherbase
  coinbase : current.coinbase = s.coinbase ∨ Supplied env s calls current.coinbase
  signer : current.signer = s.signer ∨ Supplied env s calls current.signer

/-- The address a thread carries to a later step. -/
def Pc.carried : Pc → Option Address
  | .writeBase _ account => some account
  | .storeBase atherbase | .setMiner atherbase => some atherbase
  | .minerStart eb => some eb
  | .readBase _ | .done _ => none

/-- `Atlantisbase` returns the address it read or the first local account. -/
theorem afterRead_result_supplied {env : Collaborators} {s : Service} {calls : List Call}
    {atherbase eb : Address} (read : Supplied env s calls atherbase)
    (result : (afterRead env atherbase).result = .ok eb) : Supplied env s calls eb := by
  by_cases set : atherbase = 0
  · cases first : firstAccount env.wallets with
    | none => simp [afterRead_of_none set first, AfterRead.result] at result
    | some account =>
        simp only [afterRead_of_some set first, AfterRead.result, Except.ok.injEq] at result
        exact .inr (.inl (result ▸ first))
  · simp only [afterRead_of_ne_zero env set, AfterRead.result, Except.ok.injEq] at result
    exact result ▸ read

section Step

variable {env : Collaborators} {s : Service} {calls : List Call} {current : Service}

/-- Once `Atlantisbase` returned a supplied address, its caller writes and carries only
supplied addresses. -/
theorem Caller.resume_sourced (caller : Caller) {result : Except String Address}
    (sourced : current.Sourced env s calls)
    (returned : ∀ eb, result = .ok eb → Supplied env s calls eb) :
    (caller.resume env result current).1.Sourced env s calls ∧
      ∀ address ∈ (caller.resume env result current).2.carried, Supplied env s calls address := by
  cases caller with
  | direct => exact ⟨sourced, by simp [Caller.resume, Pc.carried]⟩
  | startMining localMining =>
      rw [Caller.resume_startMining]
      refine ⟨⟨?_, ?_, ?_⟩, ?_⟩
      · simpa using sourced.atherbase
      · simpa using sourced.coinbase
      · rcases startMiningAfter_signer env localMining result current with kept | authorized
        · exact kept ▸ sourced.signer
        · exact .inr (returned _ authorized)
      · cases spawn : spawned env result with
        | none => simp [Pc.carried]
        | some eb => simpa [Pc.carried] using returned eb (spawned_eq_some spawn)

/-- One step of a thread that carries supplied addresses writes and carries only supplied
addresses. -/
theorem Pc.step_sourced (pc : Pc) (sourced : current.Sourced env s calls)
    (carried : ∀ address ∈ pc.carried, Supplied env s calls address) :
    (pc.step env current).1.Sourced env s calls ∧
      ∀ address ∈ (pc.step env current).2.carried, Supplied env s calls address := by
  cases pc with
  | readBase caller =>
      cases read : afterRead env current.atherbase with
      | returned result =>
          simp only [Pc.step, read]
          exact caller.resume_sourced sourced fun eb ok =>
            afterRead_result_supplied sourced.atherbase (by rw [read, AfterRead.result, ok])
      | configure account =>
          simp only [Pc.step, read, Pc.carried, Option.mem_def, Option.some.injEq]
          exact ⟨sourced, fun _ same => same ▸ .inr (.inl (firstAccount_of_afterRead read))⟩
  | writeBase caller account =>
      have supplied := carried account rfl
      exact caller.resume_sourced ⟨supplied, sourced.coinbase, sourced.signer⟩
        fun eb ok => Except.ok.inj ok ▸ supplied
  | storeBase atherbase =>
      exact ⟨⟨carried atherbase rfl, sourced.coinbase, sourced.signer⟩, carried⟩
  | setMiner atherbase =>
      exact ⟨⟨sourced.atherbase, .inr (carried atherbase rfl), sourced.signer⟩,
        by simp [Pc.step, Pc.carried]⟩
  | minerStart eb =>
      exact ⟨⟨sourced.atherbase, .inr (carried eb rfl), sourced.signer⟩,
        by simp [Pc.step, Pc.carried]⟩
  | done outcome => exact ⟨sourced, carried⟩

end Step

/-- Every address a configuration holds is supplied, or the miner's and the signer's of `s`. -/
structure Config.Sourced (env : Collaborators) (s : Service) (calls : List Call) (c : Config) :
    Prop where
  service : c.service.Sourced env s calls
  threads : ∀ pc ∈ c.threads, ∀ address ∈ pc.carried, Supplied env s calls address

theorem Config.Sourced.step {env : Collaborators} {s : Service} {calls : List Call}
    {c : Config} (sourced : c.Sourced env s calls) (thread : Nat) :
    (c.step env thread).Sourced env s calls := by
  rcases Config.step_cases env c thread with same | ⟨pc, mem, service, -, threads, -⟩
  · rw [same]
    exact sourced
  have next := pc.step_sourced sourced.service (sourced.threads pc mem)
  refine ⟨service ▸ next.1, fun q member => ?_⟩
  rcases threads q member with old | rfl
  · exact sourced.threads q old
  · exact next.2

/-- The calls as threads hold only supplied addresses. -/
theorem launch_sourced (env : Collaborators) (s : Service) (calls : List Call) :
    (launch s calls).Sourced env s calls := by
  refine ⟨⟨.inl rfl, .inl rfl, .inl rfl⟩, ?_⟩
  simp only [launch, List.mem_map]
  rintro _ ⟨call, mem, rfl⟩ address carried
  cases call <;> simp_all [Call.start, Pc.carried, Supplied]

/-- Whatever the schedule, `SetAtlantisbase` calls included, the node, the miner and the clique
signer hold only supplied addresses, or the miner's and the signer's they started with. -/
theorem interleave_sourced (env : Collaborators) (s : Service) (calls : List Call)
    (schedule : List Nat) :
    (interleave env (launch s calls) schedule).service.Sourced env s calls :=
  (interleave_induction (fun _ thread sourced => sourced.step thread) (launch_sourced env s calls)
    schedule).service

end Coinbase
end AtlantisBackend
