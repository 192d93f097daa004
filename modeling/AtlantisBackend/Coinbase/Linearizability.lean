import AtlantisBackend.Coinbase.Interleaving

/-!
# Linearizability without `SetAtlantisbase`

Without `SetAtlantisbase`, the only address a call stores is the first local account, and it
stores it only over the unset address.  So `s.atherbase` settles on one value as soon as any
call has read it, and every `StartMining` hands the miner that value.  Every finished
interleaving then leaves the addresses `settledAddresses` computes, which depend on the calls
only through whether there are any and whether one of them is `StartMining`; every serial run
leaves the same.
-/

namespace AtlantisBackend
namespace Coinbase

/-- Whether a call is `SetAtlantisbase`. -/
def Call.setsBase : Call → Bool
  | .setAtlantisbase _ => true
  | _ => false

/-- Whether a call is `StartMining`. -/
def Call.mines : Call → Bool
  | .startMining _ => true
  | _ => false

/-- Storing the address `Atlantisbase` settles on changes neither what it returns nor what it
stores. -/
theorem afterRead_settled (env : Collaborators) (atherbase : Address) :
    (afterRead env ((afterRead env atherbase).stored atherbase)).result =
        (afterRead env atherbase).result ∧
      (afterRead env ((afterRead env atherbase).stored atherbase)).stored
          ((afterRead env atherbase).stored atherbase) =
        (afterRead env atherbase).stored atherbase := by
  cases result : (afterRead env atherbase).result with
  | error err =>
      have kept : (afterRead env atherbase).stored atherbase = atherbase := by
        cases read : afterRead env atherbase <;>
          simp_all [AfterRead.result, AfterRead.stored]
      simp [kept, result]
  | ok eb =>
      have settled := afterRead_result_of_result result
      simp [afterRead_stored_of_result result, settled, afterRead_stored_of_result settled]

/-! ## Serial runs -/

/-- The addresses a run of `calls` without `SetAtlantisbase` leaves from `s`: the address
`Atlantisbase` settles on once any call ran, and the miner's address once a `StartMining`
succeeded. -/
def settledAddresses (env : Collaborators) (s : Service) (calls : List Call) :
    Address × Address :=
  (if calls.isEmpty then s.atherbase else (afterRead env s.atherbase).stored s.atherbase,
    match spawned env (afterRead env s.atherbase).result with
    | some eb => if calls.any Call.mines then eb else s.coinbase
    | none => s.coinbase)

theorem settledAddresses_perm {env : Collaborators} {s : Service} {calls order : List Call}
    (perm : order.Perm calls) :
    settledAddresses env s order = settledAddresses env s calls := by
  have mines : order.any Call.mines = calls.any Call.mines :=
    Bool.eq_iff_iff.mpr (by simp only [List.any_eq_true, perm.mem_iff])
  simp only [settledAddresses, perm.isEmpty_eq, mines]

/-- One call without `SetAtlantisbase` moves the state along the settled addresses. -/
theorem settledAddresses_apply (env : Collaborators) (s : Service) (call : Call)
    (calls : List Call) (keeps : call.setsBase = false) :
    settledAddresses env (call.apply env s).2 calls = settledAddresses env s (call :: calls) := by
  obtain ⟨result, stored⟩ := afterRead_settled env s.atherbase
  cases call with
  | atlantisbase =>
      simp only [settledAddresses, Call.apply, atlantisbase_snd, result, stored]
      split <;> simp [Call.mines]
  | setAtlantisbase => simp [Call.setsBase] at keeps
  | startMining localMining =>
      cases spawn : spawned env (afterRead env s.atherbase).result <;>
        simp [settledAddresses, Call.apply, result, stored, spawn, Call.mines]

/-- A serial run of calls without `SetAtlantisbase` leaves the settled addresses. -/
theorem serialRun_addresses (env : Collaborators) (s : Service) (calls : List Call)
    (keeps : ∀ call ∈ calls, call.setsBase = false) :
    (serialRun env s calls).addresses = settledAddresses env s calls := by
  induction calls generalizing s with
  | nil =>
      cases spawn : spawned env (afterRead env s.atherbase).result <;>
        simp [settledAddresses, Service.addresses, spawn]
  | cons call calls ih =>
      rw [serialRun_cons, ih _ fun other mem => keeps other (List.mem_cons_of_mem call mem)]
      exact settledAddresses_apply env s call calls (keeps call (List.mem_cons_self call calls))

/-! ## Interleaved runs -/

/-- Whether `Atlantisbase` has returned in the thread. -/
def Pc.returnedBase : Pc → Bool
  | .minerStart _ | .done _ => true
  | _ => false

/-- Whether the thread is a `StartMining` whose miner goroutine has run. -/
def Pc.hasMined : Pc → Bool
  | .done (.startMining (.ok ())) => true
  | _ => false

/-- Whether `StartMining` called `Atlantisbase`. -/
def Caller.mining : Caller → Bool
  | .direct => false
  | .startMining _ => true

/-- Whether the thread runs `StartMining`. -/
def Pc.mining : Pc → Bool
  | .readBase caller | .writeBase caller _ => caller.mining
  | .storeBase _ | .setMiner _ => false
  | .minerStart _ | .done (.startMining _) => true
  | .done _ => false

theorem Call.mining_start (call : Call) : call.start.mining = call.mines := by
  cases call <;> rfl

/-- The threads of a run without `SetAtlantisbase` in which `Atlantisbase` returns `result`. -/
def ThreadInv (env : Collaborators) (result : Except String Address) : Pc → Prop
  | .readBase _ => True
  | .writeBase _ account => firstAccount env.wallets = some account ∧ result = .ok account
  | .storeBase _ | .setMiner _ => False
  | .minerStart eb => spawned env result = some eb
  | .done (.atlantisbase returned) => returned = result
  | .done .setAtlantisbase => False
  | .done (.startMining outcome) => (outcome = .ok () ↔ (spawned env result).isSome)

/-- Once `Atlantisbase` returned, its caller writes neither address and moves to a thread of
the run. -/
theorem Caller.resume_settled (env : Collaborators) (caller : Caller)
    (result : Except String Address) (s : Service) :
    (caller.resume env result s).1.atherbase = s.atherbase ∧
      (caller.resume env result s).1.coinbase = s.coinbase ∧
      ThreadInv env result (caller.resume env result s).2 ∧
      (caller.resume env result s).2.returnedBase ∧
      (caller.resume env result s).2.hasMined = false ∧
      (caller.resume env result s).2.mining = caller.mining := by
  cases caller with
  | direct => simp [Caller.resume, ThreadInv, Pc.returnedBase, Pc.hasMined, Pc.mining,
      Caller.mining]
  | startMining localMining =>
      have ok := startMiningAfter_ok_iff env localMining result s
      rw [Caller.resume_startMining]
      cases spawn : spawned env result <;>
        simp_all [ThreadInv, Pc.returnedBase, Pc.hasMined, Pc.mining, Caller.mining]

/-- What one step of a thread does in a run without `SetAtlantisbase`, in which `Atlantisbase`
returns `result` and settles on `stored`. -/
structure SettledStep (env : Collaborators) (result : Except String Address) (stored : Address)
    (s : Service) (pc : Pc) (next : Service × Pc) : Prop where
  thread : ThreadInv env result next.2
  reads : (afterRead env next.1.atherbase).result = result
  settles : (afterRead env next.1.atherbase).stored next.1.atherbase = stored
  atherbase : next.1.atherbase = s.atherbase ∨ next.1.atherbase = stored
  returned : next.2.returnedBase → next.1.atherbase = stored
  coinbase : next.1.coinbase = s.coinbase ∨
    next.2.hasMined ∧ spawned env result = some next.1.coinbase
  mined : next.2.hasMined → spawned env result = some next.1.coinbase
  keeps_mined : pc.hasMined → next.2.hasMined

theorem Pc.step_settled {env : Collaborators} {result : Except String Address}
    {stored : Address} {s : Service} {pc : Pc} (thread : ThreadInv env result pc)
    (reads : (afterRead env s.atherbase).result = result)
    (settles : (afterRead env s.atherbase).stored s.atherbase = stored)
    (returned : pc.returnedBase → s.atherbase = stored)
    (mined : pc.hasMined → spawned env result = some s.coinbase) :
    SettledStep env result stored s pc (pc.step env s) := by
  cases pc with
  | readBase caller =>
      cases read : afterRead env s.atherbase with
      | returned returns =>
          have kept : s.atherbase = stored := by simpa [read, AfterRead.stored] using settles
          have returns_eq : returns = result := by simpa [read, AfterRead.result] using reads
          obtain ⟨atherbase, coinbase, thread', -, unmined, -⟩ :=
            caller.resume_settled env returns s
          subst returns_eq
          simp only [Pc.step, read]
          exact ⟨thread', by rw [atherbase, reads], by rw [atherbase, settles], .inl atherbase,
            fun _ => atherbase.trans kept, .inl coinbase, by simp [unmined],
            by simp [Pc.hasMined]⟩
      | configure account =>
          have first := firstAccount_of_afterRead read
          have returns : result = .ok account := by simpa [read, AfterRead.result] using reads.symm
          simp only [Pc.step, read]
          exact ⟨⟨first, returns⟩, reads, settles, .inl rfl, by simp [Pc.returnedBase], .inl rfl,
            by simp [Pc.hasMined], by simp [Pc.hasMined]⟩
  | writeBase caller account =>
      obtain ⟨first, returns⟩ := thread
      have written : stored = account := settles ▸ afterRead_stored_of_result (reads.trans returns)
      have result_account := afterRead_result_of_firstAccount first
      obtain ⟨atherbase, coinbase, thread', -, unmined, -⟩ :=
        caller.resume_settled env result { s with atherbase := account }
      simp only [Pc.step]
      rw [← returns]
      refine ⟨thread', ?_, ?_, .inr (atherbase.trans written.symm),
        fun _ => atherbase.trans written.symm, .inl coinbase, by simp [unmined],
        by simp [Pc.hasMined]⟩
      · rw [atherbase, result_account, returns]
      · rw [atherbase, afterRead_stored_of_result result_account, written]
  | storeBase => exact thread.elim
  | setMiner => exact thread.elim
  | minerStart eb =>
      have spawn : spawned env result = some eb := thread
      simp only [Pc.step]
      exact ⟨by simp [ThreadInv, spawn], reads, settles, .inl rfl, fun _ => returned rfl,
        .inr ⟨rfl, thread⟩, fun _ => thread, by simp [Pc.hasMined]⟩
  | done outcome =>
      exact ⟨thread, reads, settles, .inl rfl, returned, .inl rfl, mined, id⟩

/-- A step keeps whether a thread runs `StartMining`. -/
theorem Pc.step_mining (env : Collaborators) (s : Service) (pc : Pc) :
    (pc.step env s).2.mining = pc.mining := by
  cases pc with
  | readBase caller =>
      cases read : afterRead env s.atherbase with
      | returned result =>
          simp only [Pc.step, read]
          exact (caller.resume_settled env result s).2.2.2.2.2
      | configure account => simp only [Pc.step, read]; rfl
  | writeBase caller account => exact (caller.resume_settled env _ _).2.2.2.2.2
  | _ => rfl

theorem Pc.mining_of_hasMined {pc : Pc} (mined : pc.hasMined) : pc.mining := by
  rcases pc with _ | _ | _ | _ | _ | ((_ | _) | _ | (_ | _)) <;> simp_all [Pc.hasMined, Pc.mining]

theorem Pc.returnedBase_of_isDone {pc : Pc} (done : pc.isDone) : pc.returnedBase := by
  cases pc <;> simp_all [Pc.isDone, Pc.returnedBase]

theorem Pc.eq_startMining_of_isDone {pc : Pc} (done : pc.isDone) (mining : pc.mining) :
    ∃ outcome, pc = .done (.startMining outcome) := by
  rcases pc with _ | _ | _ | _ | _ | (_ | _ | outcome) <;>
    simp_all [Pc.isDone, Pc.mining]

/-- The invariant of an interleaved run without `SetAtlantisbase` from a state on which
`Atlantisbase` returns `result` and settles on `stored`, and whose miner mines to
`coinbase`. -/
structure Settled (env : Collaborators) (result : Except String Address) (stored coinbase : Address)
    (c : Config) : Prop where
  reads : (afterRead env c.service.atherbase).result = result
  settles : (afterRead env c.service.atherbase).stored c.service.atherbase = stored
  threads : ∀ pc ∈ c.threads, ThreadInv env result pc
  returned : ∀ pc ∈ c.threads, pc.returnedBase → c.service.atherbase = stored
  mined : ∀ pc ∈ c.threads, pc.hasMined → spawned env result = some c.service.coinbase
  idle : c.service.coinbase = coinbase ∨ ∃ pc ∈ c.threads, pc.hasMined

theorem Settled.step {env : Collaborators} {result : Except String Address}
    {stored coinbase : Address} {c : Config} (settled : Settled env result stored coinbase c)
    (thread : Nat) : Settled env result stored coinbase (c.step env thread) := by
  rcases Config.step_cases env c thread with same | ⟨pc, mem, service, next, threads, kept⟩
  · rw [same]
    exact settled
  have step := Pc.step_settled (settled.threads pc mem) settled.reads settled.settles
    (settled.returned pc mem) (settled.mined pc mem)
  refine ⟨service ▸ step.reads, service ▸ step.settles, fun q member => ?_,
    fun q member returned => ?_, fun q member mined => ?_, ?_⟩
  · rcases threads q member with old | rfl
    · exact settled.threads q old
    · exact step.thread
  all_goals rw [service]
  · rcases threads q member with old | rfl
    · rcases step.atherbase with same | written
      · exact same.trans (settled.returned q old returned)
      · exact written
    · exact step.returned returned
  · rcases threads q member with old | rfl
    · rcases step.coinbase with same | ⟨-, spawn⟩
      · exact same ▸ settled.mined q old mined
      · exact spawn
    · exact step.mined mined
  · rcases step.coinbase with same | ⟨mined, -⟩
    · rcases settled.idle with initial | ⟨q, old, mined⟩
      · exact .inl (same.trans initial)
      · rcases kept q old with still | rfl
        · exact .inr ⟨q, still, mined⟩
        · exact .inr ⟨_, next, step.keeps_mined mined⟩
    · exact .inr ⟨_, next, mined⟩

/-- The invariant holds over every interleaving. -/
theorem Settled.interleave {env : Collaborators} {result : Except String Address}
    {stored coinbase : Address} {c : Config} (settled : Settled env result stored coinbase c)
    (schedule : List Nat) :
    Settled env result stored coinbase (Coinbase.interleave env c schedule) :=
  interleave_induction (fun _ thread settled => settled.step thread) settled schedule

theorem Settled.launch (env : Collaborators) (s : Service) (calls : List Call)
    (keeps : ∀ call ∈ calls, call.setsBase = false) :
    Settled env (afterRead env s.atherbase).result ((afterRead env s.atherbase).stored s.atherbase)
      s.coinbase (Coinbase.launch s calls) := by
  have started : ∀ pc ∈ (Coinbase.launch s calls).threads, ∃ caller, pc = .readBase caller := by
    simp only [Coinbase.launch, List.mem_map]
    rintro _ ⟨call, mem, rfl⟩
    have := keeps call mem
    cases call <;> simp_all [Call.start, Call.setsBase]
  refine ⟨rfl, rfl, ?_, ?_, ?_, .inl rfl⟩ <;>
  · intro pc mem
    obtain ⟨caller, rfl⟩ := started pc mem
    simp [ThreadInv, Pc.returnedBase, Pc.hasMined]

/-- A step keeps which threads run `StartMining`. -/
theorem Config.step_mining (env : Collaborators) (c : Config) (thread : Nat) :
    (c.step env thread).threads.map Pc.mining = c.threads.map Pc.mining := by
  refine List.ext_getElem? fun j => ?_
  rw [List.getElem?_map, List.getElem?_map, Config.step_getElem?]
  split_ifs
  · cases c.threads[j]? <;> simp [Pc.step_mining]
  · rfl

/-- A run keeps which threads run `StartMining`. -/
theorem interleave_mining (env : Collaborators) (c : Config) (schedule : List Nat) :
    (interleave env c schedule).threads.map Pc.mining = c.threads.map Pc.mining :=
  @interleave_induction (fun c' => c'.threads.map Pc.mining = c.threads.map Pc.mining) env
    (fun c' thread same => (c'.step_mining env thread).trans same) c rfl schedule

theorem launch_mining (s : Service) (calls : List Call) :
    (launch s calls).threads.map Pc.mining = calls.map Call.mines := by
  simp [launch, Function.comp_def, Call.mining_start]

theorem interleave_no_threads (env : Collaborators) (s : Service) (schedule : List Nat) :
    interleave env ⟨s, []⟩ schedule = ⟨s, []⟩ :=
  @interleave_induction (· = ⟨s, []⟩) env (fun _ _ empty => by subst empty; simp [Config.step]) _
    rfl schedule

/-- Some thread of a run runs `StartMining` exactly when some call is `StartMining`. -/
theorem interleave_any_mining (env : Collaborators) (s : Service) (calls : List Call)
    (schedule : List Nat) :
    (interleave env (launch s calls) schedule).threads.any Pc.mining = calls.any Call.mines := by
  have kinds := congrArg (true ∈ ·)
    ((interleave_mining env (launch s calls) schedule).trans (launch_mining s calls))
  simp only [List.mem_map] at kinds
  rw [Bool.eq_iff_iff, List.any_eq_true, List.any_eq_true]
  exact Iff.of_eq kinds

/-- Once every thread of a run without `SetAtlantisbase` finished, the miner mines to the
address `StartMining` hands it when some thread ran `StartMining`, and keeps its own
otherwise. -/
theorem Settled.coinbase_of_finished {env : Collaborators} {result : Except String Address}
    {stored coinbase : Address} {final : Config} {mines : Bool}
    (settled : Settled env result stored coinbase final) (finished : final.Finished)
    (any_mining : final.threads.any Pc.mining = mines) :
    final.service.coinbase =
      match spawned env result with
      | some eb => if mines then eb else coinbase
      | none => coinbase := by
  have idle : (∀ pc ∈ final.threads, pc.hasMined = false) →
      final.service.coinbase = coinbase := fun unmined => by
    rcases settled.idle with initial | ⟨pc, mem, mined⟩
    · exact initial
    · simp [unmined pc mem] at mined
  cases spawn : spawned env result with
  | none =>
      refine idle fun pc mem => Bool.eq_false_iff.mpr fun mined => ?_
      simpa [spawn] using settled.mined pc mem mined
  | some eb =>
      cases mines with
      | false =>
          refine idle fun pc mem => Bool.eq_false_iff.mpr fun mined => ?_
          have : final.threads.any Pc.mining := List.any_eq_true.mpr
            ⟨pc, mem, Pc.mining_of_hasMined mined⟩
          simp_all
      | true =>
          obtain ⟨pc, mem, mining⟩ := List.any_eq_true.mp any_mining
          obtain ⟨outcome, rfl⟩ := Pc.eq_startMining_of_isDone (finished _ mem) mining
          have ok : outcome = .ok () := by
            simpa [ThreadInv, spawn] using settled.threads _ mem
          subst ok
          simpa [spawn] using (settled.mined _ mem rfl).symm

/-- A finished interleaving of calls without `SetAtlantisbase` leaves the settled addresses. -/
theorem interleave_addresses (env : Collaborators) (s : Service) (calls : List Call)
    (schedule : List Nat) (keeps : ∀ call ∈ calls, call.setsBase = false)
    (finished : (interleave env (launch s calls) schedule).Finished) :
    (interleave env (launch s calls) schedule).service.addresses =
      settledAddresses env s calls := by
  cases calls with
  | nil =>
      cases spawn : spawned env (afterRead env s.atherbase).result <;>
        simp [launch, interleave_no_threads, Service.addresses, settledAddresses, spawn]
  | cons call calls =>
      have settled := (Settled.launch env s (call :: calls) keeps).interleave schedule
      have started : (interleave env (launch s (call :: calls)) schedule).threads ≠ [] :=
        fun none => by
          simpa [none] using
            (interleave_mining env _ schedule).trans (launch_mining s (call :: calls))
      obtain ⟨first, first_mem⟩ := List.exists_mem_of_ne_nil _ started
      simp only [Service.addresses, settledAddresses, List.isEmpty_cons,
        settled.returned first first_mem (Pc.returnedBase_of_isDone (finished first first_mem)),
        settled.coinbase_of_finished finished (interleave_any_mining env s _ schedule)]
      rfl

/-- Interleaved calls without `SetAtlantisbase` are linearizable: every finished interleaving
leaves the addresses of every serial order of the calls, and once a `StartMining` succeeded the
miner mines to the node's `s.atherbase`. -/
theorem linearizable_without_setAtlantisbase (env : Collaborators) (s : Service)
    (calls : List Call) (schedule : List Nat) (keeps : ∀ call ∈ calls, call.setsBase = false)
    (finished : (interleave env (launch s calls) schedule).Finished) :
    Linearizable env s calls (interleave env (launch s calls) schedule).service ∧
      (∀ order, order.Perm calls →
        (serialRun env s order).addresses =
          (interleave env (launch s calls) schedule).service.addresses) ∧
      (.done (.startMining (.ok ())) ∈ (interleave env (launch s calls) schedule).threads →
        (interleave env (launch s calls) schedule).service.coinbase =
          (interleave env (launch s calls) schedule).service.atherbase) := by
  have every : ∀ order, order.Perm calls → (serialRun env s order).addresses =
      (interleave env (launch s calls) schedule).service.addresses := fun order perm => by
    rw [serialRun_addresses env s order fun call mem => keeps call (perm.mem_iff.mp mem),
      settledAddresses_perm perm, interleave_addresses env s calls schedule keeps finished]
  refine ⟨⟨calls, .refl calls, every calls (.refl calls)⟩, every, fun mem => ?_⟩
  have settled := (Settled.launch env s calls keeps).interleave schedule
  have result := spawned_eq_some (settled.mined _ mem rfl)
  rw [settled.returned _ mem rfl, afterRead_stored_of_result result]

/-- Two `StartMining` calls and an `Atlantisbase` on an unset address, interleaved. -/
theorem linearizable_without_setAtlantisbase_run :
    (∀ call ∈ [Call.startMining true, .atlantisbase, .startMining false],
        call.setsBase = false) ∧
      (interleave raceCollaborators
          (launch ⟨0, 0, 0, false⟩ [.startMining true, .atlantisbase, .startMining false])
          [0, 1, 2, 1, 0, 2, 0, 2]).Finished ∧
      Linearizable raceCollaborators ⟨0, 0, 0, false⟩
        [.startMining true, .atlantisbase, .startMining false]
        (interleave raceCollaborators
          (launch ⟨0, 0, 0, false⟩ [.startMining true, .atlantisbase, .startMining false])
          [0, 1, 2, 1, 0, 2, 0, 2]).service :=
  have keeps : ∀ call ∈ [Call.startMining true, .atlantisbase, .startMining false],
      call.setsBase = false := by decide
  have finished : (interleave raceCollaborators
      (launch ⟨0, 0, 0, false⟩ [.startMining true, .atlantisbase, .startMining false])
      [0, 1, 2, 1, 0, 2, 0, 2]).Finished := by decide
  ⟨keeps, finished,
    (linearizable_without_setAtlantisbase raceCollaborators ⟨0, 0, 0, false⟩ _ _ keeps
      finished).1⟩

end Coinbase
end AtlantisBackend
