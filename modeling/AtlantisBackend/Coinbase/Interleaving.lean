import AtlantisBackend.Coinbase.Service
import Mathlib.Data.List.Permutation

/-!
# Interleaved calls on the mining address

Every call runs as a thread, and a schedule of thread indices interleaves their atomic steps.
The atomic steps are the critical sections of `s.lock`, the call of `miner.SetAtlantisbase` and
the goroutine `miner.Start(eb)` that `StartMining` spawns.  The signer check and the `acceptTxs`
store of `StartMining` touch no state another call reads, so they run with the step at which
`Atlantisbase` returns.  The calls are linearizable when every finished interleaving leaves the
addresses of some serial run of the same calls.
-/

namespace AtlantisBackend
namespace Coinbase

/-- Who called `Atlantisbase`: a client directly, or `StartMining`. -/
inductive Caller
  | direct
  | startMining (localMining : Bool)

/-- Where a thread stands between two atomic steps. -/
inductive Pc
  /-- Before the locked read of `s.atherbase` in `Atlantisbase`. -/
  | readBase (caller : Caller)
  /-- Before the locked store of the first local account in `Atlantisbase`. -/
  | writeBase (caller : Caller) (account : Address)
  /-- Before the locked store of `SetAtlantisbase`. -/
  | storeBase (atherbase : Address)
  /-- Before `miner.SetAtlantisbase` in `SetAtlantisbase`. -/
  | setMiner (atherbase : Address)
  /-- The spawned goroutine `miner.Start(eb)`, not yet run; `StartMining` has returned. -/
  | minerStart (eb : Address)
  /-- Finished with its outcome. -/
  | done (outcome : Outcome)

/-- The thread of a call, before its first step. -/
def Call.start : Call → Pc
  | .atlantisbase => .readBase .direct
  | .setAtlantisbase atherbase => .storeBase atherbase
  | .startMining localMining => .readBase (.startMining localMining)

/-- How a caller goes on once `Atlantisbase` returned `result`. -/
def Caller.resume (env : Collaborators) : Caller → Except String Address → Service → Service × Pc
  | .direct, result, s => (s, .done (.atlantisbase result))
  | .startMining localMining, result, s =>
      match startMiningAfter env localMining result s with
      | (_, s, some eb) => (s, .minerStart eb)
      | (outcome, s, none) => (s, .done (.startMining outcome))

/-- One atomic step of a thread. -/
def Pc.step (env : Collaborators) (s : Service) : Pc → Service × Pc
  | .readBase caller =>
      match afterRead env s.atherbase with
      | .returned result => caller.resume env result s
      | .configure account => (s, .writeBase caller account)
  | .writeBase caller account => caller.resume env (.ok account) { s with atherbase := account }
  | .storeBase atherbase => ({ s with atherbase := atherbase }, .setMiner atherbase)
  | .setMiner atherbase => ({ s with coinbase := atherbase }, .done .setAtlantisbase)
  | .minerStart eb => ({ s with coinbase := eb }, .done (.startMining (.ok ())))
  | .done outcome => (s, .done outcome)

/-- Whether a thread has finished. -/
def Pc.isDone : Pc → Bool
  | .done _ => true
  | _ => false

theorem Pc.eq_done_of_isDone {pc : Pc} (finished : pc.isDone) : ∃ outcome, pc = .done outcome := by
  cases pc <;> simp_all [Pc.isDone]

/-- The service and its threads. -/
structure Config where
  /-- The shared state. -/
  service : Service
  /-- One thread per call, in the order of the calls. -/
  threads : List Pc

/-- One atomic step of the thread at index `thread`; an index past the threads is no step. -/
def Config.step (env : Collaborators) (c : Config) (thread : Nat) : Config :=
  match c.threads[thread]? with
  | some pc => ⟨(pc.step env c.service).1, c.threads.set thread (pc.step env c.service).2⟩
  | none => c

/-- A step of a configuration leaves it as it is, or runs one of its threads `pc`: the service
becomes `pc`'s next state, `pc`'s next position joins the threads, and every other thread
stays. -/
theorem Config.step_cases (env : Collaborators) (c : Config) (thread : Nat) :
    c.step env thread = c ∨
      ∃ pc ∈ c.threads, (c.step env thread).service = (pc.step env c.service).1 ∧
        (pc.step env c.service).2 ∈ (c.step env thread).threads ∧
        (∀ q ∈ (c.step env thread).threads, q ∈ c.threads ∨ q = (pc.step env c.service).2) ∧
        ∀ q ∈ c.threads, q ∈ (c.step env thread).threads ∨ q = pc := by
  rcases at_i : c.threads[thread]? with _ | pc
  · exact .inl (by simp [Config.step, at_i])
  have stepped : c.step env thread =
      ⟨(pc.step env c.service).1, c.threads.set thread (pc.step env c.service).2⟩ := by
    simp only [Config.step, at_i]
  obtain ⟨bound, rfl⟩ := List.getElem?_eq_some_iff.mp at_i
  rw [stepped]
  refine .inr ⟨_, List.getElem?_mem at_i, rfl, List.mem_set _ _ bound _,
    fun q => List.mem_or_eq_of_mem_set, fun q mem => ?_⟩
  obtain ⟨j, at_j⟩ := List.mem_iff_getElem?.mp mem
  by_cases same : thread = j
  · subst same
    exact .inr (Option.some.inj (at_j.symm.trans at_i))
  · exact .inl (List.mem_iff_getElem?.mpr ⟨j, by rw [List.getElem?_set_ne same, at_j]⟩)

/-- A step of thread `stepped` moves that thread to its next position and leaves every other
thread where it stands. -/
theorem Config.step_getElem? (env : Collaborators) (c : Config) (stepped thread : Nat) :
    (c.step env stepped).threads[thread]? =
      if stepped = thread then c.threads[thread]?.map fun pc => (pc.step env c.service).2
      else c.threads[thread]? := by
  rcases at_i : c.threads[stepped]? with _ | pc
  · simp only [Config.step, at_i]
    split_ifs with same
    · subst same
      rw [at_i, Option.map_none']
    · rfl
  · simp only [Config.step, at_i, List.getElem?_set]
    split_ifs with same bound
    · subst same
      rw [at_i, Option.map_some']
    · exact absurd (List.getElem?_eq_some_iff.mp at_i).1 bound
    · rfl

theorem Config.step_length (env : Collaborators) (c : Config) (stepped : Nat) :
    (c.step env stepped).threads.length = c.threads.length := by
  unfold Config.step
  split
  · exact List.length_set _ _ _
  · rfl

/-- A relation of each call to its thread holds after a step when it held before and the thread
that moved still stands in it. -/
theorem Config.step_pointwise {R : Call → Pc → Prop} {calls : List Call} (env : Collaborators)
    (c : Config) (stepped : Nat)
    (holds : ∀ (i : Nat) (call : Call) (pc : Pc), calls[i]? = some call →
      c.threads[i]? = some pc → R call pc)
    (moved : ∀ (call : Call) (pc : Pc), calls[stepped]? = some call →
      c.threads[stepped]? = some pc → R call (pc.step env c.service).2) :
    ∀ (i : Nat) (call : Call) (pc : Pc), calls[i]? = some call →
      (c.step env stepped).threads[i]? = some pc → R call pc := by
  intro i call pc at_call at_pc
  rw [Config.step_getElem?] at at_pc
  split_ifs at at_pc with same
  · subst same
    obtain ⟨before, at_before, rfl⟩ := Option.map_eq_some'.mp at_pc
    exact moved call before at_call at_before
  · exact holds i call pc at_call at_pc

/-- The steps a schedule of thread indices picks, one after another. -/
def interleave (env : Collaborators) : Config → List Nat → Config
  | c, [] => c
  | c, thread :: schedule => interleave env (c.step env thread) schedule

/-- What every step keeps holds after every schedule. -/
theorem interleave_induction {P : Config → Prop} {env : Collaborators}
    (step : ∀ c stepped, P c → P (c.step env stepped)) {c : Config} (holds : P c)
    (schedule : List Nat) : P (interleave env c schedule) := by
  induction schedule generalizing c with
  | nil => exact holds
  | cons stepped schedule ih => exact ih (step c stepped holds)

/-- The calls as threads on the service, none of them started. -/
def launch (s : Service) (calls : List Call) : Config := ⟨s, calls.map Call.start⟩

/-- Every thread has finished. -/
def Config.Finished (c : Config) : Prop := ∀ pc ∈ c.threads, pc.isDone

instance (c : Config) : Decidable c.Finished :=
  inferInstanceAs (Decidable (∀ pc ∈ c.threads, pc.isDone))

/-! ## Serial schedules -/

/-- The schedule that runs the threads from `first` on one after another, each for three
steps, the most a call takes. -/
def serialSchedule (first : Nat) : Nat → List Nat
  | 0 => []
  | count + 1 => first :: first :: first :: serialSchedule (first + 1) count

theorem Config.step_at (env : Collaborators) (s : Service) (before : List Pc) (pc : Pc)
    (later : List Pc) :
    Config.step env ⟨s, before ++ pc :: later⟩ before.length =
      ⟨(pc.step env s).1, before ++ (pc.step env s).2 :: later⟩ := by
  have at_thread : (before ++ pc :: later)[before.length]? = some pc := by
    rw [List.getElem?_append_right (Nat.le_refl _), Nat.sub_self, List.getElem?_cons_zero]
  simp only [Config.step, at_thread, List.set_append_right _ _ (Nat.le_refl _), Nat.sub_self,
    List.set_cons_zero]

theorem Caller.resume_startMining (env : Collaborators) (localMining : Bool)
    (result : Except String Address) (s : Service) :
    Caller.resume env (.startMining localMining) result s =
      ((startMiningAfter env localMining result s).2.1,
        match spawned env result with
        | some eb => .minerStart eb
        | none => .done (.startMining (startMiningAfter env localMining result s).1)) := by
  have spawn := startMiningAfter_spawned env localMining result s
  simp only [Caller.resume]
  generalize startMiningAfter env localMining result s = after at spawn ⊢
  rcases after with ⟨outcome, s', _ | eb⟩ <;> rw [← spawn]

/-- The step after `StartMining`'s `Atlantisbase` returned finishes the call. -/
theorem Caller.resume_startMining_step (env : Collaborators) (localMining : Bool)
    (result : Except String Address) (s : Service) :
    (Pc.step env (Caller.resume env (.startMining localMining) result s).1
        (Caller.resume env (.startMining localMining) result s).2) =
      match startMiningAfter env localMining result s with
      | (outcome, s', some eb) => ({ s' with coinbase := eb }, .done (.startMining outcome))
      | (outcome, s', none) => (s', .done (.startMining outcome)) := by
  have ok := startMiningAfter_ok_iff env localMining result s
  have spawn := startMiningAfter_spawned env localMining result s
  simp only [Caller.resume]
  generalize startMiningAfter env localMining result s = after at ok spawn ⊢
  rcases after with ⟨outcome, s', _ | eb⟩
  · rfl
  · rw [← spawn] at ok
    simp only [Option.isSome_some, iff_true] at ok
    simp [Pc.step, ok]

/-- Run alone for three steps, the thread of a call finishes with the outcome and the state of
the call run to its end. -/
theorem Call.start_steps (env : Collaborators) (call : Call) (s : Service) :
    ((call.start.step env s).2.step env (call.start.step env s).1).2.step env
        ((call.start.step env s).2.step env (call.start.step env s).1).1 =
      ((call.apply env s).2, .done (call.apply env s).1) := by
  cases call with
  | atlantisbase =>
      cases read : afterRead env s.atherbase <;>
        simp [Call.start, Pc.step, read, Caller.resume, Call.apply, Coinbase.atlantisbase]
  | setAtlantisbase atherbase => rfl
  | startMining localMining =>
      cases read : afterRead env s.atherbase with
      | returned result =>
          have first : (Call.startMining localMining).start.step env s =
              Caller.resume env (.startMining localMining) result s := by
            simp [Call.start, Pc.step, read]
          rw [first, Caller.resume_startMining_step]
          simp only [Call.apply, Coinbase.startMining, Coinbase.atlantisbase, read]
          rcases startMiningAfter env localMining result s with ⟨outcome, s', _ | eb⟩ <;> rfl
      | configure account =>
          have first : (Call.startMining localMining).start.step env s =
              (s, .writeBase (.startMining localMining) account) := by
            simp [Call.start, Pc.step, read]
          rw [first, Pc.step, Caller.resume_startMining_step]
          simp only [Call.apply, Coinbase.startMining, Coinbase.atlantisbase, read]
          rcases startMiningAfter env localMining (.ok account) { s with atherbase := account }
            with ⟨outcome, s', _ | eb⟩ <;> rfl

/-- A serial schedule runs the calls one after another to their ends: it finishes every thread
and leaves the state of the serial run. -/
theorem interleave_serialSchedule (env : Collaborators) (s : Service) (calls : List Call) :
    (interleave env (launch s calls) (serialSchedule 0 calls.length)).Finished ∧
      (interleave env (launch s calls) (serialSchedule 0 calls.length)).service =
        serialRun env s calls := by
  suffices general : ∀ (before : List Pc) (s : Service), (∀ pc ∈ before, pc.isDone) →
      (interleave env ⟨s, before ++ calls.map Call.start⟩
          (serialSchedule before.length calls.length)).Finished ∧
        (interleave env ⟨s, before ++ calls.map Call.start⟩
          (serialSchedule before.length calls.length)).service = serialRun env s calls from
    general [] s (by simp)
  induction calls with
  | nil => exact fun before s done => ⟨by simpa [Config.Finished] using done, rfl⟩
  | cons call calls ih =>
      intro before s done
      have finished := ih (before ++ [.done (call.apply env s).1]) (call.apply env s).2
        (List.forall_mem_append.mpr ⟨done, by simp [Pc.isDone]⟩)
      simp only [List.length_append, List.length_singleton, List.append_assoc,
        List.singleton_append] at finished
      simp only [List.map_cons, List.length_cons, serialSchedule, interleave, Config.step_at,
        Call.start_steps, serialRun_cons]
      exact finished

/-- The addresses `final` leaves are those of a serial run of the calls in some order. -/
def Linearizable (env : Collaborators) (s : Service) (calls : List Call) (final : Service) :
    Prop :=
  ∃ order, order.Perm calls ∧ (serialRun env s order).addresses = final.addresses

theorem linearizable_iff_mem_permutations {env : Collaborators} {s : Service}
    {calls : List Call} {final : Service} :
    Linearizable env s calls final ↔
      ∃ order ∈ calls.permutations', (serialRun env s order).addresses = final.addresses := by
  simp only [Linearizable, List.mem_permutations', exists_prop]

instance (env : Collaborators) (s : Service) (calls : List Call) (final : Service) :
    Decidable (Linearizable env s calls final) :=
  decidable_of_iff _ linearizable_iff_mem_permutations.symm

/-- The collaborators of the races below: one wallet with account `7`, and no clique. -/
def raceCollaborators : Collaborators := ⟨[[7]], false, fun _ => .ok ()⟩

/-- Interleaved calls are not linearizable once `SetAtlantisbase` overlaps another call.  Two
`SetAtlantisbase` calls leave `s.atherbase` and the miner apart; an `Atlantisbase` that read
the unset address stores the local account over a `SetAtlantisbase` finished in between; a
`StartMining` hands the miner an address replaced in between. -/
theorem setAtlantisbase_races :
    (let calls := [Call.setAtlantisbase 1, .setAtlantisbase 2]
     let final := interleave raceCollaborators (launch ⟨0, 0, 0, false⟩ calls) [0, 1, 1, 0]
     final.Finished ∧ ¬ Linearizable raceCollaborators ⟨0, 0, 0, false⟩ calls final.service) ∧
    (let calls := [Call.atlantisbase, .setAtlantisbase 5]
     let final := interleave raceCollaborators (launch ⟨0, 0, 0, false⟩ calls) [0, 1, 1, 0]
     final.Finished ∧ ¬ Linearizable raceCollaborators ⟨0, 0, 0, false⟩ calls final.service) ∧
    (let calls := [Call.startMining false, .setAtlantisbase 5]
     let final := interleave raceCollaborators (launch ⟨3, 0, 0, false⟩ calls) [0, 1, 1, 0]
     final.Finished ∧ ¬ Linearizable raceCollaborators ⟨3, 0, 0, false⟩ calls final.service) := by
  decide

end Coinbase
end AtlantisBackend
