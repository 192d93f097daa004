import AtlantisBackend.Coinbase.Linearizability

/-!
# What the calls return

Without `SetAtlantisbase`, a call returns what it returns when it runs alone on the initial
state, whatever the interleaving: `Atlantisbase` the address the node settles on, `StartMining`
the outcome of its checks on that address.  Every serial order returns the same, so the calls
are linearizable in what they return as well as in the addresses they leave.
-/

namespace AtlantisBackend
namespace Coinbase

/-- What the calls return when they run one after another, each to its end. -/
def serialOutcomes (env : Collaborators) (s : Service) : List Call → List Outcome
  | [] => []
  | call :: calls => (call.apply env s).1 :: serialOutcomes env (call.apply env s).2 calls

/-- What a call returns depends only on what `Atlantisbase` returns on the state it starts
from. -/
theorem Call.apply_fst_congr (env : Collaborators) (call : Call) {s s' : Service}
    (same : (afterRead env s.atherbase).result = (afterRead env s'.atherbase).result) :
    (call.apply env s).1 = (call.apply env s').1 := by
  cases call with
  | atlantisbase => simp [Call.apply, same]
  | setAtlantisbase => rfl
  | startMining localMining =>
      simp only [Call.apply, startMining_fst, same, startMiningAfter_fst env localMining _ s s']

/-- A call other than `SetAtlantisbase` leaves what `Atlantisbase` returns unchanged. -/
theorem Call.apply_result (env : Collaborators) (call : Call) (s : Service)
    (keeps : call.setsBase = false) :
    (afterRead env (call.apply env s).2.atherbase).result = (afterRead env s.atherbase).result := by
  cases call with
  | atlantisbase => simpa [Call.apply] using (afterRead_settled env s.atherbase).1
  | setAtlantisbase => simp [Call.setsBase] at keeps
  | startMining localMining => simpa [Call.apply] using (afterRead_settled env s.atherbase).1

/-- In a serial run without `SetAtlantisbase`, every call returns what it returns alone from the
initial state. -/
theorem serialOutcomes_eq (env : Collaborators) (s : Service) (calls : List Call)
    (keeps : ∀ call ∈ calls, call.setsBase = false) :
    serialOutcomes env s calls = calls.map fun call => (call.apply env s).1 := by
  induction calls generalizing s with
  | nil => rfl
  | cons call calls ih =>
      have same := call.apply_result env s (keeps call (List.mem_cons_self _ _))
      rw [serialOutcomes, ih _ fun other mem => keeps other (List.mem_cons_of_mem _ mem),
        List.map_cons, List.map_congr_left fun other _ => other.apply_fst_congr env same]

/-! ## Interleaved runs -/

/-- Thread `pc` runs `call` in a run from `s` without `SetAtlantisbase`, and has returned what
`call` returns alone from `s` once it finished. -/
def Pc.Runs (env : Collaborators) (s : Service) (call : Call) : Pc → Prop
  | .readBase caller => call.start = .readBase caller
  | .writeBase caller account =>
      call.start = .readBase caller ∧ (afterRead env s.atherbase).result = .ok account
  | .storeBase _ | .setMiner _ => False
  | .minerStart eb => call.mines ∧ spawned env (afterRead env s.atherbase).result = some eb
  | .done outcome => outcome = (call.apply env s).1

/-- Once `Atlantisbase` returned what it returns from `s`, its caller goes on as `call` does. -/
theorem Caller.resume_runs {env : Collaborators} {s : Service} {call : Call} {caller : Caller}
    (current : Service) (start : call.start = .readBase caller) :
    (caller.resume env (afterRead env s.atherbase).result current).2.Runs env s call := by
  cases caller with
  | direct =>
      obtain rfl : call = .atlantisbase := by cases call <;> simp_all [Call.start]
      simp [Caller.resume, Pc.Runs, Call.apply]
  | startMining localMining =>
      obtain rfl : call = .startMining localMining := by cases call <;> simp_all [Call.start]
      rw [Caller.resume_startMining]
      cases spawn : spawned env (afterRead env s.atherbase).result with
      | none =>
          simp [Pc.Runs, Call.apply, startMining_fst,
            startMiningAfter_fst env localMining _ current s]
      | some eb => simp [Pc.Runs, Call.mines, spawn]

/-- A step keeps a thread on the way of its call, on a state from which `Atlantisbase` returns
what it returns from `s`. -/
theorem Pc.step_runs {env : Collaborators} {s : Service} {call : Call} {current : Service}
    {pc : Pc} (runs : pc.Runs env s call)
    (reads : (afterRead env current.atherbase).result = (afterRead env s.atherbase).result) :
    (pc.step env current).2.Runs env s call := by
  cases pc with
  | readBase caller =>
      cases read : afterRead env current.atherbase with
      | returned result =>
          obtain rfl : result = (afterRead env s.atherbase).result := by
            simpa [read, AfterRead.result] using reads
          simpa only [Pc.step, read] using Caller.resume_runs current runs
      | configure account =>
          simp only [Pc.step, read]
          exact ⟨runs, by simpa [read, AfterRead.result] using reads.symm⟩
  | writeBase caller account =>
      obtain ⟨start, returns⟩ := runs
      simp only [Pc.step]
      rw [← returns]
      exact Caller.resume_runs _ start
  | storeBase | setMiner => exact runs.elim
  | minerStart eb =>
      obtain ⟨mines, spawn⟩ := runs
      obtain ⟨localMining, rfl⟩ : ∃ localMining, call = .startMining localMining := by
        cases call <;> simp_all [Call.mines]
      have ok := (startMiningAfter_ok_iff env localMining (afterRead env s.atherbase).result s).mpr
        (by simp [spawn])
      simp [Pc.step, Pc.Runs, Call.apply, startMining_fst, ok]
  | done outcome => exact runs

/-- The threads of a run without `SetAtlantisbase`, position by position against the calls. -/
structure Returns (env : Collaborators) (s : Service) (calls : List Call) (c : Config) :
    Prop where
  settled : Settled env (afterRead env s.atherbase).result
    ((afterRead env s.atherbase).stored s.atherbase) s.coinbase c
  length : c.threads.length = calls.length
  runs : ∀ (i : Nat) (call : Call) (pc : Pc), calls[i]? = some call → c.threads[i]? = some pc →
    pc.Runs env s call

theorem Returns.step {env : Collaborators} {s : Service} {calls : List Call} {c : Config}
    (returns : Returns env s calls c) (stepped : Nat) : Returns env s calls (c.step env stepped) := by
  refine ⟨returns.settled.step stepped, by rw [Config.step_length, returns.length],
    Config.step_pointwise env c stepped returns.runs fun call pc at_call at_pc => ?_⟩
  exact Pc.step_runs (returns.runs stepped call pc at_call at_pc) returns.settled.reads

theorem Returns.interleave {env : Collaborators} {s : Service} {calls : List Call} {c : Config}
    (returns : Returns env s calls c) (schedule : List Nat) :
    Returns env s calls (Coinbase.interleave env c schedule) :=
  interleave_induction (fun _ stepped returns => returns.step stepped) returns schedule

theorem Returns.launch (env : Collaborators) (s : Service) (calls : List Call)
    (keeps : ∀ call ∈ calls, call.setsBase = false) : Returns env s calls (Coinbase.launch s calls) := by
  refine ⟨Settled.launch env s calls keeps, by simp [Coinbase.launch],
    fun i call pc at_call at_pc => ?_⟩
  simp only [Coinbase.launch, List.getElem?_map, at_call, Option.map_some',
    Option.some.injEq] at at_pc
  subst at_pc
  have kept := keeps call (List.getElem?_mem at_call)
  cases call <;> simp_all [Call.start, Pc.Runs, Call.setsBase]

/-- Without `SetAtlantisbase`, the calls are linearizable in what they return: in every finished
interleaving each call returns what it returns alone from the initial state, and so does each
call of every serial order. -/
theorem outcomes_linearizable_without_setAtlantisbase (env : Collaborators) (s : Service)
    (calls : List Call) (schedule : List Nat) (keeps : ∀ call ∈ calls, call.setsBase = false)
    (finished : (interleave env (launch s calls) schedule).Finished) :
    (interleave env (launch s calls) schedule).threads =
        calls.map (fun call => .done (call.apply env s).1) ∧
      ∀ order, order.Perm calls →
        serialOutcomes env s order = order.map fun call => (call.apply env s).1 := by
  refine ⟨?_, fun order perm =>
    serialOutcomes_eq env s order fun call mem => keeps call (perm.mem_iff.mp mem)⟩
  have returns := (Returns.launch env s calls keeps).interleave schedule
  apply List.ext_getElem?
  intro i
  rw [List.getElem?_map]
  rcases at_call : calls[i]? with _ | call
  · exact List.getElem?_eq_none (returns.length ▸ List.getElem?_eq_none_iff.mp at_call)
  · have bound : i < (interleave env (launch s calls) schedule).threads.length :=
      returns.length ▸ (List.getElem?_eq_some_iff.mp at_call).1
    have at_pc := List.getElem?_eq_getElem bound
    obtain ⟨outcome, done⟩ := Pc.eq_done_of_isDone (finished _ (List.getElem?_mem at_pc))
    have alone : outcome = (call.apply env s).1 :=
      returns.runs i call (.done outcome) at_call (at_pc.trans (by rw [done]))
    rw [at_pc, done, Option.map_some', alone]

/-- Two `StartMining` calls and an `Atlantisbase` on an unset address, interleaved, each return
what they return alone. -/
theorem outcomes_linearizable_run :
    (interleave raceCollaborators
        (launch ⟨0, 0, 0, false⟩ [.startMining true, .atlantisbase, .startMining false])
        [0, 1, 2, 1, 0, 2, 0, 2]).threads =
      ([.startMining true, .atlantisbase, .startMining false] : List Call).map
        fun call => .done (call.apply raceCollaborators ⟨0, 0, 0, false⟩).1 :=
  (outcomes_linearizable_without_setAtlantisbase raceCollaborators _ _ _ (by decide)
    (by decide)).1

end Coinbase
end AtlantisBackend
