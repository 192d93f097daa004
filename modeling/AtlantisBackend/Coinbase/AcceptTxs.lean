import AtlantisBackend.Coinbase.Interleaving

/-!
# Accepting transactions

Once its address and signer checks passed, `StartMining(true)` sets
`s.protocolManager.acceptTxs`, so that a node mining locally takes transactions from the
network; none of the three calls clears it.  In every interleaving of any calls,
`SetAtlantisbase` included, the flag is set exactly when it was set before the calls or the
thread of some local `StartMining` has passed its checks.
-/

namespace AtlantisBackend
namespace Coinbase

/-- Whether a thread of `StartMining` has passed its checks: it has spawned `miner.Start`, or
returned success. -/
def Pc.passed : Pc → Bool
  | .minerStart _ | .done (.startMining (.ok ())) => true
  | _ => false

/-- A thread that has not returned from `Atlantisbase` yet is at the caller of its call. -/
def Pc.Follows (call : Call) : Pc → Prop
  | .readBase caller | .writeBase caller _ => call.start = .readBase caller
  | _ => True

/-- Once `Atlantisbase` returned, the flag is set by the caller that is a local `StartMining`,
and only as the thread passes. -/
theorem Caller.resume_acceptTxs {env : Collaborators} {call : Call} {caller : Caller}
    (start : call.start = .readBase caller) (result : Except String Address) (s : Service) :
    (caller.resume env result s).1.acceptTxs =
      (s.acceptTxs || (call == .startMining true && (caller.resume env result s).2.passed)) := by
  cases call <;> simp [Call.start] at start <;> subst start
  · simp [Caller.resume, Pc.passed]
  · rename_i localMining
    rw [Caller.resume_startMining, startMiningAfter_acceptTxs]
    cases spawn : spawned env result with
    | none =>
        have failed := (startMiningAfter_ok_iff env localMining result s).not.mpr (by simp [spawn])
        rcases outcome : (startMiningAfter env localMining result s).1 with err | ⟨⟩
        · simp [Pc.passed]
        · exact absurd outcome failed
    | some eb => cases localMining <;> simp [Pc.passed]

theorem Caller.resume_follows (env : Collaborators) (call : Call) (caller : Caller)
    (result : Except String Address) (s : Service) :
    (caller.resume env result s).2.Follows call := by
  cases caller with
  | direct => trivial
  | startMining localMining =>
      rw [Caller.resume_startMining]
      cases spawned env result <;> trivial

/-- A step sets the flag exactly when it passes the thread of a local `StartMining`, and clears
it never. -/
theorem Pc.step_acceptTxs {env : Collaborators} {call : Call} {pc : Pc} (follows : pc.Follows call)
    (s : Service) :
    (pc.step env s).1.acceptTxs =
      (s.acceptTxs || (call == .startMining true && !pc.passed && (pc.step env s).2.passed)) := by
  cases pc with
  | readBase caller =>
      cases read : afterRead env s.atherbase with
      | returned result =>
          simpa [Pc.step, read, Pc.passed] using Caller.resume_acceptTxs follows result s
      | configure account => simp [Pc.step, read, Pc.passed]
  | writeBase caller account =>
      simpa [Pc.step, Pc.passed] using
        Caller.resume_acceptTxs follows (.ok account) { s with atherbase := account }
  | storeBase | setMiner | minerStart => simp [Pc.step, Pc.passed]
  | done outcome => simp [Pc.step]

theorem Pc.step_passed {env : Collaborators} {s : Service} {pc : Pc} (passed : pc.passed) :
    (pc.step env s).2.passed := by
  cases pc <;> simp_all [Pc.passed, Pc.step]

theorem Pc.step_follows {env : Collaborators} {s : Service} {call : Call} {pc : Pc}
    (follows : pc.Follows call) : (pc.step env s).2.Follows call := by
  cases pc with
  | readBase caller =>
      cases read : afterRead env s.atherbase with
      | returned result => simpa [Pc.step, read] using Caller.resume_follows env call caller result s
      | configure account => simpa [Pc.step, read, Pc.Follows] using follows
  | writeBase caller account => exact Caller.resume_follows env call caller _ _
  | storeBase | setMiner | minerStart | done => trivial

/-- The thread of some `StartMining(true)` call has passed its checks. -/
def Accepted (calls : List Call) (c : Config) : Prop :=
  ∃ (i : Nat) (pc : Pc), calls[i]? = some (.startMining true) ∧ c.threads[i]? = some pc ∧
    pc.passed

/-- A step of thread `stepped` passes no thread but its own, and no thread passed goes back. -/
theorem accepted_step_iff {env : Collaborators} {calls : List Call} {c : Config} {stepped : Nat}
    {pc : Pc} (at_pc : c.threads[stepped]? = some pc) :
    Accepted calls (c.step env stepped) ↔
      Accepted calls c ∨
        calls[stepped]? = some (.startMining true) ∧ (pc.step env c.service).2.passed := by
  have at_stepped : (c.step env stepped).threads[stepped]? = some (pc.step env c.service).2 := by
    rw [Config.step_getElem?, if_pos rfl, at_pc, Option.map_some']
  constructor
  · rintro ⟨i, q, at_call, at_q, passed⟩
    by_cases same : stepped = i
    · subst same
      rw [at_stepped, Option.some.injEq] at at_q
      exact .inr ⟨at_call, at_q ▸ passed⟩
    · rw [Config.step_getElem?, if_neg same] at at_q
      exact .inl ⟨i, q, at_call, at_q, passed⟩
  · rintro (⟨i, q, at_call, at_q, passed⟩ | ⟨at_call, passed⟩)
    · by_cases same : stepped = i
      · subst same
        obtain rfl := Option.some.inj (at_q.symm.trans at_pc)
        exact ⟨stepped, _, at_call, at_stepped, Pc.step_passed passed⟩
      · exact ⟨i, q, at_call, by rw [Config.step_getElem?, if_neg same, at_q], passed⟩
    · exact ⟨stepped, _, at_call, at_stepped, passed⟩

/-- The threads of a run from `s`, position by position against the calls, and the flag. -/
structure Accepts (env : Collaborators) (s : Service) (calls : List Call) (c : Config) :
    Prop where
  length : c.threads.length = calls.length
  follows : ∀ (i : Nat) (call : Call) (pc : Pc), calls[i]? = some call →
    c.threads[i]? = some pc → pc.Follows call
  accepts : c.service.acceptTxs ↔ s.acceptTxs ∨ Accepted calls c

theorem Accepts.step {env : Collaborators} {s : Service} {calls : List Call} {c : Config}
    (accepts : Accepts env s calls c) (stepped : Nat) : Accepts env s calls (c.step env stepped) := by
  rcases at_pc : c.threads[stepped]? with _ | pc
  · rwa [show c.step env stepped = c by simp [Config.step, at_pc]]
  obtain ⟨call, at_call⟩ : ∃ call, calls[stepped]? = some call :=
    ⟨_, List.getElem?_eq_getElem (accepts.length ▸ (List.getElem?_eq_some_iff.mp at_pc).1)⟩
  have follows := accepts.follows _ _ _ at_call at_pc
  have passed_before : call = .startMining true → pc.passed → c.service.acceptTxs :=
    fun mining passed => accepts.accepts.mpr (.inr ⟨stepped, pc, mining ▸ at_call, at_pc, passed⟩)
  refine ⟨by rw [Config.step_length, accepts.length],
    Config.step_pointwise env c stepped accepts.follows fun other q at_other at_q => ?_, ?_⟩
  · exact Pc.step_follows (accepts.follows stepped other q at_other at_q)
  · have service : (c.step env stepped).service = (pc.step env c.service).1 := by
      simp [Config.step, at_pc]
    rw [service, Pc.step_acceptTxs follows, accepted_step_iff at_pc, at_call, ← or_assoc,
      ← accepts.accepts]
    by_cases mining : call = .startMining true <;> cases passed : pc.passed <;> simp_all

theorem Accepts.interleave {env : Collaborators} {s : Service} {calls : List Call} {c : Config}
    (accepts : Accepts env s calls c) (schedule : List Nat) :
    Accepts env s calls (Coinbase.interleave env c schedule) :=
  interleave_induction (fun _ stepped accepts => accepts.step stepped) accepts schedule

theorem Accepts.launch (env : Collaborators) (s : Service) (calls : List Call) :
    Accepts env s calls (Coinbase.launch s calls) := by
  have at_start : ∀ (i : Nat) (pc : Pc), (Coinbase.launch s calls).threads[i]? = some pc →
      ∃ call : Call, calls[i]? = some call ∧ call.start = pc := fun i pc at_pc => by
    simpa [Coinbase.launch, List.getElem?_map, Option.map_eq_some'] using at_pc
  refine ⟨by simp [Coinbase.launch], fun i call pc at_call at_pc => ?_,
    ⟨.inl, fun accepted => accepted.elim id ?_⟩⟩
  · obtain ⟨same, at_same, rfl⟩ := at_start i pc at_pc
    obtain rfl := Option.some.inj (at_same.symm.trans at_call)
    cases same <;> trivial
  · rintro ⟨i, pc, -, at_pc, passed⟩
    obtain ⟨call, -, rfl⟩ := at_start i pc at_pc
    cases call <;> simp [Call.start, Pc.passed] at passed

/-- In every interleaving of any calls, `SetAtlantisbase` included, and at every point of it,
the protocol manager accepts transactions exactly when it did before the calls or the thread of
some `StartMining(true)` call has passed its checks: no call clears `acceptTxs`, and none but a
local `StartMining` that found its address and its signer sets it. -/
theorem interleave_acceptTxs (env : Collaborators) (s : Service) (calls : List Call)
    (schedule : List Nat) :
    (interleave env (launch s calls) schedule).service.acceptTxs ↔
      s.acceptTxs ∨ Accepted calls (interleave env (launch s calls) schedule) :=
  ((Accepts.launch env s calls).interleave schedule).accepts

end Coinbase
end AtlantisBackend
