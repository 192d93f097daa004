import AtlantisBackend.Lifecycle.Components

/-!
# Shutdown under interleaving

A run of the service interleaves its lifecycle, the calls `New`, `Start` and `Stop` one after
another, with the work of the running components, each of which may at any moment operate on a
component it uses.  The states a run reaches are exactly the prefixes of the lifecycle, so a
running component can meet a stopped one it uses exactly when `Stop` stops the used component
while the user still runs.
-/

namespace AtlantisBackend
namespace Lifecycle

/-- Where a component stands. -/
inductive Status
  | idle
  | running
  | stopped
  deriving DecidableEq, Repr

/-- One call of the lifecycle on a component. -/
inductive Action
  | start (component : Component)
  | stop (component : Component)

/-- The lifecycle of the service: `New`, `Start` and `Stop`, in order. -/
def lifecycle (setup : Setup) : List Action :=
  (newOrder ++ startOrder setup).map .start ++ (stopOrder setup.lesServer).map .stop

/-- The statuses once an action ran. -/
def Action.apply (status : Component → Status) : Action → Component → Status
  | .start component => Function.update status component .running
  | .stop component => Function.update status component .stopped

/-- The service during a run. -/
structure Node where
  /-- The status of each component. -/
  status : Component → Status
  /-- The lifecycle actions still to come. -/
  pending : List Action

/-- An event of a run. -/
inductive Event
  /-- The lifecycle performs its next action. -/
  | lifecycle
  /-- A running component operates on a component it uses. -/
  | operate (user used : Component)

/-- One step of a run. -/
inductive Step : Node → Event → Node → Prop
  | lifecycle (status : Component → Status) (action : Action) (pending : List Action) :
      Step ⟨status, action :: pending⟩ .lifecycle ⟨action.apply status, pending⟩
  | operate (node : Node) (user used : Component) (running : node.status user = .running)
      (wired : uses user used) : Step node (.operate user used) node

/-- The service before `New`. -/
def initial (setup : Setup) : Node := ⟨fun _ => .idle, lifecycle setup⟩

/-- The states a run of the service reaches. -/
inductive Reachable (setup : Setup) : Node → Prop
  | initial : Reachable setup (initial setup)
  | step {node next : Node} {event : Event} :
      Reachable setup node → Step node event next → Reachable setup next

/-- Some run has a running component operate on a component that is already stopped. -/
def UseAfterStop (setup : Setup) (user used : Component) : Prop :=
  ∃ node, Reachable setup node ∧ Step node (.operate user used) node ∧
    node.status used = .stopped

theorem step_lifecycle_iff {node next : Node} :
    Step node .lifecycle next ↔ ∃ action pending, node.pending = action :: pending ∧
      next = ⟨action.apply node.status, pending⟩ := by
  constructor
  · rintro ⟨status, action, pending⟩
    exact ⟨action, pending, rfl, rfl⟩
  · obtain ⟨status, pending⟩ := node
    rintro ⟨action, pending, rfl, rfl⟩
    exact .lifecycle _ _ _

theorem step_operate_iff {node next : Node} {user used : Component} :
    Step node (.operate user used) next ↔
      next = node ∧ node.status user = .running ∧ uses user used := by
  constructor
  · rintro ⟨⟩
    exact ⟨rfl, ‹_›, ‹_›⟩
  · rintro ⟨rfl, running, wired⟩
    exact .operate _ _ _ running wired

/-! ## Reachable states -/

/-- The statuses once the actions ran, from nothing started. -/
def statusAfter (actions : List Action) : Component → Status :=
  actions.foldl Action.apply fun _ => .idle

/-- The state after the first `done` actions of the lifecycle. -/
def after (setup : Setup) (done : Nat) : Node :=
  ⟨statusAfter ((lifecycle setup).take done), (lifecycle setup).drop done⟩

theorem step_after {setup : Setup} {done : Nat} (bound : done < (lifecycle setup).length) :
    Step (after setup done) .lifecycle (after setup (done + 1)) := by
  refine step_lifecycle_iff.mpr ⟨(lifecycle setup)[done], (lifecycle setup).drop (done + 1),
    List.drop_eq_getElem_cons bound, ?_⟩
  simp only [after, statusAfter, List.take_succ, List.getElem?_eq_getElem bound,
    Option.toList_some, List.foldl_append, List.foldl_cons, List.foldl_nil]

/-- The states a run reaches are the prefixes of the lifecycle. -/
theorem reachable_iff (setup : Setup) (node : Node) :
    Reachable setup node ↔ ∃ done ≤ (lifecycle setup).length, node = after setup done := by
  constructor
  · intro reach
    induction reach with
    | initial => exact ⟨0, Nat.zero_le _, rfl⟩
    | @step node next event _ step ih =>
        obtain ⟨done, bound, rfl⟩ := ih
        cases event with
        | operate user used => exact ⟨done, bound, (step_operate_iff.mp step).1⟩
        | lifecycle =>
            obtain ⟨action, pending, more, rfl⟩ := step_lifecycle_iff.mp step
            have below : done < (lifecycle setup).length := by
              by_contra past
              rw [after, List.drop_eq_nil_iff.mpr (Nat.le_of_not_lt past)] at more
              cases more
            refine ⟨done + 1, below, ?_⟩
            obtain ⟨_, _, more', next⟩ := step_lifecycle_iff.mp (step_after below)
            rw [more] at more'
            cases more'
            exact next.symm
  · rintro ⟨done, bound, rfl⟩
    induction done with
    | zero => exact .initial
    | succ done ih => exact .step (ih (by omega)) (step_after (by omega))

/-! ## Statuses along the lifecycle -/

/-- Setting each of `components` to one status leaves the others as they were. -/
theorem foldl_update (components : List Component) (result : Status)
    (status : Component → Status) (component : Component) :
    components.foldl (fun status updated => Function.update status updated result) status
        component =
      if component ∈ components then result else status component := by
  induction components generalizing status with
  | nil => simp
  | cons head tail ih =>
      rw [List.foldl_cons, ih]
      by_cases same : component = head
      · subst same
        simp
      · simp [same]

/-- A component is stopped once `Stop` reached it, and running once started before that. -/
theorem status_after (setup : Setup) (done : Nat) (component : Component) :
    (after setup done).status component =
      if component ∈ (stopOrder setup.lesServer).take
          (done - (newOrder ++ startOrder setup).length) then .stopped
      else if component ∈ (newOrder ++ startOrder setup).take done then .running
      else .idle := by
  simp only [after, statusAfter, lifecycle, List.take_append_eq_append_take, List.length_map,
    ← List.map_take, List.foldl_append]
  simp only [List.foldl_map, Action.apply, foldl_update]

/-! ## Use after stop -/

/-- A running component meets a stopped component it uses exactly when it was started and
`Stop` stops the used component while the user still runs. -/
theorem useAfterStop_iff_stoppedBefore (setup : Setup) (user used : Component) :
    UseAfterStop setup user used ↔
      uses user used ∧ user ∈ newOrder ++ startOrder setup ∧
        StoppedBefore (stopOrder setup.lesServer) used user := by
  constructor
  · rintro ⟨node, reach, step, stopped⟩
    obtain ⟨done, bound, rfl⟩ := (reachable_iff setup node).mp reach
    obtain ⟨-, running, wired⟩ := step_operate_iff.mp step
    rw [status_after] at running stopped
    rw [lifecycle, List.length_append, List.length_map, List.length_map] at bound
    split_ifs at running stopped with halted started
    exact ⟨wired, List.mem_of_mem_take started, _, by omega, ‹_›, halted⟩
  · rintro ⟨wired, started, stage, bound, stopped, running⟩
    refine ⟨after setup ((newOrder ++ startOrder setup).length + stage),
      (reachable_iff setup _).mpr ⟨_, by simp [lifecycle]; omega, rfl⟩,
      step_operate_iff.mpr ⟨rfl, ?_, wired⟩, ?_⟩ <;>
      simp [status_after, stopped, running, List.take_of_length_le, started]

/-- `Stop` stops the blockchain while the protocol manager, started by `Start`, still runs on
it. -/
theorem protocolManager_uses_stopped_blockchain :
    UseAfterStop ⟨false, 0, 0, 50⟩ .protocolManager .blockchain :=
  (useAfterStop_iff_stoppedBefore _ _ _).mpr (by decide)

/-- The use-after-stop a run can reach: the pool, the miner and the protocol manager on the
blockchain, the miner on the pool, the light server on the bloom indexer, and the
bloom-request handlers on the chain database, each while its user was started. -/
theorem useAfterStop_iff (setup : Setup) (user used : Component) :
    UseAfterStop setup user used ↔
      used = .blockchain ∧
          (user = .txPool ∨ user = .miner ∨ user = .protocolManager ∧ (peerLimit setup).isOk) ∨
        user = .miner ∧ used = .txPool ∨
        user = .lesServer ∧ used = .bloomIndexer ∧ setup.lesServer ∧ (peerLimit setup).isOk ∨
        user = .bloomHandlers ∧ used = .chainDb := by
  rw [useAfterStop_iff_stoppedBefore]
  cases les : setup.lesServer <;> cases peers : peerLimit setup <;>
    simp only [startOrder, les, peers, Except.isOk, Except.toBool] <;>
    revert user used <;> decide

end Lifecycle
end AtlantisBackend
