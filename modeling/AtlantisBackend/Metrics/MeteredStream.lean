import Mathlib.Algebra.BigOperators.Group.Finset
import Mathlib.Algebra.Order.Ring.Nat
import Mathlib.Tactic.DeriveFintype

/-!
# Metered message streams

With metrics enabled, `newMeteredMsgWriter` wraps the message stream of each peer in a
`meteredMsgReadWriter`, and every message read or written through it is marked on one pair of
the package's meters: one packet on the packet meter and its size on the traffic meter.  The
`switch` of `ReadMsg` and `WriteMsg` picks the pair from the message code and, for node data and
receipts, from the protocol version `Init` gave the stream.  All streams mark the same meters.
Over every run of every peer, each message read and each message written is marked exactly once,
a failed read not at all and a failed write nonetheless, and streams below `ath63` never move
the state and receipt meters.
-/

namespace AtlantisBackend
namespace Metrics

/-- The message codes and the protocol version the `switch` compares with, constants of the
protocol definition. -/
structure Protocol where
  /-- `BlockHeadersMsg`. -/
  blockHeadersMsg : UInt64
  /-- `BlockBodiesMsg`. -/
  blockBodiesMsg : UInt64
  /-- `NodeDataMsg`. -/
  nodeDataMsg : UInt64
  /-- `ReceiptsMsg`. -/
  receiptsMsg : UInt64
  /-- `NewBlockHashesMsg`. -/
  newBlockHashesMsg : UInt64
  /-- `NewBlockMsg`. -/
  newBlockMsg : UInt64
  /-- `TxMsg`. -/
  txMsg : UInt64
  /-- `ath63`, the first protocol version with node data and receipts. -/
  ath63 : Int

/-- A message as the meters see it: `msg.Code` and `msg.Size`. -/
structure Msg where
  /-- `msg.Code`. -/
  code : UInt64
  /-- `msg.Size`. -/
  size : UInt32
  deriving DecidableEq, Repr

/-- The kinds of traffic, one pair of meters each. -/
inductive Traffic
  | propTxn
  | propHash
  | propBlock
  | reqHeader
  | reqBody
  | reqState
  | reqReceipt
  | misc
  deriving DecidableEq, Repr, Fintype

/-- Whether a message was read from the peer or written to it. -/
inductive Direction
  | inbound
  | outbound
  deriving DecidableEq, Repr, Fintype

/-- The `switch` of `ReadMsg` and `WriteMsg`: the kind of a message of code `code` on a stream
of protocol version `version`, `misc` when no case matches. -/
def trafficOf (protocol : Protocol) (version : Int) (code : UInt64) : Traffic :=
  if code = protocol.blockHeadersMsg then .reqHeader
  else if code = protocol.blockBodiesMsg then .reqBody
  else if version ≥ protocol.ath63 ∧ code = protocol.nodeDataMsg then .reqState
  else if version ≥ protocol.ath63 ∧ code = protocol.receiptsMsg then .reqReceipt
  else if code = protocol.newBlockHashesMsg then .propHash
  else if code = protocol.newBlockMsg then .propBlock
  else if code = protocol.txMsg then .propTxn
  else .misc

/-- Below `ath63`, no message counts as a state or a receipt request. -/
theorem trafficOf_below {protocol : Protocol} {version : Int} (below : version < protocol.ath63)
    (code : UInt64) :
    trafficOf protocol version code ≠ .reqState ∧ trafficOf protocol version code ≠ .reqReceipt := by
  have old : ¬ version ≥ protocol.ath63 := Int.not_le.mpr below
  simp only [trafficOf, old, false_and, if_false]
  split_ifs <;> decide

/-- What a pair of meters has counted: `packets.Mark(1)` adds a packet, `traffic.Mark(n)` adds
`n` bytes. -/
structure Counts where
  /-- The count of the packet meter. -/
  packets : Nat
  /-- The count of the traffic meter. -/
  bytes : Nat
  deriving DecidableEq, Repr

/-- The package's meters, `{kind}{In,Out}{Packets,Traffic}Meter`, shared by all streams. -/
structure Meters where
  /-- The counts of the pair of each direction and kind. -/
  count : Direction → Traffic → Counts

/-- `packets.Mark(1)` and `traffic.Mark(int64(size))` on the pair of `kind` in `direction`. -/
def Meters.mark (meters : Meters) (direction : Direction) (kind : Traffic) (size : Nat) :
    Meters :=
  ⟨fun d k => if d = direction ∧ k = kind then
      ⟨(meters.count d k).packets + 1, (meters.count d k).bytes + size⟩
    else meters.count d k⟩

/-- The packets counted in a direction, over all kinds. -/
def Meters.packets (meters : Meters) (direction : Direction) : Nat :=
  ∑ kind, (meters.count direction kind).packets

/-- The bytes counted in a direction, over all kinds. -/
def Meters.bytes (meters : Meters) (direction : Direction) : Nat :=
  ∑ kind, (meters.count direction kind).bytes

theorem Meters.mark_count_of_ne {meters : Meters} {direction : Direction} {kind : Traffic}
    {size : Nat} {d : Direction} {k : Traffic} (other : k ≠ kind) :
    (meters.mark direction kind size).count d k = meters.count d k := by
  simp [Meters.mark, other]

/-- A mark adds one packet and `size` bytes to the totals of its direction, and nothing to the
other's. -/
theorem Meters.totals_mark (meters : Meters) (direction : Direction) (kind : Traffic)
    (size : Nat) (d : Direction) :
    (meters.mark direction kind size).packets d =
        meters.packets d + (if d = direction then 1 else 0) ∧
      (meters.mark direction kind size).bytes d =
        meters.bytes d + if d = direction then size else 0 := by
  by_cases same : d = direction
  · subst same
    have packets : ∀ k, ((meters.mark d kind size).count d k).packets =
        (meters.count d k).packets + if k = kind then 1 else 0 := fun k => by
      by_cases at_kind : k = kind <;> simp [Meters.mark, at_kind]
    have bytes : ∀ k, ((meters.mark d kind size).count d k).bytes =
        (meters.count d k).bytes + if k = kind then size else 0 := fun k => by
      by_cases at_kind : k = kind <;> simp [Meters.mark, at_kind]
    simp only [Meters.packets, Meters.bytes, packets, bytes, Finset.sum_add_distrib,
      Finset.sum_ite_eq', Finset.mem_univ, if_true, and_self]
  · simp [Meters.packets, Meters.bytes, Meters.mark, same]

/-! ## Streams -/

/-- `ReadMsg` of a `meteredMsgReadWriter` of protocol version `version`, whose wrapped stream
read `read`: a failed read is returned before anything is marked. -/
def readMsg (protocol : Protocol) (version : Int) (read : Except String Msg) (meters : Meters) :
    Except String Msg × Meters :=
  match read with
  | .error err => (.error err, meters)
  | .ok msg =>
      (.ok msg, meters.mark .inbound (trafficOf protocol version msg.code) msg.size.toNat)

/-- `WriteMsg` of a `meteredMsgReadWriter`: the message is marked, then handed to the wrapped
stream, whose write returned `written`. -/
def writeMsg (protocol : Protocol) (version : Int) (msg : Msg) (written : Except String Unit)
    (meters : Meters) : Except String Unit × Meters :=
  (written, meters.mark .outbound (trafficOf protocol version msg.code) msg.size.toNat)

/-- The streams of the peers and the meters they share. -/
structure Network where
  /-- `rw.version` of each peer's stream, `0` until `Init`. -/
  versions : Nat → Int
  /-- The package's meters. -/
  meters : Meters

/-- A call on a peer's stream. -/
inductive Event
  /-- `Init(version)`. -/
  | init (peer : Nat) (version : Int)
  /-- `ReadMsg`, whose wrapped stream read `read`. -/
  | readMsg (peer : Nat) (read : Except String Msg)
  /-- `WriteMsg(msg)`, whose wrapped stream's write returned `written`. -/
  | writeMsg (peer : Nat) (msg : Msg) (written : Except String Unit)

/-- One call.  With metrics disabled, `newMeteredMsgWriter` returned the peers' streams
unwrapped: nothing is marked and no stream keeps a version. -/
def Network.step (protocol : Protocol) (enabled : Bool) (net : Network) : Event → Network
  | .init peer version =>
      if enabled then { net with versions := Function.update net.versions peer version } else net
  | .readMsg peer read =>
      if enabled then { net with meters := (readMsg protocol (net.versions peer) read net.meters).2 }
      else net
  | .writeMsg peer msg written =>
      if enabled then
        { net with meters := (writeMsg protocol (net.versions peer) msg written net.meters).2 }
      else net

/-- The calls one after another.  Each mark is an atomic addition and additions commute, so
any interleaving of the peers' calls leaves the counts of one such sequence. -/
def Network.run (protocol : Protocol) (enabled : Bool) : Network → List Event → Network
  | net, [] => net
  | net, event :: events => (net.step protocol enabled event).run protocol enabled events

/-- The message a call passes through its stream in `direction`: the message a read returned, or
the message handed to `WriteMsg`, whatever its write returned. -/
def Event.passed : Event → Direction → Option Msg
  | .readMsg _ (.ok msg), .inbound => some msg
  | .writeMsg _ msg _, .outbound => some msg
  | _, _ => none

/-- One call marks its message, if any, once: one packet and its size, on its direction. -/
theorem Network.step_totals (protocol : Protocol) (enabled : Bool) (net : Network)
    (event : Event) (direction : Direction) :
    (net.step protocol enabled event).meters.packets direction =
        net.meters.packets direction +
          (if enabled then (event.passed direction).toList.length else 0) ∧
      (net.step protocol enabled event).meters.bytes direction =
        net.meters.bytes direction +
          (if enabled then ((event.passed direction).toList.map (·.size.toNat)).sum else 0) := by
  cases enabled with
  | false => cases event <;> simp [Network.step]
  | true =>
      rcases event with ⟨peer, version⟩ | ⟨peer, err | msg⟩ | ⟨peer, msg, written⟩
      · simp [Network.step, Event.passed]
      · simp [Network.step, readMsg, Event.passed]
      · cases direction <;> simp [Network.step, readMsg, Event.passed, Meters.totals_mark]
      · cases direction <;> simp [Network.step, writeMsg, Event.passed, Meters.totals_mark]

/-- Over every run, each message read and each message handed to `WriteMsg` is counted exactly
once, as one packet and its size on the meters of its direction; a failed read counts nothing.
With metrics disabled nothing is counted. -/
theorem Network.run_totals (protocol : Protocol) (enabled : Bool) (net : Network)
    (events : List Event) (direction : Direction) :
    (net.run protocol enabled events).meters.packets direction =
        net.meters.packets direction +
          (if enabled then (events.filterMap (·.passed direction)).length else 0) ∧
      (net.run protocol enabled events).meters.bytes direction =
        net.meters.bytes direction +
          (if enabled then ((events.filterMap (·.passed direction)).map (·.size.toNat)).sum
            else 0) := by
  induction events generalizing net with
  | nil => simp [Network.run]
  | cons event events ih =>
      obtain ⟨packets, bytes⟩ := ih (net.step protocol enabled event)
      obtain ⟨step_packets, step_bytes⟩ := net.step_totals protocol enabled event direction
      rw [Network.run, packets, bytes, step_packets, step_bytes]
      cases enabled
      · simp
      · cases passed : event.passed direction <;> simp [List.filterMap_cons, passed]
        omega

/-- A write counts even when the wrapped stream fails to send it. -/
example : ((⟨fun _ => 63, ⟨fun _ _ => ⟨0, 0⟩⟩⟩ : Network).run ⟨4, 6, 14, 16, 1, 7, 2, 63⟩ true
    [.writeMsg 0 ⟨2, 120⟩ (.error "closed"), .readMsg 0 (.error "closed")]).meters.count
      .outbound .propTxn = ⟨1, 120⟩ := rfl

/-- A call on a stream below `ath63` marks neither the state nor the receipt meters, and an
`Init` below `ath63` keeps every stream below it. -/
theorem Network.step_below_ath63 {protocol : Protocol} {enabled : Bool} {net : Network}
    {event : Event} (below : ∀ peer, net.versions peer < protocol.ath63)
    (init : ∀ peer version, event = .init peer version → version < protocol.ath63) :
    (∀ peer, (net.step protocol enabled event).versions peer < protocol.ath63) ∧
      ∀ direction, (net.step protocol enabled event).meters.count direction .reqState =
          net.meters.count direction .reqState ∧
        (net.step protocol enabled event).meters.count direction .reqReceipt =
          net.meters.count direction .reqReceipt := by
  cases enabled with
  | false => cases event <;> exact ⟨below, fun _ => ⟨rfl, rfl⟩⟩
  | true =>
      rcases event with ⟨target, version⟩ | ⟨peer, _ | msg⟩ | ⟨peer, msg, written⟩
      · refine ⟨fun peer => ?_, fun _ => ⟨rfl, rfl⟩⟩
        simp only [Network.step, if_true, Function.update_apply]
        split
        · exact init target version rfl
        · exact below peer
      · exact ⟨below, fun _ => ⟨rfl, rfl⟩⟩
      all_goals
        obtain ⟨state, receipt⟩ := trafficOf_below (below peer) msg.code
        exact ⟨below, fun _ =>
          ⟨Meters.mark_count_of_ne (Ne.symm state), Meters.mark_count_of_ne (Ne.symm receipt)⟩⟩

/-- A run in which every stream stays below `ath63` leaves the state and receipt meters as they
were: node data and receipts of older peers count as miscellaneous traffic. -/
theorem Network.run_below_ath63 (protocol : Protocol) (enabled : Bool) (net : Network)
    (events : List Event) (below : ∀ peer, net.versions peer < protocol.ath63)
    (inits : ∀ peer version, Event.init peer version ∈ events → version < protocol.ath63)
    (direction : Direction) :
    (net.run protocol enabled events).meters.count direction .reqState =
        net.meters.count direction .reqState ∧
      (net.run protocol enabled events).meters.count direction .reqReceipt =
        net.meters.count direction .reqReceipt := by
  induction events generalizing net with
  | nil => exact ⟨rfl, rfl⟩
  | cons event events ih =>
      obtain ⟨below', kept⟩ := @Network.step_below_ath63 protocol enabled net event below
        fun peer version same => inits peer version (same ▸ List.mem_cons_self _ _)
      obtain ⟨state, receipt⟩ := ih _ below'
        fun peer version mem => inits peer version (List.mem_cons_of_mem _ mem)
      exact ⟨state.trans (kept direction).1, receipt.trans (kept direction).2⟩

/-- Two peers of version 62, one reading node data and one writing receipts, leave the inbound
state meters at zero. -/
theorem Network.run_below_ath63_eth62_peers :
    ((⟨fun _ => 62, ⟨fun _ _ => ⟨0, 0⟩⟩⟩ : Network).run ⟨4, 6, 14, 16, 1, 7, 2, 63⟩ true
        [.readMsg 0 (.ok ⟨14, 100⟩), .writeMsg 1 ⟨16, 8⟩ (.ok ())]).meters.count
          .inbound .reqState = ⟨0, 0⟩ :=
  (Network.run_below_ath63 ⟨4, 6, 14, 16, 1, 7, 2, 63⟩ true ⟨fun _ => 62, ⟨fun _ _ => ⟨0, 0⟩⟩⟩ _
    (fun _ => show (62 : Int) < 63 by decide) (by simp) .inbound).1

end Metrics
end AtlantisBackend
