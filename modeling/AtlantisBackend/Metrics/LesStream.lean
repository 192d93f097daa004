import AtlantisBackend.Metrics.MeteredStream

/-!
# Metered message streams of the light server

The light server wraps its peers' streams in its own `meteredMsgReadWriter`, a copy of the full
node's without the `switch`: every message is marked on the package's miscellaneous meters, and
the version `Init` stores is never read.  For the same calls, its meters therefore count, all as
miscellaneous traffic, exactly what the full node's streams count over all their kinds, whatever
the message codes and the versions.
-/

namespace AtlantisBackend
namespace Metrics
namespace Les

/-- `packets.Mark(1)` and `traffic.Mark(int64(size))` on the miscellaneous pair of `direction`. -/
def mark (misc : Direction → Counts) (direction : Direction) (size : Nat) : Direction → Counts :=
  fun d => if d = direction then ⟨(misc d).packets + 1, (misc d).bytes + size⟩ else misc d

/-- `ReadMsg`: a failed read is returned before anything is marked, and every message read is
marked as miscellaneous. -/
def readMsg (read : Except String Msg) (misc : Direction → Counts) :
    Except String Msg × (Direction → Counts) :=
  match read with
  | .error err => (.error err, misc)
  | .ok msg => (.ok msg, mark misc .inbound msg.size.toNat)

/-- `WriteMsg`: the message is marked as miscellaneous, then handed to the wrapped stream, whose
write returned `written`. -/
def writeMsg (msg : Msg) (written : Except String Unit) (misc : Direction → Counts) :
    Except String Unit × (Direction → Counts) :=
  (written, mark misc .outbound msg.size.toNat)

/-- The light server's streams and its meters `misc{In,Out}{Packets,Traffic}Meter`. -/
structure Network where
  /-- `rw.version` of each peer's stream. -/
  versions : Nat → Int
  /-- The miscellaneous meters of each direction. -/
  misc : Direction → Counts

/-- One call; with metrics disabled the streams are not wrapped. -/
def Network.step (enabled : Bool) (net : Network) : Event → Network
  | .init peer version =>
      if enabled then { net with versions := Function.update net.versions peer version } else net
  | .readMsg _ read => if enabled then { net with misc := (readMsg read net.misc).2 } else net
  | .writeMsg _ msg written =>
      if enabled then { net with misc := (writeMsg msg written net.misc).2 } else net

/-- The calls one after another. -/
def Network.run (enabled : Bool) : Network → List Event → Network
  | net, [] => net
  | net, event :: events => (net.step enabled event).run enabled events

/-- One call marks its message, if any, once on the miscellaneous pair of its direction. -/
theorem Network.step_misc (enabled : Bool) (net : Network) (event : Event)
    (direction : Direction) :
    ((net.step enabled event).misc direction).packets =
        (net.misc direction).packets +
          (if enabled then (event.passed direction).toList.length else 0) ∧
      ((net.step enabled event).misc direction).bytes =
        (net.misc direction).bytes +
          (if enabled then ((event.passed direction).toList.map (·.size.toNat)).sum else 0) := by
  cases enabled with
  | false => cases event <;> simp [Network.step]
  | true =>
      rcases event with ⟨peer, version⟩ | ⟨peer, err | msg⟩ | ⟨peer, msg, written⟩
      · simp [Network.step, Event.passed]
      · simp [Network.step, readMsg, Event.passed]
      all_goals cases direction <;> simp [Network.step, readMsg, writeMsg, mark, Event.passed]

/-- For the same calls, the light server's miscellaneous meters grow by exactly what the full
node's meters grow by over all kinds, in each direction: the light server counts the same
traffic, all of it as miscellaneous, whatever the message codes and the versions. -/
theorem Network.run_misc_totals (protocol : Protocol) (enabled : Bool) (net : Metrics.Network)
    (light : Network) (events : List Event) (direction : Direction) :
    ((light.run enabled events).misc direction).packets + net.meters.packets direction =
        (light.misc direction).packets + (net.run protocol enabled events).meters.packets direction ∧
      ((light.run enabled events).misc direction).bytes + net.meters.bytes direction =
        (light.misc direction).bytes + (net.run protocol enabled events).meters.bytes direction := by
  induction events generalizing net light with
  | nil => exact ⟨rfl, rfl⟩
  | cons event events ih =>
      obtain ⟨packets, bytes⟩ := ih (net.step protocol enabled event) (light.step enabled event)
      obtain ⟨light_packets, light_bytes⟩ := light.step_misc enabled event direction
      obtain ⟨full_packets, full_bytes⟩ := net.step_totals protocol enabled event direction
      simp only [Network.run, Metrics.Network.run] at packets bytes ⊢
      omega

end Les
end Metrics
end AtlantisBackend
