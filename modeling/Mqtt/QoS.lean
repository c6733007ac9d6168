/-!
# Quality of service

How often a message may arrive. Each level has a number on the wire; the number 3 is no level.
-/

namespace Mqtt

/-- A quality-of-service level. -/
inductive QoS where
  /-- The message arrives at most once. -/
  | atMostOnce
  /-- The message arrives at least once: its receiver acknowledges it. -/
  | atLeastOnce
  /-- The message arrives exactly once: a handshake of four packets. -/
  | exactlyOnce
deriving DecidableEq, Repr, Inhabited

namespace QoS

/-- The number of a level. -/
def toUInt8 : QoS → UInt8
  | atMostOnce => 0
  | atLeastOnce => 1
  | exactlyOnce => 2

/-- The level with the given number. -/
def ofUInt8? : UInt8 → Option QoS
  | 0 => some atMostOnce
  | 1 => some atLeastOnce
  | 2 => some exactlyOnce
  | _ => none

/-- The name of a level. -/
def name : QoS → String
  | atMostOnce => "AtMostOnce"
  | atLeastOnce => "AtLeastOnce"
  | exactlyOnce => "ExactlyOnce"

@[simp] theorem ofUInt8?_toUInt8 (q : QoS) : ofUInt8? q.toUInt8 = some q := by
  cases q <;> rfl

end QoS
end Mqtt
