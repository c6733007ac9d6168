import Mqtt.QoS
/-!
# Return codes

What a broker answers to a CONNECT, and to each filter of a SUBSCRIBE.
-/

namespace Mqtt

/-- The answer to a CONNECT. -/
inductive ConnectCode where
  | accepted
  | unacceptableProtocolVersion
  | identifierRejected
  | serverUnavailable
  | badUserNameOrPassword
  | notAuthorized
deriving DecidableEq, Repr, Inhabited

namespace ConnectCode

/-- The number of an answer. -/
def toUInt8 : ConnectCode → UInt8
  | accepted => 0
  | unacceptableProtocolVersion => 1
  | identifierRejected => 2
  | serverUnavailable => 3
  | badUserNameOrPassword => 4
  | notAuthorized => 5

/-- The answer with the given number. -/
def ofUInt8? : UInt8 → Option ConnectCode
  | 0 => some accepted
  | 1 => some unacceptableProtocolVersion
  | 2 => some identifierRejected
  | 3 => some serverUnavailable
  | 4 => some badUserNameOrPassword
  | 5 => some notAuthorized
  | _ => none

/-- The name of an answer. -/
def name : ConnectCode → String
  | accepted => "Accepted"
  | unacceptableProtocolVersion => "UnacceptableProtocolVersion"
  | identifierRejected => "IdentifierRejected"
  | serverUnavailable => "ServerUnavailable"
  | badUserNameOrPassword => "BadUserNameOrPassword"
  | notAuthorized => "NotAuthorized"

@[simp] theorem ofUInt8?_toUInt8 (c : ConnectCode) : ofUInt8? c.toUInt8 = some c := by
  cases c <;> rfl

end ConnectCode

/-- The answer to one filter of a SUBSCRIBE. -/
inductive SubscribeCode where
  /-- The subscription is granted at this level. -/
  | granted (qos : QoS)
  /-- The subscription is refused. -/
  | refused
deriving DecidableEq, Repr, Inhabited

namespace SubscribeCode

/-- The number of an answer. -/
def toUInt8 : SubscribeCode → UInt8
  | granted q => q.toUInt8
  | refused => 0x80

/-- The answer with the given number. -/
def ofUInt8? : UInt8 → Option SubscribeCode
  | 0 => some (granted .atMostOnce)
  | 1 => some (granted .atLeastOnce)
  | 2 => some (granted .exactlyOnce)
  | 0x80 => some refused
  | _ => none

@[simp] theorem ofUInt8?_toUInt8 (c : SubscribeCode) : ofUInt8? c.toUInt8 = some c := by
  cases c with
  | granted q => cases q <;> rfl
  | refused => rfl

end SubscribeCode
end Mqtt
