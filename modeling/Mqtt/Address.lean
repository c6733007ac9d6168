import Mqtt.Fault
/-!
# Addresses

A broker's address may name its transport in front, as in `mqtt://host:1883`, and may leave the
port out. `Address.resolve` makes a host and a port of it. Only the plain transport is spoken;
encrypted and web transports are known by name and refused as such.

A colon separates the port only if what stands in front of it is a bracketed host or holds no
further colon: a bare host with several colons is all host.
-/

namespace Mqtt
namespace Address

/-- The port of the plain transport. -/
def defaultPort : String := "1883"

/-- What stands in front of the first `://` and behind it, if there is one. -/
def splitScheme : List Char → Option (List Char × List Char)
  | ':' :: '/' :: '/' :: rest => some ([], rest)
  | [] => none
  | c :: rest => (splitScheme rest).map fun (scheme, behind) => (c :: scheme, behind)

/-- Whether two letters differ at most in case. Of all letters that lower to ASCII, only ASCII
letters lower to those that the names of transports are made of. -/
def sameName (scheme : List Char) (name : String) : Bool :=
  scheme.map Char.toLower == name.toList

/-- The transports that are spoken. -/
def spoken : List String := ["tcp", "mqtt"]

/-- The transports that are known and not spoken. -/
def refused : List String := ["tls", "ssl", "mqtts", "ws", "wss"]

/-- What stands in front of the last colon and behind it, if there is one. -/
def splitPort (host : List Char) : Option (List Char × List Char) :=
  let back := host.reverse
  match back.dropWhile (· != ':') with
  | [] => none
  | _ :: front => some (front.reverse, (back.takeWhile (· != ':')).reverse)

/-- Whether a host carries a port. -/
def hasPort (host : List Char) : Bool :=
  match splitPort host with
  | none => false
  | some (front, port) =>
    !port.isEmpty && (front.getLast? == some ']' || !front.contains ':')

/-- An address without the slashes at its end. -/
def trimSlashes (s : List Char) : List Char :=
  (s.reverse.dropWhile (· == '/')).reverse

/-- An address without the transport in front. -/
def stripScheme (addr : String) : Except Fault (List Char) :=
  match splitScheme addr.toList with
  | none => .ok addr.toList
  | some (scheme, behind) =>
    if spoken.any (sameName scheme) then .ok behind
    else if refused.any (sameName scheme) then
      .error (.unsupportedScheme (String.ofList scheme))
    else .error (.unknownScheme addr)

/-- The host and port that an address stands for. -/
def resolve (addr : String) : Except Fault String := do
  let host := trimSlashes (← stripScheme addr)
  if host.isEmpty then .error (.missingHost addr)
  else if hasPort host then return String.ofList host
  else return String.ofList host ++ ":" ++ defaultPort

end Address
end Mqtt
