import Std.Data.TreeMap
/-!
# Packet ids

A client gives each request that waits for an acknowledgement a packet id of its own. Ids are
counted up and wrap around; 0 is no id, and an id that is taken is passed over. An id is free again
when its acknowledgement comes, and when the request that holds it goes away.
-/

namespace Mqtt

/-- The packet ids of a client. -/
structure PacketIds where
  /-- The id to try next. -/
  next : UInt16
  /-- The ids that are taken, with the number of the call that waits for each. -/
  taken : Std.TreeMap UInt16 Nat

namespace PacketIds

/-- No id is taken. -/
def empty : PacketIds := ⟨1, ∅⟩

instance : Inhabited PacketIds := ⟨empty⟩

/-- Tries the next ids in turn, so many at most, and takes the first that is free. -/
def reserveWithin (call : Nat) : Nat → PacketIds → Option UInt16 × PacketIds
  | 0, ids => (none, ids)
  | tries + 1, ids =>
    let id := ids.next
    let ids := { ids with next := id + 1 }
    if id = 0 || ids.taken.contains id then reserveWithin call tries ids
    else (some id, { ids with taken := ids.taken.insert id call })

/-- Takes a free id for a call, if there is one. Every id is tried once. -/
def reserve (ids : PacketIds) (call : Nat) : Option UInt16 × PacketIds :=
  reserveWithin call 65536 ids

/-- Frees an id, and tells which call waited for it. -/
def free (ids : PacketIds) (id : UInt16) : Option Nat × PacketIds :=
  (ids.taken[id]?, { ids with taken := ids.taken.erase id })

end PacketIds
end Mqtt
