import Mqtt.Proofs.Client.Moves
/-!
# The calls of a client

What a call sends and what it asks for does not depend on what has come for it. `Client.call?` is a
call without that, so the arrival of an acknowledgement changes nothing here, and neither does the
end of the reading task.
-/

namespace Mqtt

/-- What a call asks for. -/
structure Request where
  purpose : Purpose
  id : UInt16
  frame : Except Fault Bytes
  /-- How far the sending is, until it is over. -/
  state : Option Sending

namespace Call

/-- A call as it would be if nothing had come for it. -/
def bare : Call → Call
  | .request purpose id frame _ state => .request purpose id frame .waiting state
  | call => call

/-- The frame that a call is sending, and how far it is. -/
def sending? : Call → Option (Except Fault Bytes × Sending)
  | .send frame s | .leave frame s | .request _ _ frame _ (some s) => some (frame, s)
  | _ => none

def request? : Call → Option Request
  | .request purpose id frame _ state => some ⟨purpose, id, frame, state⟩
  | _ => none

@[simp]
theorem sending?_bare (call : Call) : call.bare.sending? = call.sending? := by
  rcases call with _ | ⟨_, _, _, _, _ | _⟩ | _ | _ | _ <;> rfl

@[simp]
theorem request?_bare (call : Call) : call.bare.request? = call.request? := by
  cases call <;> rfl

end Call

namespace Client

variable {c : Client} {k k' : Nat}

@[simp]
theorem bare_fillSlot (slot : Slot) (call : Call) : (fillSlot slot call).bare = call.bare := by
  rcases call with _ | ⟨_, _, _, _ | _ | _, _⟩ | _ | _ | _ <;> rfl

/-- A call, without what has come for it. -/
def call? (c : Client) (k : Nat) : Option Call := c.calls[k]?.map Call.bare

/-- What a call asks for. -/
def request? (c : Client) (k : Nat) : Option Request := (c.call? k).bind Call.request?

theorem call?_eq {call : Call} (h : c.calls[k]? = some call) : c.call? k = some call.bare := by
  rw [call?, h]
  rfl

theorem call?_eq_none_iff : c.call? k = none ↔ c.calls[k]? = none := Option.map_eq_none_iff

theorem request?_eq {call : Call} (h : c.calls[k]? = some call) :
    c.request? k = call.request? := by
  rw [request?, call?_eq h]
  exact call.request?_bare

theorem request?_congr {c' : Client} (h : ∀ k, c'.call? k = c.call? k) :
    c'.request? = c.request? := by
  funext k
  rw [request?, h, request?]

/-! ### One operation -/

theorem call?_of_insert {c' : Client} {call : Call} (h : c'.calls = c.calls.insert k call) :
    c'.call? k' = if k' = k then some call.bare else c.call? k' := by
  rw [call?, h, Std.TreeMap.getElem?_insert, call?]
  by_cases hk : k' = k
  · subst hk
    simp
  · simp [hk, Ne.symm hk]

theorem call?_of_erase {c' : Client} (h : c'.calls = c.calls.erase k) :
    c'.call? k' = if k' = k then none else c.call? k' := by
  rw [call?, h, Std.TreeMap.getElem?_erase, call?]
  by_cases hk : k' = k
  · subst hk
    simp
  · simp [hk, Ne.symm hk]

/-- A slot is filled behind the back of a call. -/
theorem bare_modify {calls : Std.TreeMap Nat Call} {slot : Slot} :
    (calls.modify k (fillSlot slot))[k']?.map Call.bare = calls[k']?.map Call.bare := by
  rw [Std.TreeMap.getElem?_modify]
  by_cases h : k = k'
  · subst h
    simp [Option.map_map, Function.comp_def]
  · simp [h]

theorem call?_complete {id : UInt16} {p : Packet} : (c.complete id p).call? k = c.call? k := by
  rw [complete]
  rcases c.ids.free id with ⟨_ | holder, ids⟩
  · rfl
  · exact bare_modify

theorem call?_release {id : UInt16} :
    (c.release k id).call? k' = if k' = k then none else c.call? k' := by
  rw [release]
  rcases c.ids.free id with ⟨_ | holder, ids⟩
  · exact call?_of_erase rfl
  · have herase : ({ c with calls := c.calls.erase k } : Client).call? k' =
        if k' = k then none else c.call? k' := call?_of_erase rfl
    exact bare_modify.trans herase

theorem call?_endReader : c.endReader.call? k = c.call? k := by
  rw [call?, endReader, Std.TreeMap.getElem?_map, Option.map_map, call?]
  congr 1
  funext call
  exact bare_fillSlot .lost call

@[simp]
theorem filters_release {id : UInt16} : (c.release k id).filters = c.filters := rfl

end Client
end Mqtt
