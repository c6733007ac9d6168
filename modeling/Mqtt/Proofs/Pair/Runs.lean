import Mqtt.Client.Calls
import Mqtt.Proofs.Broker.Intake
import Mqtt.Proofs.Broker.Runs
import Mqtt.Proofs.Client.Active
/-!
# A client at a broker

A pair is a client and the broker that serves it, with the connection between the two. In a run of a
pair (`Pair.Run`) the client makes any of its moves, and calls of its program begin; on the other
side there is anything that a broker does or meets, but that nobody else uses the connection.
`Pair.Steps` lists these events, one rule for each.

A run keeps a log of what becomes of the filters: the notes on the calls of the client, and the
packets that the broker serves it.
-/

namespace Mqtt

/-- A client and the broker that serves it. -/
structure Pair where
  client : Client
  broker : Broker
  /-- The connection between the two. -/
  conn : ConnId

/-- What there is to tell of filters. -/
structure Log where
  /-- What becomes of them at the client. -/
  notes : List Note
  /-- The packets that the client is served. -/
  served : List Packet

namespace Log

/-- The log in which nothing has happened. -/
def empty : Log := ⟨[], []⟩

instance : Append Log := ⟨fun log more => ⟨log.notes ++ more.notes, log.served ++ more.served⟩⟩

@[simp]
theorem notes_append (log more : Log) : (log ++ more).notes = log.notes ++ more.notes := rfl

@[simp]
theorem served_append (log more : Log) : (log ++ more).served = log.served ++ more.served := rfl

theorem append_empty (log : Log) : log ++ empty = log := by
  show (⟨log.notes ++ [], log.served ++ []⟩ : Log) = log
  rw [List.append_nil, List.append_nil]

instance : Record Log where
  emptyCollection := empty
  append_empty := append_empty
  empty_append _ := rfl
  append_assoc _ _ _ := congrArg₂ mk (List.append_assoc ..) (List.append_assoc ..)

end Log

namespace Pair

/-- What comes next in a run. -/
inductive Event where
  /-- The program calls the client. -/
  | calls (k : Nat) (call : ClientCall)
  /-- So many milliseconds pass at the client. -/
  | elapses (millis : Nat)
  /-- The client moves. -/
  | client (a : Client.Action)
  /-- Something happens to the broker, or in it. -/
  | broker (e : Broker.Event)

/-- What an event leads to, if it is possible, and what there is to tell of it. A program calls a
client whose session is open, and every call has its own number. -/
def next? (j : Pair) : Event → Option (Pair × Log)
  | .calls k call =>
    match j.client.stage, j.client.calls[k]? with
    | .running, none =>
      match j.client.start k call with
      | .ok c => some ({ j with client := c }, ⟨Client.begun call, []⟩)
      | .error _ => some (j, .empty)
    | _, _ => none
  | .elapses millis =>
    some ({ j with client := { j.client with now := j.client.now + millis } }, .empty)
  | .client a => do
    let k ← j.broker.conns[j.conn]?
    let (c, l, seen) ← j.client.step k.link a
    return ({ j with client := c, broker := j.broker.modifyLink j.conn fun _ => l },
      ⟨j.client.notes seen, []⟩)
  | .broker e =>
    if e.peer? = some j.conn then none
    else do
      let (b, _) ← j.broker.next? e
      return ({ j with broker := b }, ⟨[], j.broker.served j.conn e⟩)

/-- A client connects to a broker, at whatever point of its run. -/
inductive Begins : Pair → Prop
  | intro {maxPacketSize start now capacity : Nat} {label : String} {es : List Broker.Event}
    {b : Broker} {seen : List Observation} {config : ClientConfig} {c : Client} :
    (Broker.start maxPacketSize start).replay es = some (b, seen) →
    Client.connect config now = .ok c → Begins ⟨c, b.addConn label capacity, b.conns.length⟩

/-- A pair as a machine, which keeps the log. -/
def machine : Machine Pair Event Log := ⟨next?⟩

/-- A run, and its log. -/
def Run (j : Pair) (log : Log) : Prop :=
  ∃ j₀ es, Begins j₀ ∧ machine.replay j₀ es = some (j, log)

/-! ### What events there are -/

variable {j j' : Pair} {more : Log} {e : Event}

/-- The events of a pair. -/
inductive Steps (j : Pair) : Event → Pair → Log → Prop
  | begins {k : Nat} {call : ClientCall} {c : Client} : j.client.stage = .running →
    j.client.calls[k]? = none → Client.Starts j.client k call c →
    Steps j (.calls k call) { j with client := c } ⟨Client.begun call, []⟩
  | refuses {k : Nat} {call : ClientCall} : Steps j (.calls k call) j .empty
  | elapses {millis : Nat} : Steps j (.elapses millis)
      { j with client := { j.client with now := j.client.now + millis } } .empty
  | moves {a : Client.Action} {k : Conn} {n : Client.Next} : j.broker.conns[j.conn]? = some k →
    j.client.step k.link a = some n →
    Steps j (.client a)
      { j with client := n.1, broker := j.broker.modifyLink j.conn fun _ => n.2.1 }
      ⟨j.client.notes n.2.2, []⟩
  | serves {e : Broker.Event} {b : Broker} {seen : List Observation} : e.peer? ≠ some j.conn →
    j.broker.next? e = some (b, seen) →
    Steps j (.broker e) { j with broker := b } ⟨[], j.broker.served j.conn e⟩

theorem next?_cases (h : j.next? e = some (j', more)) : Steps j e j' more := by
  cases e with
  | calls k call =>
    unfold next? at h
    dsimp only at h
    split at h
    · next hstage hfresh =>
      split at h
      · next c hstart =>
        cases h
        exact .begins hstage hfresh (Client.starts_of_start hstart)
      · cases h
        exact .refuses
    · cases h
  | elapses millis =>
    cases h
    exact .elapses
  | client a =>
    obtain ⟨k, hk, h⟩ := Option.bind_eq_some_iff.1 h
    obtain ⟨⟨c, l, seen⟩, hstep, h⟩ := Option.bind_eq_some_iff.1 h
    cases h
    exact .moves hk hstep
  | broker e =>
    unfold next? at h
    dsimp only at h
    split_ifs at h with hpeer
    -- What the peer of this connection does is up to the client, and no event of the broker.
    obtain ⟨⟨b, seen⟩, hnext, h⟩ := Option.bind_eq_some_iff.1 h
    cases h
    exact .serves hpeer hnext

end Pair
end Mqtt
