import Mqtt.Bytes.Queue
import Mqtt.Frame
/-!
# Assembling frames from received bytes

Bytes arrive in pieces that have nothing to do with frames. An assembler keeps what has arrived and
hands out the frame at its front as soon as it is whole. The bytes of that frame stay until the
next look, or until they are retired.

A frame above the assembler's limit is refused as soon as its length is known; neither this nor a
malformed length takes anything away, so every later look meets the same fault.
-/

namespace Mqtt

/-- Received bytes that have not been retired. -/
structure Assembler where
  /-- The largest frame that is taken. -/
  limit : Nat
  /-- The received bytes, those of the last frame handed out included. -/
  buffer : ByteQueue
  /-- How many bytes the last frame handed out takes. -/
  pending : Nat
deriving Inhabited

namespace Assembler

/-- The assembler that has received nothing. -/
def empty (limit : Nat) : Assembler := ⟨limit, .empty, 0⟩

/-- How many bytes have been received and not retired. -/
def buffered (a : Assembler) : Nat := a.buffer.size

/-- Drops the bytes of the last frame handed out. -/
def retire (a : Assembler) : Assembler :=
  { a with buffer := a.buffer.drop a.pending, pending := 0 }

/-- Adds received bytes. -/
def receive (a : Assembler) (bs : Bytes) : Assembler :=
  { a with buffer := a.buffer.push bs }

/-- Where the body of the frame at the front begins and ends, once the frame is whole. -/
def bounds (a : Assembler) : Except Fault (Option (Nat × Nat)) :=
  match a.buffer.take (1 + RemainingLength.maxWidth) with
  | [] => .ok none
  | _ :: lookahead => do
    match ← RemainingLength.parse lookahead with
    | none => return none
    | some (n, used) =>
      let stop := 1 + used + n
      -- The length alone decides: nothing of the body need have come.
      if a.limit < stop then violate (.packetTooLarge stop a.limit)
      else if a.buffer.size < stop then return none
      else return some (1 + used, stop)

/-- The frame at the front, once it is whole, with the assembler that has handed it out. -/
def next (a : Assembler) : Except Fault (Option (Frame × Assembler)) := do
  match ← a.bounds with
  | none => return none
  | some (start, stop) =>
    let bytes := a.buffer.take stop
    return some (⟨bytes.headD 0, bytes.drop start⟩, { a with pending := stop })

end Assembler

/-! ### Reading from a source -/

/-- What one read of a source brings. -/
inductive Reading where
  /-- These bytes have arrived; none means the end of the stream. -/
  | arrived (bs : Bytes)
  /-- The read failed. -/
  | failed (reason : String)
  /-- Nothing has arrived, and the reader does not wait for it. -/
  | nothing
deriving Repr

/-- How many bytes one read brings at most. -/
def readSize : Nat := 4096

namespace Assembler

/-- Reads from a source until a frame is whole. A source that has nothing more to bring is at its
end. The answer is missing if the reader stopped waiting. -/
def readFrame (a : Assembler) (source : List Reading) :
    Option (Except Fault Frame) × Assembler × List Reading :=
  go a.retire source
where
  /-- Reads on, with the last frame retired. -/
  go (a : Assembler) (source : List Reading) :
      Option (Except Fault Frame) × Assembler × List Reading :=
    match a.next with
    | .error e => (some (.error e), a, source)
    | .ok (some (f, a)) => (some (.ok f), a, source)
    | .ok none =>
      match source with
      | [] => (some (.error .connectionClosed), a, [])
      | .failed reason :: rest => (some (.error (.io reason)), a, rest)
      | .nothing :: rest => (none, a, rest)
      | .arrived bs :: rest =>
        if bs = [] then (some (.error .connectionClosed), a, rest)
        else
          match _h : bs.drop readSize with
          | [] => go (a.receive bs) rest
          | b :: more => go (a.receive (bs.take readSize)) (.arrived (b :: more) :: rest)
  termination_by (source.length, match source with | .arrived bs :: _ => bs.length | _ => 0)
  decreasing_by
    · exact Prod.Lex.left _ _ (by simp)
    · apply Prod.Lex.right
      have := congrArg List.length ‹_›
      simp [readSize] at this ⊢
      omega

end Assembler
end Mqtt
