import Mqtt.Bytes.Queue
import Mqtt.Fault
/-!
# Pipes

A connection is a pair of pipes, one for each direction. A pipe holds the bytes that were written
and not yet read, up to its capacity: a write into a full pipe waits. A pipe is closed once either
of its ends is given up, or its writer says that nothing more will come; then it still hands out
what it holds, and every write into it fails.
-/

namespace Mqtt

/-- One direction of a connection. -/
structure Pipe where
  /-- The most bytes that are held unread. -/
  capacity : Nat
  /-- The bytes written and not read. -/
  unread : ByteQueue
  /-- Whether nothing more can be written. -/
  closed : Bool
deriving Inhabited

namespace Pipe

/-- The pipe that holds nothing yet. -/
def empty (capacity : Nat) : Pipe := ⟨capacity, .empty, false⟩

/-- How many bytes can be written without waiting. -/
def free (p : Pipe) : Nat := p.capacity - p.unread.size

/-- Gives up one end, or says that nothing more will come. -/
def close (p : Pipe) : Pipe := { p with closed := true }

/-- What comes of an attempt to write. -/
inductive Written where
  /-- The pipe is closed. -/
  | broken
  /-- The pipe is full. -/
  | full
  /-- The pipe took the first bytes, and these are left. -/
  | took (p : Pipe) (taken left : Bytes)

/-- Writes as many bytes as fit. -/
def write (p : Pipe) (bs : Bytes) : Written :=
  if p.closed then .broken
  else if p.free = 0 then .full
  else
    let taken := bs.take p.free
    .took { p with unread := p.unread.push taken } taken (bs.drop p.free)

/-- What comes of an attempt to read. -/
inductive Read where
  /-- Nothing has been written. -/
  | nothing
  /-- Nothing more will come. -/
  | ended
  /-- These bytes were next. -/
  | got (bs : Bytes) (p : Pipe)

/-- Reads at most `n` bytes. -/
def read (p : Pipe) (n : Nat) : Read :=
  if p.unread.isEmpty then if p.closed then .ended else .nothing
  else
    let (bs, rest) := p.unread.splitAt n
    .got bs { p with unread := rest }

/-- Whether a reader has to wait. -/
def isDry (p : Pipe) : Bool := p.unread.isEmpty && !p.closed

end Pipe

/-- The two pipes of a connection. -/
structure Link where
  /-- Towards the broker. -/
  up : Pipe
  /-- Towards the client. -/
  down : Pipe
deriving Inhabited

namespace Link

/-- A connection over which nothing has been sent. -/
def empty (capacity : Nat) : Link := ⟨.empty capacity, .empty capacity⟩

/-- One side gives up its end of the connection. -/
def drop (l : Link) : Link := ⟨l.up.close, l.down.close⟩

end Link
end Mqtt
