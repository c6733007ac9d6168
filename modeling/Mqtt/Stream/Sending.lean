import Mqtt.Stream.Pipe
import Mqtt.Stream.Turnstile
/-!
# Sending one frame

Several tasks send frames into one pipe. Each waits at a turnstile until the pipe is its own, lays
out its frame, and pushes it into the pipe piece by piece as the reader makes room. It gives up
when the token of the connection is cancelled: in line, and also in the middle of the frame.

`Outlet.step` is one such move. Where several moves are possible, any of them may come next: a task
that sees the token cancelled may still push if there is room.
-/

namespace Mqtt

/-- How far the sending of a frame is. -/
inductive Sending where
  /-- The task has not come to the turnstile. -/
  | starting
  /-- The task is in line, or inside and has not laid out the frame. -/
  | inLine
  /-- The task is inside, and these bytes of the frame are left. -/
  | pushing (left : Bytes)
deriving DecidableEq, Repr, Inhabited

/-- A move of a sending task. -/
inductive SendMove where
  /-- Comes to the turnstile. -/
  | enter
  /-- Lays out the frame, once inside. -/
  | layOut
  /-- Pushes what the pipe takes. -/
  | push
  /-- Gives up, since the token is cancelled. -/
  | giveUp
deriving DecidableEq, Repr

/-- A pipe that several tasks send into. -/
structure Outlet (ι : Type) where
  turnstile : Turnstile ι
  pipe : Pipe

/-- What a move leads to. -/
structure Sent (ι : Type) where
  outlet : Outlet ι
  /-- Where the sending stands, or how it ended. -/
  state : Sending ⊕ Except Fault Unit
  /-- What the pipe took. -/
  pushed : Bytes

/-- The fault of a write whose reader is gone. -/
def brokenPipe : Fault := .io "broken pipe"

namespace Outlet

variable {ι : Type} [DecidableEq ι]

/-- The task leaves the turnstile. -/
def leave (o : Outlet ι) (i : ι) : Outlet ι := { o with turnstile := o.turnstile.leave i }

/-- The task goes on. -/
def goOn (o : Outlet ι) (s : Sending) : Sent ι := ⟨o, .inl s, []⟩

/-- The task leaves with a result. -/
def finish (o : Outlet ι) (i : ι) (r : Except Fault Unit) (pushed : Bytes) : Sent ι :=
  ⟨o.leave i, .inr r, pushed⟩

/-- A move of the task `i` that sends a frame. `frame` is the frame or the reason why there is
none, and `cancelled` says whether the token is. Nothing if the move is not possible. -/
def step (o : Outlet ι) (i : ι) (frame : Except Fault Bytes) (cancelled : Bool) :
    Sending → SendMove → Option (Sent ι)
  | .starting, .enter => some ({ o with turnstile := o.turnstile.enter i }.goOn .inLine)
  | .inLine, .layOut =>
    if o.turnstile.holds i then
      match frame with
      | .ok bs => some (o.goOn (.pushing bs))
      | .error f => some (o.finish i (.error f) [])
    else none
  | .pushing left, .push =>
    match o.pipe.write left with
    | .broken => some (o.finish i (.error brokenPipe) [])
    | .full => none
    | .took p taken left =>
      let o := { o with pipe := p }
      if left.isEmpty then some (o.finish i (.ok ()) taken)
      else some ⟨o, .inl (.pushing left), taken⟩
  | .starting, .giveUp => if cancelled then some ⟨o, .inr (.error .cancelled), []⟩ else none
  | .inLine, .giveUp | .pushing _, .giveUp =>
    if cancelled then some (o.finish i (.error .cancelled) []) else none
  | _, _ => none

/-- The task is dropped where it stands. -/
def abandon (o : Outlet ι) (i : ι) : Sending → Outlet ι
  | .starting => o
  | .inLine | .pushing _ => o.leave i

end Outlet
end Mqtt
