import Mqtt.Frame
/-!
# Frames inside their input

A frame that was found in received bytes need not be copied out of them as long as its body lies
in one piece. Received bytes may come as several segments; a body that crosses from one segment
into the next has to be copied.
-/

namespace Mqtt

/-- A frame, and whether its body still lies in the input that it was found in. -/
structure FrameView where
  frame : Frame
  borrowed : Bool
deriving DecidableEq, Repr, Inhabited

namespace FrameView

/-- The same frame with a body of its own. -/
def detach (v : FrameView) : FrameView := { v with borrowed := false }

/-- Whether two views show the same frame. Where its body lies makes no difference. -/
def sameFrame (v w : FrameView) : Bool := v.frame == w.frame

/-- The frame at the front of a byte string. Its body lies in one piece. -/
def parse (bs : Bytes) : Except Fault (Option (FrameView × Nat)) := do
  match ← Frame.parse bs with
  | none => return none
  | some (f, used) => return some (⟨f, true⟩, used)

/-- The first `n` bytes of input that lies in several segments. -/
def takeAcross : Nat → List Bytes → Bytes
  | _, [] => []
  | n, s :: rest => s.take n ++ takeAcross (n - s.length) rest

/-- The `size` bytes from position `start` on, and whether they lie inside one segment. -/
def span : List Bytes → Nat → Nat → Bytes × Bool
  | [], _, _ => ([], false)
  | s :: rest, start, size =>
    if s.length ≤ start then span rest (start - s.length) size
    else if start + size ≤ s.length then ((s.drop start).take size, true)
    else (s.drop start ++ takeAcross (start + size - s.length) rest, false)

/-- The frame at the front of input that lies in several segments, and the number of bytes that it
takes. An empty body needs no copy wherever it lies. -/
def parseSegments (segments : List Bytes) : Except Fault (Option (FrameView × Nat)) :=
  match takeAcross (1 + RemainingLength.maxWidth) segments with
  | [] => .ok none
  | header :: lookahead => do
    match ← RemainingLength.parse lookahead with
    | none => return none
    | some (n, used) =>
      let start := 1 + used
      if segments.flatten.length < start + n then return none
      let (body, inPlace) := if n = 0 then ([], true) else span segments start n
      return some (⟨⟨header, body⟩, inPlace⟩, start + n)

end FrameView
end Mqtt
