/-!
# Turnstiles

A turnstile lets one task at a time use something, in the order in which the tasks came. When the
one inside leaves, the first in line is inside at once; nobody can overtake it.
-/

namespace Mqtt

/-- A line of tasks, the first of them inside. -/
structure Turnstile (ι : Type) where
  /-- The task inside. -/
  inside : Option ι
  /-- The tasks in line, first come first. -/
  line : List ι
deriving DecidableEq, Repr, Inhabited

namespace Turnstile

variable {ι : Type} [DecidableEq ι]

/-- The turnstile that nobody uses. -/
def empty : Turnstile ι := ⟨none, []⟩

/-- A task comes: it goes inside if nobody is there, and to the end of the line otherwise. -/
def enter (t : Turnstile ι) (i : ι) : Turnstile ι :=
  match t.inside with
  | none => { t with inside := some i }
  | some _ => { t with line := t.line ++ [i] }

/-- A task goes away, from inside or from the line. -/
def leave (t : Turnstile ι) (i : ι) : Turnstile ι :=
  if t.inside = some i then ⟨t.line.head?, t.line.tail⟩ else { t with line := t.line.erase i }

/-- Whether a task is inside. -/
def holds (t : Turnstile ι) (i : ι) : Bool := t.inside = some i

end Turnstile
end Mqtt
