/-!
# Settings as data

The tree of values in which settings are stored, and the readers that take a setting out of it. A
reader takes only a value of the right shape and in range; a missing setting keeps its default, but
a setting that is there and wrong is refused.
-/

namespace Mqtt

/-- A stored value. -/
inductive Value where
  | null
  | truth (b : Bool)
  | integer (n : Int)
  /-- A number that is not written as an integer. -/
  | fraction
  | text (s : String)
  | list (items : List Value)
  | record (fields : List (String × Value))
deriving Inhabited

namespace Value

/-- A text. -/
def text? : Value → Option String
  | text s => some s
  | _ => none

/-- A truth value. -/
def truth? : Value → Option Bool
  | truth b => some b
  | _ => none

/-- A natural number below a bound. -/
def below? (bound : Nat) : Value → Option Nat
  | integer n => if 0 ≤ n ∧ n < bound then some n.toNat else none
  | _ => none

/-- A number of 16 bits. -/
def uint16? (v : Value) : Option UInt16 := (v.below? 65536).map UInt16.ofNat

/-- A number of 64 bits. -/
def uint64? (v : Value) : Option UInt64 := (v.below? 18446744073709551616).map UInt64.ofNat

/-- A list of bytes. -/
def bytes? : Value → Option (List UInt8)
  | list items => items.mapM fun v => (v.below? 256).map UInt8.ofNat
  | _ => none

/-- A value that may be absent. -/
def orNull {α : Type} (read : Value → Option α) : Value → Option (Option α)
  | null => some none
  | v => (read v).map some

/-- The stored form of a value that may be absent. -/
def ofOption {α : Type} (store : α → Value) : Option α → Value
  | none => null
  | some a => store a

/-- The stored form of a list of bytes. -/
def ofBytes (bs : List UInt8) : Value := list (bs.map fun b => integer b.toNat)

/-- The values of the named settings, in this order. A record gives each by its name, and what else
it holds is passed over; a list gives them in order and may stop early, but not go on. -/
def settings? (names : List String) : Value → Option (List (Option Value))
  | record fields => some (names.map fun name => fields.lookup name)
  | list items =>
    if names.length < items.length then none
    else some (items.map some ++ List.replicate (names.length - items.length) none)
  | _ => none

/-- A setting that is there, or its default. -/
def orDefault {α : Type} (read : Value → Option α) (default : α) : Option Value → Option α
  | none => some default
  | some v => read v

end Value
end Mqtt
