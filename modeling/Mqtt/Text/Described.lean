/-!
# Descriptions of values

The one-line form of a value inside a message: its name, with the names and values of its fields
in braces, or with unnamed parts in parentheses.
-/

namespace Mqtt.Text

/-- A name with named fields in braces. -/
def described (name : String) (fields : List (String × String)) : String :=
  name ++ " \x7b " ++ ", ".intercalate (fields.map fun f => f.1 ++ ": " ++ f.2) ++ " \x7d"

/-- A name with one unnamed part. -/
def wrapped (name part : String) : String :=
  name ++ "(" ++ part ++ ")"

/-- Parts in square brackets. -/
def listed (parts : List String) : String :=
  "[" ++ ", ".intercalate parts ++ "]"

/-- A value that may be missing. -/
def optional : Option String → String
  | none => "None"
  | some s => wrapped "Some" s

/-- A truth value. -/
def truth : Bool → String
  | true => "true"
  | false => "false"

end Mqtt.Text
