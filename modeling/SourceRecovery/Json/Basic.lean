import SourceRecovery.Number.Decimal
import SourceRecovery.Number.Numeral

/-!
# Catalog values

The values that a catalog file can hold, and how they are shown, unless an integer in them is too
long. Members of an object keep the order in which they are written.
-/

namespace SourceRecovery

inductive Json
  | null
  | bool (value : Bool)
  | int (value : Int)
  | real (value : Float64)
  | text (value : String)
  | list (items : List Json)
  | object (members : List (String × Json))

namespace Json

mutual

/-- A value as it stands inside another one: texts are quoted. -/
def quoted : Json → Except NumeralError String
  | .null => .ok "None"
  | .bool true => .ok "True"
  | .bool false => .ok "False"
  | .int n => Numeral.write n
  | .real x => .ok x.toText
  | .text s => .ok (Text.quote s)
  | .list items => do return "[" ++ ", ".intercalate (← quotedItems items) ++ "]"
  | .object members => do return "\x7b" ++ ", ".intercalate (← quotedMembers members) ++ "\x7d"

/-- The items of a list, quoted. -/
def quotedItems : List Json → Except NumeralError (List String)
  | [] => .ok []
  | item :: rest => do return (← item.quoted) :: (← quotedItems rest)

/-- The members of an object, quoted. -/
def quotedMembers : List (String × Json) → Except NumeralError (List String)
  | [] => .ok []
  | (name, value) :: rest => do
    return (Text.quote name ++ ": " ++ (← value.quoted)) :: (← quotedMembers rest)

end

/-- A value shown on its own: a text is itself. -/
def shown : Json → Except NumeralError String
  | .text s => .ok s
  | value => value.quoted

/-- The value of the member of an object with a name. -/
def member? (members : List (String × Json)) (name : String) : Option Json := members.lookup name

/-- Whether a value counts as missing: no value, false, zero, and everything empty. -/
def isVoid : Json → Bool
  | .null => true
  | .bool b => !b
  | .int n => n == 0
  | .real (.finite x) => x.isZero
  | .real _ => false
  | .text s => s.isEmpty
  | .list items => items.isEmpty
  | .object members => members.isEmpty

end Json

end SourceRecovery
