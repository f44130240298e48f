/-!
# JSON values

The value of a JSON text as far as the text could be read. Where reading stopped, the innermost
value is `broken` or has its fault in `stop`, and so has everything around it; a whole value has
no fault in it. Whoever interprets a value in the order of its text thus meets either something
that does not fit or the fault, whichever comes first.
-/
namespace MqttGateway

namespace Json

inductive Fault
  | syntaxError
  | endOfText
  deriving DecidableEq, Repr

end Json

inductive Json
  | null
  | bool (value : Bool)
  | number (value : Int)
  /-- A number that is not written as an integer, and whether it is within range. -/
  | float (numeral : String) (finite : Bool)
  | string (value : String)
  /-- A string with an escape for half of a surrogate pair. -/
  | unpaired
  | array (items : List Json) (stop : Option Json.Fault)
  | object (members : List (String × Json)) (stop : Option Json.Fault)
  | broken (fault : Json.Fault)
  deriving Repr

namespace Json

def list (items : List Json) : Json :=
  .array items none

def record (members : List (String × Json)) : Json :=
  .object members none

def strings (items : List String) : Json :=
  list (items.map .string)

def ofOption {α : Type} (f : α → Json) : Option α → Json
  | some a => f a
  | none => .null

def natural (n : Nat) : Json :=
  .number n

/-- The last member with the given key. -/
def member? (key : String) : Json → Option Json
  | .object members _ => (members.reverse.find? (·.1 == key)).map (·.2)
  | _ => none

/-- A member that is present and not null. -/
def given? (key : String) (value : Json) : Option Json :=
  match value.member? key with
  | some .null => none
  | found => found

def string? : Json → Option String
  | .string s => some s
  | _ => none

def int? : Json → Option Int
  | .number n => some n
  | _ => none

def bool? : Json → Option Bool
  | .bool b => some b
  | _ => none

def items? : Json → Option (List Json)
  | .array items _ => some items
  | _ => none

def members? : Json → Option (List (String × Json))
  | .object members _ => some members
  | _ => none

end Json
end MqttGateway
