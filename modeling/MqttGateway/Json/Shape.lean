import MqttGateway.Json.Basic
/-!
# Shapes of JSON values

A shape writes the values of a type and reads them back. Reading follows the order of the text, so
that of a value that does not fit and a fault in the text the earlier one is reported. A record is
an object with known keys, each given at most once; members with other keys are ignored, and an
array gives the members in the order of the fields.
-/
namespace MqttGateway.Json

/-- Why a text is not read: a fault of the text itself, or a value that does not fit. -/
inductive Misfit
  | fault (fault : Fault)
  | shape
  deriving DecidableEq, Repr

/-- The reason for which a value is not of some other form. -/
def misfit : Json → Misfit
  | .broken fault => .fault fault
  | .unpaired => .fault .syntaxError
  | .float _ false => .fault .syntaxError
  | _ => .shape

def noFault : Option Fault → Except Misfit Unit
  | some fault => .error (.fault fault)
  | none => .ok ()

/-- The fault that ended the reading of a value nobody looks into. -/
def fault? : Json → Option Fault
  | .broken fault => some fault
  | .array _ stop => stop
  | .object _ stop => stop
  | _ => none

structure Shape (α : Type) where
  write : α → Json
  read : Json → Except Misfit α

namespace Shape

def string : Shape String where
  write := .string
  read
    | .string s => .ok s
    | value => .error value.misfit

def bool : Shape Bool where
  write := .bool
  read
    | .bool b => .ok b
    | value => .error value.misfit

/-- Integers that `ofInt?` accepts. -/
def integer {α : Type} (toInt : α → Int) (ofInt? : Int → Option α) : Shape α where
  write a := .number (toInt a)
  read
    | .number n => match ofInt? n with
      | some a => .ok a
      | none => .error .shape
    | value => .error value.misfit

def uint64 : Shape UInt64 :=
  integer (fun n => n.toNat) fun n =>
    if 0 ≤ n ∧ n < Nat.pow 2 64 then some (UInt64.ofNat n.toNat) else none

def int32 : Shape Int32 :=
  integer Int32.toInt fun n =>
    if -2147483648 ≤ n ∧ n < 2147483648 then some (Int32.ofInt n) else none

/-- Words that `ofWord?` accepts. -/
def word {α : Type} (toWord : α → String) (ofWord? : String → Option α) : Shape α where
  write a := .string (toWord a)
  read
    | .string s => match ofWord? s with
      | some a => .ok a
      | none => .error .shape
    | value => .error value.misfit

def optional {α : Type} (shape : Shape α) : Shape (Option α) where
  write
    | some a => shape.write a
    | none => .null
  read
    | .null => .ok none
    | value => some <$> shape.read value

def list {α : Type} (shape : Shape α) : Shape (List α) where
  write as := Json.list (as.map shape.write)
  read
    | .array items stop => do
      let as ← items.mapM shape.read
      noFault stop
      return as
    | value => .error value.misfit

/-- One of a fixed set of names, written as a string or as the key of an object that holds null. -/
def choice {α : Type} (name : α → String) (ofName? : String → Option α) : Shape α where
  write a := .string (name a)
  read
    | .string s => match ofName? s with
      | some a => .ok a
      | none => .error .shape
    | .object [] stop => .error (.fault (stop.getD .syntaxError))
    | .object ((key, value) :: more) stop => match ofName? key, value with
      | some a, .null => do
        noFault stop
        if more.isEmpty then return a else throw (.fault .syntaxError)
      | some _, value => .error value.misfit
      | none, _ => .error .shape
    | .broken fault => .error (.fault fault)
    | _ => .error (.fault .syntaxError)

end Shape

structure Field (σ : Type) where
  key : String
  write : σ → Json
  read : Json → σ → Except Misfit σ

def Field.of {σ α : Type} (key : String) (shape : Shape α) (get : σ → α) (put : σ → α → σ) :
    Field σ :=
  ⟨key, fun s => shape.write (get s), fun value s => put s <$> shape.read value⟩

/-- What a record is before any member is read, its fields, and the keys it must have. -/
structure Record (σ : Type) where
  blank : σ
  fields : List (Field σ)
  required : List String

namespace Record

variable {σ : Type}

def field? (r : Record σ) (key : String) : Option (Field σ) :=
  r.fields.find? (·.key == key)

/-- Reads one more member into what has been read and the keys seen. -/
def member (r : Record σ) (state : σ × List String) (item : String × Json) :
    Except Misfit (σ × List String) :=
  match r.field? item.1 with
  | some field =>
    if state.2.contains item.1 then .error .shape
    else do return (← field.read item.2 state.1, item.1 :: state.2)
  | none => do
    noFault item.2.fault?
    return state

def complete (r : Record σ) (state : σ × List String) : Except Misfit σ :=
  if r.required.all state.2.contains then .ok state.1 else .error .shape

def readItems : List (Field σ) → List Json → σ × List String →
    Except Misfit (σ × List String × List Json)
  | field :: fields, value :: values, (s, seen) => do
    readItems fields values (← field.read value s, field.key :: seen)
  | _, values, (s, seen) => .ok (s, seen, values)

def shape (r : Record σ) : Shape σ where
  write s := .object (r.fields.map fun field => (field.key, field.write s)) none
  read
    | .object members stop => do
      let state ← members.foldlM r.member (r.blank, [])
      noFault stop
      r.complete state
    | .array items stop => do
      let (s, seen, more) ← readItems r.fields items (r.blank, [])
      if more.isEmpty then do
        if items.length < r.fields.length then noFault stop
        let s ← r.complete (s, seen)
        noFault stop
        return s
      else .error (.fault .syntaxError)
    | value => .error value.misfit

end Record
end MqttGateway.Json
