import MqttGateway.Json.Basic
/-!
# Printing JSON

The shortest form of a value: no blanks, and only those characters escaped that must be. What could
not be read is printed as null.
-/
namespace MqttGateway.Json

def hexPair (n : Nat) : List Char :=
  let digit (n : Nat) := if n < 10 then Char.ofNat (48 + n) else Char.ofNat (87 + n)
  [digit (n / 16), digit (n % 16)]

def escape (c : Char) : List Char :=
  match c with
  | '"' => ['\\', '"']
  | '\\' => ['\\', '\\']
  | '\x08' => ['\\', 'b']
  | '\x0c' => ['\\', 'f']
  | '\n' => ['\\', 'n']
  | '\r' => ['\\', 'r']
  | '\t' => ['\\', 't']
  | c => if c.toNat < 0x20 then ['\\', 'u', '0', '0'] ++ hexPair c.toNat else [c]

def quote (s : String) : List Char :=
  '"' :: s.toList.flatMap escape ++ ['"']

mutual

def print : Json → List Char
  | .null => "null".toList
  | .bool true => "true".toList
  | .bool false => "false".toList
  | .number n => (toString n).toList
  | .float numeral _ => numeral.toList
  | .string s => quote s
  | .unpaired => "null".toList
  | .array items _ => '[' :: printItems items
  | .object members _ => '{' :: printMembers members
  | .broken _ => "null".toList

def printItems : List Json → List Char
  | [] => [']']
  | [item] => print item ++ [']']
  | item :: items => print item ++ ',' :: printItems items

def printMembers : List (String × Json) → List Char
  | [] => ['}']
  | [(key, item)] => quote key ++ ':' :: print item ++ ['}']
  | (key, item) :: members => quote key ++ ':' :: print item ++ ',' :: printMembers members

end

def render (value : Json) : String :=
  String.ofList (print value)

end MqttGateway.Json
