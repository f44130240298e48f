import MqttGateway.Text.Letters
/-!
# Quoted text

A text between double quotes in which every character that could not be read back from a line of
print is escaped: quotes and backslashes, controls, blanks other than the space, unassigned code
points, and marks that would attach to the character before them.
-/
namespace MqttGateway.Quoted

def hexDigits (n : Nat) : List Char :=
  Nat.toDigits 16 n

def escape (c : Char) : List Char :=
  if c = '"' then ['\\', '"']
  else if c = '\\' then ['\\', '\\']
  else if c = '\n' then ['\\', 'n']
  else if c = '\r' then ['\\', 'r']
  else if c = '\t' then ['\\', 't']
  else if c = '\x00' then ['\\', '0']
  else if c ≠ ' ' ∧ ((Category.ofChar c).isBlank ∨ Letters.isExtender c) then
    ['\\', 'u', '\x7b'] ++ hexDigits c.toNat ++ ['\x7d']
  else [c]

def encode (s : String) : String :=
  String.ofList ('"' :: s.toList.flatMap escape ++ ['"'])

end MqttGateway.Quoted
