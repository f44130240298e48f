import MqttGateway.Text.Utf8
import MqttGateway.Text.Letters
/-!
# Armoured files

A file holds either plain octets or, if it begins with a dashed line after blanks, blocks of base 64
between dashed lines that carry a label. Lines outside blocks are passed over.
-/
namespace MqttGateway

inductive PemFault
  | header
  | incomplete
  | base64
  | notText
  | missing (label : String)
  deriving DecidableEq, Repr

def PemFault.message : PemFault → String
  | .header => "invalid PEM input: invalid header"
  | .incomplete => "invalid PEM input: incomplete PEM"
  | .base64 => "invalid PEM input: base64 decode error"
  | .notText => "invalid PEM input: IO error: stream did not contain valid UTF-8"
  | .missing label => "no " ++ label ++ " block found in PEM input"

namespace Pem

def sextet? (c : Char) : Option Nat :=
  if 'A' ≤ c ∧ c ≤ 'Z' then some (c.toNat - 65)
  else if 'a' ≤ c ∧ c ≤ 'z' then some (c.toNat - 71)
  else if c.isDigit then some (c.toNat + 4)
  else if c = '+' then some 62
  else if c = '/' then some 63
  else none

/-- Groups of four characters. The last octets of a group may be missing, with `=` in their place
and zero bits before them. -/
def base64? : List Char → Option Octets
  | [] => some []
  | a :: b :: c :: d :: rest => do
    let x ← sextet? a
    let y ← sextet? b
    let group ←
      if c = '=' ∧ d = '=' then
        if y % 16 = 0 then some [x * 4 + y / 16] else none
      else do
        let z ← sextet? c
        if d = '=' then
          if z % 4 = 0 then some [x * 4 + y / 16, y % 16 * 16 + z / 4] else none
        else do
          let w ← sextet? d
          some [x * 4 + y / 16, y % 16 * 16 + z / 4, z % 4 * 64 + w]
    let more ← base64? rest
    return group.map UInt8.ofNat ++ more
  | _ => none

/-- The lines of a file with their line feeds, and their texts as far as they are texts. -/
def lines (bs : Octets) : List (Option (List Char)) :=
  go bs [] []
where
  text (acc : Octets) : Option (List Char) :=
    match Utf8.decode acc.reverse with
    | .ok s => some s.toList
    | .error _ => none
  go : Octets → Octets → List (Option (List Char)) → List (Option (List Char))
    | [], [], done => done.reverse
    | [], acc, done => (text acc :: done).reverse
    | b :: bs, acc, done =>
      if b = 0x0A then go bs [] (text (b :: acc) :: done) else go bs (b :: acc) done

def beginMark : List Char := "-----BEGIN ".toList
def endMark : List Char := "-----END ".toList

def trimEnd (cs : List Char) : List Char :=
  (Letters.trimStart cs.reverse).reverse

/-- The label of an opening line. -/
def label? (line : List Char) : Option String :=
  let after := line.drop beginMark.length
  if ((String.ofList after).splitOn "-----").length < 2 then none
  else some (String.ofList (after.takeWhile (· ≠ '-')))

/-- The lines of a block up to its closing line, put together, and the lines after it. -/
def body : List (Option (List Char)) → List Char →
    Except PemFault (List Char × List (Option (List Char)))
  | [], _ => .error .incomplete
  | none :: _, _ => .error .notText
  | some line :: rest, acc =>
    if endMark.isPrefixOf line then .ok (acc, rest) else body rest (acc ++ trimEnd line)

/-- The label and the content of the next block, if there is one, and the lines after it. -/
def block? : List (Option (List Char)) →
    Except PemFault (Option (String × Octets × List (Option (List Char))))
  | [] => .ok none
  | none :: _ => .error .notText
  | some line :: rest =>
    if beginMark.isPrefixOf line then
      match label? line with
      | none => .error .header
      | some label => do
        let (text, rest) ← body rest []
        match base64? text with
        | some content => return some (label, content, rest)
        | none => throw .base64
    else block? rest

/-- The first block with a given label, among at most `fuel` blocks. -/
def findBlock (label : String) : Nat → List (Option (List Char)) → Except PemFault Octets
  | 0, _ => .error (.missing label)
  | fuel + 1, lines => do
    match ← block? lines with
    | none => throw (.missing label)
    | some (found, content, rest) =>
      if found = label then return content else findBlock label fuel rest

def isAsciiBlank (b : UInt8) : Bool :=
  b == 0x20 || b == 0x09 || b == 0x0A || b == 0x0C || b == 0x0D

def isArmoured (data : Octets) : Bool :=
  (Utf8.encode "-----BEGIN").isPrefixOf (data.dropWhile isAsciiBlank)

/-- The octets of the first block with the given label, or the data itself if it has no blocks. -/
def content (label : String) (data : Octets) : Except PemFault Octets :=
  if isArmoured data then
    let ls := lines data
    findBlock label (ls.length + 1) ls
  else .ok data

end Pem
end MqttGateway
