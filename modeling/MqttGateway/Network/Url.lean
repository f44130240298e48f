import MqttGateway.Network.Address
import MqttGateway.Text.Letters
import MqttGateway.Text.Utf8
/-!
# Addresses of resources

The check of a text that is to address a resource on some host. Nothing is required of what follows
the host and the port. Blanks and controls around the address, and tabs and line ends in it, are
passed over.

A host that is a name of the net would first be mapped as an international domain name is. Of this
only the refusal of single characters is here, and it goes by their general categories: a label
that begins with `xn--` is not decoded and passes whatever it spells, and a character that would be
replaced counts as it stands, so that a full-width digit is a letter of a name and no digit of an
address in four parts.
-/
namespace MqttGateway

inductive UrlFault
  | relative
  | emptyHost
  | hostName
  | hostCharacter
  | quad
  | sixth
  | port
  deriving DecidableEq, Repr

def UrlFault.message : UrlFault → String
  | .relative => "relative URL without a base"
  | .emptyHost => "empty host"
  | .hostName => "invalid international domain name"
  | .hostCharacter => "invalid domain character"
  | .quad => "invalid IPv4 address"
  | .sixth => "invalid IPv6 address"
  | .port => "invalid port number"

namespace Url

/-- The kinds of schemes: that of files, those whose host is a name of the net, and all others. -/
inductive Kind
  | file
  | net
  | other
  deriving DecidableEq, Repr

def Kind.ofScheme (scheme : String) : Kind :=
  if scheme = "file" then .file
  else if ["http", "https", "ws", "wss", "ftp"].contains scheme then .net
  else .other

def isPadding (c : Char) : Bool :=
  c ≤ ' '

def isPassedOver (c : Char) : Bool :=
  c == '\t' || c == '\n' || c == '\r'

/-- The characters that count. -/
def significant (text : String) : List Char :=
  let cs := (text.toList.dropWhile isPadding).reverse
  (cs.dropWhile isPadding).reverse.filter fun c => !isPassedOver c

def isSchemeChar (c : Char) : Bool :=
  c.isAlphanum || c == '+' || c == '-' || c == '.'

/-- The scheme and what follows its colon. -/
def scheme? (cs : List Char) : Option (String × List Char) :=
  match cs.takeWhile isSchemeChar, cs.dropWhile isSchemeChar with
  | c :: name, ':' :: rest =>
    if c.isAlpha then some (Letters.toLowerAscii (String.ofList (c :: name)), rest) else none
  | _, _ => none

/-- Whether a character ends the part that names the host. -/
def endsAuthority (k : Kind) (c : Char) : Bool :=
  c == '/' || c == '?' || c == '#' || (c == '\\' && k != .other)

/-! ## Hosts -/

/-- Characters that no host name contains, apart from controls. -/
def reserved : List Char :=
  [' ', '#', '%', '/', ':', '<', '>', '?', '@', '[', '\\', ']', '^', '|']

/-- Whether a character can stand in a name of the net, as far as its general category tells. -/
def isNameChar (c : Char) : Bool :=
  !reserved.contains c &&
    match Category.ofChar c with
    | .control | .unassigned | .privateUse | .lineSeparator | .paragraphSeparator => false
    | _ => true

/-- Whether a character can stand in a name of another kind. -/
def isOpaqueChar (c : Char) : Bool :=
  c == '%' || !(c == '\x00' || reserved.contains c)

/-- Octets in which a percent sign with two hexadecimal digits stands for one octet. -/
def unescape : Octets → Octets
  | 0x25 :: a :: b :: rest =>
    match Octets.ofHex? (String.ofList [Char.ofNat a.toNat, Char.ofNat b.toNat]) with
    | some octet => octet ++ unescape rest
    | none => 0x25 :: unescape (a :: b :: rest)
  | b :: rest => b :: unescape rest
  | [] => []

/-- The radix and the digits of a part of an address in four parts. -/
def radixOf : List Char → Nat × List Char
  | '0' :: 'x' :: digits | '0' :: 'X' :: digits => (16, digits)
  | '0' :: d :: digits => (8, d :: digits)
  | digits => (10, digits)

/-- A part of an address in four parts, which is decimal, octal or hexadecimal. -/
def part? (text : List Char) : Option Nat :=
  let (radix, digits) := radixOf text
  let (ds, rest) := Address.digits radix digits
  if text.isEmpty ∨ !rest.isEmpty then none
  else some (ds.foldl (fun n d => n * radix + d) 0)

/-- The parts of a name between points; a point at its end is no part of it. -/
def labels (name : String) : List (List Char) :=
  let parts := (name.splitOn ".").map (·.toList)
  if 1 < parts.length ∧ parts.getLast? = some [] then parts.dropLast else parts

/-- Whether a name ends in a number, and so has to be an address in four parts. -/
def endsInNumber (name : String) : Bool :=
  match (labels name).getLast? with
  | none | some [] => false
  | some last => last.all Char.isDigit || (part? last).isSome

/-- Up to four numbers of an octet each, of which the last fills up what others leave. -/
def isQuad (parts : List (List Char)) : Bool :=
  match parts.mapM part? with
  | none => false
  | some numbers =>
    numbers.length ≤ 4 && numbers.dropLast.all (· < 256) &&
      numbers.getLast?.any (· < Nat.pow 256 (5 - numbers.length))

def checkName (host : List Char) : Except UrlFault Unit :=
  match Utf8.decode (unescape (Utf8.encode (String.ofList host))) with
  | .error _ => .error .hostName
  | .ok name =>
    if !name.toList.all isNameChar then .error .hostName
    else if name = "" then .error .emptyHost
    else if endsInNumber name && !isQuad (labels name) then .error .quad
    else .ok ()

/-- Checks a host; in brackets it is an address of eight groups. -/
def checkHost (k : Kind) (host : List Char) : Except UrlFault Unit :=
  match host with
  | '[' :: inner =>
    if inner.getLast? = some ']' ∧
        (Address.whole? (Address.sixth? false) (String.ofList inner.dropLast)).isSome then .ok ()
    else .error .sixth
  | host =>
    match k with
    | .other => if host.all isOpaqueChar then .ok () else .error .hostCharacter
    | .file => if host.isEmpty then .ok () else checkName host
    | .net => if host.isEmpty then .error .emptyHost else checkName host

/-- The host and what follows it. A colon ends a host outside brackets. -/
def splitHost (k : Kind) : Bool → List Char → List Char × List Char
  | _, [] => ([], [])
  | bracketed, c :: cs =>
    if endsAuthority k c ∨ (c = ':' ∧ !bracketed) then ([], c :: cs)
    else
      let (host, rest) := splitHost k (c = '[' ∨ (bracketed ∧ c ≠ ']')) cs
      (c :: host, rest)

/-- Checks a port up to the end of the part that names the host. -/
def checkPort (text : List Char) : Except UrlFault Unit :=
  let port := text.takeWhile fun c => !endsAuthority .net c
  let (ds, rest) := Address.digits 10 port
  if rest.isEmpty ∧ ds.foldl (fun n d => n * 10 + d) 0 < 65536 then .ok () else .error .port

/-- The user before the last at sign, if there is one, and what follows it. -/
def splitUser (k : Kind) (cs : List Char) : Option (List Char) × List Char :=
  let authority := cs.takeWhile fun c => !endsAuthority k c
  let host := (authority.reverse.takeWhile (· ≠ '@')).reverse
  if host.length = authority.length then (none, cs)
  else
    let user := authority.take (authority.length - host.length - 1)
    (some user, cs.drop (user.length + 1))

/-- Checks what follows the two slashes: a user, a host and a port. -/
def checkAuthority (k : Kind) (cs : List Char) : Except UrlFault Unit := do
  let (user, rest) := splitUser k cs
  if user = some [] ∧ rest.head?.any (endsAuthority k) then throw .emptyHost
  let (host, rest) := splitHost k false rest
  checkHost k host
  let named := user.any fun u => u ≠ [] && u ≠ [':']
  match rest with
  | ':' :: port => if host.isEmpty then throw .emptyHost else checkPort port
  | _ => if host.isEmpty ∧ named then throw .emptyHost

/-- Checks the host of a file, of which a drive is no host. -/
def checkFile (cs : List Char) : Except UrlFault Unit :=
  let host := cs.takeWhile fun c => !endsAuthority .file c
  match host with
  | [drive, mark] =>
    if drive.isAlpha ∧ (mark = ':' ∨ mark = '|') then .ok () else checkHost .file host
  | _ => checkHost .file host

def isSlash (c : Char) : Bool :=
  c == '/' || c == '\\'

/-- Checks an address; one without a scheme would have to be relative to another. -/
def check (text : String) : Except UrlFault Unit :=
  match scheme? (significant text) with
  | none => .error .relative
  | some (scheme, rest) =>
    match Kind.ofScheme scheme, rest with
    | .net, rest => checkAuthority .net (rest.dropWhile isSlash)
    | .file, a :: b :: rest => if isSlash a ∧ isSlash b then checkFile rest else .ok ()
    | .other, '/' :: '/' :: rest => checkAuthority .other rest
    | _, _ => .ok ()

end Url
end MqttGateway
