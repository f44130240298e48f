import MqttGateway.Octets
import MqttGateway.Pattern.Basic
/-!
# Reading patterns

The written form of patterns: groups with flags, classes in brackets with set operations, counted
repetition, assertions, and escapes for characters, classes and properties. There are no back
references and no assertions about more than the neighbouring characters. Every pattern can be
searched for in time proportional to the text, which is why a pattern whose repetitions would take
too much room is refused.
-/
namespace MqttGateway

inductive PatternFault
  | malformed
  | tooLarge
  deriving DecidableEq, Repr

def PatternFault.message : PatternFault → String
  | .malformed => "regex parse error"
  | .tooLarge => "Compiled regex exceeds size limit of 10485760 bytes."

namespace Pattern

structure Flags where
  caseless : Bool := false
  multiLine : Bool := false
  dotAll : Bool := false
  unicode : Bool := true
  returns : Bool := false
  verbose : Bool := false

/-- A piece of a pattern read from an escape or a single character. -/
inductive Atom
  | literal (c : Char)
  | set (chars : CharSet)
  | look (assertion : Look)

def skipBlank : Nat → List Char → List Char
  | 0, text => text
  | fuel + 1, text =>
    match text with
    | '#' :: rest => skipBlank fuel ((rest.dropWhile (· ≠ '\n')).drop 1)
    | c :: rest => if Letters.isSpace c then skipBlank fuel rest else c :: rest
    | [] => []

/-- Passes over blanks and comments where the flags make them insignificant. -/
def skip (flags : Flags) (text : List Char) : List Char :=
  if flags.verbose then skipBlank text.length text else text

/-- The set as the flags about case make it. -/
def fold (flags : Flags) (chars : CharSet) : CharSet :=
  if flags.caseless then
    if flags.unicode then .anyCase chars else .anyCaseAscii chars
  else chars

/-- Sets that only make sense for whole characters must not be asked for octet by octet. -/
def checked (flags : Flags) (chars : CharSet) : Option CharSet :=
  if flags.unicode || chars.withinAscii then some chars else none

def hexDigits (flags : Flags) : Nat → Nat → List Char → Option (Nat × List Char)
  | 0, n, text => some (n, text)
  | count + 1, n, c :: rest => do
    hexDigits flags count (n * 16 + (← Octets.hexValue? c)) (skip flags rest)
  | _ + 1, _, [] => none

def hexBraced (flags : Flags) : Nat → List Char → List Char → Option (Nat × List Char)
  | 0, _, _ => none
  | fuel + 1, digits, text =>
    match skip flags text with
    | '}' :: rest =>
      if digits.isEmpty then none
      else some ((digits.reverse.filterMap Octets.hexValue?).foldl (fun n d => n * 16 + d) 0,
        skip flags rest)
    | c :: rest =>
      if (Octets.hexValue? c).isSome then hexBraced flags fuel (c :: digits) rest else none
    | [] => none

def scalar? (n : Nat) : Option Char :=
  if h : n.isValidChar then some (Char.ofNatAux n h) else none

/-- A character given by its number, in `count` digits or in braces. -/
def hex (flags : Flags) (count : Nat) (text : List Char) : Option (Atom × List Char) := do
  match skip flags text with
  | '{' :: rest =>
    let (n, rest) ← hexBraced flags (rest.length + 1) [] rest
    return (.literal (← scalar? n), rest)
  | text =>
    let (n, rest) ← hexDigits flags count 0 text
    if !flags.unicode && count == 2 && 0x80 ≤ n then none
    else return (.literal (← scalar? n), rest)

def untilBrace (flags : Flags) : Nat → List Char → List Char → Option (String × List Char)
  | 0, _, _ => none
  | fuel + 1, acc, text =>
    match skip flags text with
    | '}' :: rest => some (String.ofList acc.reverse, rest)
    | c :: rest => untilBrace flags fuel (c :: acc) rest
    | [] => none

/-- The property and the value around a sign that compares them, and whether they must be equal. -/
def comparison? (name : String) : Option (String × String × Bool) :=
  match name.splitOn "!=" with
  | property :: value :: values => some (property, "!=".intercalate (value :: values), false)
  | _ => match name.splitOn ":" with
    | property :: value :: values => some (property, ":".intercalate (value :: values), true)
    | _ => match name.splitOn "=" with
      | property :: value :: values => some (property, "=".intercalate (value :: values), true)
      | _ => none

def namedProperty? (name : String) : Option CharSet :=
  match comparison? name with
  | some (property, value, equal) =>
    (CharSet.propertyValue? property value).map fun s => if equal then s else .complement s
  | none => CharSet.property? name

def property (flags : Flags) (negated : Bool) (text : List Char) : Option (Atom × List Char) := do
  let (name, rest) ← match skip flags text with
    | '{' :: rest => untilBrace flags (rest.length + 1) [] rest
    | '\\' :: _ => none
    | c :: rest => some (String.singleton c, skip flags rest)
    | [] => none
  if !flags.unicode then none
  let chars := fold flags (← namedProperty? name)
  return (.set (if negated then .complement chars else chars), rest)

def perl (flags : Flags) (negated : Bool) (wide narrow : CharSet) : Option Atom := do
  let chars := if flags.unicode then wide else narrow
  return .set (← checked flags (if negated then .complement chars else chars))

def isMeta (c : Char) : Bool :=
  "\\.+*?()|[]\x7b\x7d^$#&-~".toList.contains c

/-- Characters that may be escaped though there is no need to. -/
def isEscapable (c : Char) : Bool :=
  c.toNat < 0x80 && !c.isAlphanum && c != '<' && c != '>'

/-- The name in braces after a word boundary, unless what follows is a repetition. -/
def boundary (flags : Flags) (text : List Char) : Option (Look × List Char) := do
  let plain := Look.boundary flags.unicode
  match text with
  | '{' :: inner =>
    match skip flags inner with
    | [] => none
    | c :: _ =>
      if c.isAlpha || c == '-' then
        let (name, rest) ← untilBrace flags (inner.length + 1) [] inner
        match name with
        | "start" => return (.wordStart flags.unicode, rest)
        | "end" => return (.wordEnd flags.unicode, rest)
        | "start-half" => return (.halfStart flags.unicode, rest)
        | "end-half" => return (.halfEnd flags.unicode, rest)
        | _ => none
      else return (plain, text)
  | text => return (plain, text)

/-- What follows a backslash. -/
def escape (flags : Flags) : List Char → Option (Atom × List Char)
  | [] => none
  | c :: rest =>
    let class? (negated : Bool) (wide narrow : CharSet) :=
      (perl flags negated wide narrow).map (·, rest)
    match c with
    | 'x' => hex flags 2 rest
    | 'u' => hex flags 4 rest
    | 'U' => hex flags 8 rest
    | 'p' => property flags false rest
    | 'P' => property flags true rest
    | 'd' => class? false CharSet.digit CharSet.asciiDigit
    | 'D' => class? true CharSet.digit CharSet.asciiDigit
    | 's' => class? false .space CharSet.asciiSpace
    | 'S' => class? true .space CharSet.asciiSpace
    | 'w' => class? false .word CharSet.asciiWord
    | 'W' => class? true .word CharSet.asciiWord
    | 'a' => some (.literal '\x07', rest)
    | 'f' => some (.literal '\x0c', rest)
    | 't' => some (.literal '\t', rest)
    | 'n' => some (.literal '\n', rest)
    | 'r' => some (.literal '\r', rest)
    | 'v' => some (.literal '\x0b', rest)
    | 'A' => some (.look .textStart, rest)
    | 'z' => some (.look .textEnd, rest)
    | 'b' => (boundary flags rest).map fun (l, rest) => (.look l, rest)
    | 'B' => some (.look (.notBoundary flags.unicode), rest)
    | '<' => some (.look (.wordStart flags.unicode), rest)
    | '>' => some (.look (.wordEnd flags.unicode), rest)
    | c => if isMeta c || isEscapable c then some (.literal c, rest) else none

/-! ## Classes in brackets -/

inductive SetOp
  | inter | diff | symmetricDiff

def SetOp.apply (flags : Flags) (left : Option (CharSet × SetOp)) (right : CharSet) : CharSet :=
  match left with
  | none => right
  | some (left, .inter) => .inter (fold flags left) (fold flags right)
  | some (left, .diff) => (fold flags left).diff (fold flags right)
  | some (left, .symmetricDiff) => (fold flags left).symmetricDiff (fold flags right)

def join (a b : CharSet) : CharSet :=
  if a = .none then b else .union a b

/-- A named class, the bracket in front of its colon being read. -/
def namedClass? (flags : Flags) : List Char → Option (CharSet × List Char)
  | ':' :: rest => do
    let (negated, rest) := match rest with
      | '^' :: rest => (true, rest)
      | rest => (false, rest)
    let name := rest.takeWhile (· ≠ ':')
    match rest.dropWhile (· ≠ ':') with
    | ':' :: ']' :: rest =>
      let chars := fold flags (← CharSet.bracketClass? (String.ofList name))
      return (if negated then .complement chars else chars, rest)
    | _ => none
  | _ => none

def classAtom (flags : Flags) : List Char → Option (Atom × List Char)
  | '\\' :: rest => escape flags rest
  | c :: rest => some (.literal c, rest)
  | [] => none

/-- Octet by octet only characters of one octet can be members. -/
def classChar (flags : Flags) (c : Char) : Option Nat :=
  if flags.unicode || c.toNat < 0x80 then some c.toNat else none

/-- The character after the next, as far as blanks do not count. -/
def next (flags : Flags) : List Char → Option Char
  | [] => none
  | _ :: rest => (skip flags rest).head?

/-- A single member of a class or a range of members. -/
def classRange (flags : Flags) (text : List Char) : Option (CharSet × List Char) := do
  let (first, rest) ← classAtom flags text
  let rest := skip flags rest
  let single := do
    match first with
    | .literal c => let n ← classChar flags c; return (CharSet.range n n, rest)
    | .set chars => return (chars, rest)
    | .look _ => none
  match rest with
  | [] => none
  | '-' :: after =>
    if next flags rest == some ']' || next flags rest == some '-' then single
    else
      match skip flags after with
      | [] => none
      | text =>
        match first, ← classAtom flags text with
        | .literal lo, (.literal hi, rest) =>
          if lo.toNat ≤ hi.toNat then
            return (.range (← classChar flags lo) (← classChar flags hi), rest)
          else none
        | _, _ => none
  | _ => single

/-- The hyphens, or else the closing bracket, that stand for themselves at the start of a class. -/
def classStart (flags : Flags) : Nat → CharSet → List Char → CharSet × List Char
  | 0, acc, text => (acc, text)
  | fuel + 1, acc, text =>
    match text with
    | '-' :: rest => classStart flags fuel (join acc (.single '-')) (skip flags rest)
    | ']' :: rest =>
      if acc = .none then (.single ']', skip flags rest) else (acc, text)
    | text => (acc, text)

mutual

/-- A class, its opening bracket being read. -/
def bracket (flags : Flags) : Nat → List Char → Option (CharSet × List Char)
  | 0, _ => none
  | fuel + 1, text => do
    let (negated, text) := match skip flags text with
      | '^' :: rest => (true, skip flags rest)
      | text => (false, text)
    let (acc, text) := classStart flags text.length .none text
    let (chars, rest) ← classItems flags fuel none acc text
    let chars := fold flags chars
    let chars ← checked flags (if negated then .complement chars else chars)
    return (chars, rest)

def classItems (flags : Flags) : Nat → Option (CharSet × SetOp) → CharSet → List Char →
    Option (CharSet × List Char)
  | 0, _, _, _ => none
  | fuel + 1, left, acc, text =>
    match skip flags text with
    | [] => none
    | '[' :: rest =>
      match namedClass? flags rest with
      | some (chars, rest) => classItems flags fuel left (join acc chars) rest
      | none => do
        let (chars, rest) ← bracket flags fuel rest
        classItems flags fuel left (join acc chars) rest
    | ']' :: rest => some (SetOp.apply flags left acc, rest)
    | '&' :: '&' :: rest =>
      classItems flags fuel (some (SetOp.apply flags left acc, .inter)) .none rest
    | '-' :: '-' :: rest =>
      classItems flags fuel (some (SetOp.apply flags left acc, .diff)) .none rest
    | '~' :: '~' :: rest =>
      classItems flags fuel (some (SetOp.apply flags left acc, .symmetricDiff)) .none rest
    | text => do
      let (chars, rest) ← classRange flags text
      classItems flags fuel left (join acc chars) rest

end

/-! ## Repetition -/

def decimal (flags : Flags) : Nat → List Char → List Char → Option Nat × List Char
  | 0, digits, text =>
    (if digits.isEmpty then none
      else some (digits.reverse.foldl (fun n c => n * 10 + (c.toNat - 48)) 0), text)
  | fuel + 1, digits, text =>
    match text with
    | c :: rest =>
      if c.isDigit then decimal flags fuel (c :: digits) (skip flags rest)
      else decimal flags 0 digits (text.dropWhile Letters.isSpace)
    | [] => decimal flags 0 digits []

/-- A count of at most 32 bits with blanks around it. -/
def count (flags : Flags) (text : List Char) : Option Nat × List Char :=
  let text := text.dropWhile Letters.isSpace
  let (n, rest) := decimal flags text.length [] text
  (n.filter (· < Nat.pow 2 32), rest)

/-- The bounds of a counted repetition, its opening brace being read. -/
def bounds (flags : Flags) (text : List Char) : Option (Nat × Option Nat × List Char) := do
  let (least, rest) := count flags (skip flags text)
  let (least, most, rest) ← match rest with
    | ',' :: rest =>
      match skip flags rest with
      | '}' :: _ => some (← least, none, skip flags rest)
      | [] => none
      | rest =>
        let least ← least
        let (most, rest) := count flags rest
        some (least, some (← most), rest)
    | rest => let n ← least; some (n, some n, rest)
  match rest with
  | '}' :: rest =>
    match most with
    | some m => if least ≤ m then return (least, most, rest) else none
    | none => return (least, most, rest)
  | _ => none

/-- Passes over the mark that only concerns which of several matches is preferred. -/
def skipLazy : List Char → List Char
  | '?' :: rest => rest
  | rest => rest

/-! ## Groups -/

def flagItem (c : Char) (value : Bool) (flags : Flags) : Option Flags :=
  match c with
  | 'i' => some { flags with caseless := value }
  | 'm' => some { flags with multiLine := value }
  | 's' => some { flags with dotAll := value }
  | 'u' => some { flags with unicode := value }
  | 'R' => some { flags with returns := value }
  | 'x' => some { flags with verbose := value }
  | 'U' => some flags
  | _ => none

/-- Flags up to a colon or a closing parenthesis, none given twice. -/
def flagItems : List Char → List Char → Flags → Option (Flags × Bool × List Char)
  | seen, c :: rest, flags =>
    if c = ')' ∨ c = ':' then
      if seen.head? = some '-' then none
      else if c = ')' ∧ seen.isEmpty then none
      else some (flags, c = ')', rest)
    else if seen.contains c then none
    else if c = '-' then flagItems (c :: seen) rest flags
    else do flagItems (c :: seen) rest (← flagItem c (!seen.contains '-') flags)
  | _, [], _ => none

def isNameChar (first : Bool) (c : Char) : Bool :=
  let k := Category.ofChar c
  c == '_' || k.isLetter || k == .letterNumber
    || (!first && (c == '.' || c == '[' || c == ']' || k == .decimalNumber || k == .otherNumber))

/-- The name of a group up to its closing angle bracket. -/
def groupName (text : List Char) : Option (String × List Char) :=
  match text.takeWhile (· ≠ '>'), text.dropWhile (· ≠ '>') with
  | c :: cs, '>' :: rest =>
    if isNameChar true c && cs.all (isNameChar false) then some (String.ofList (c :: cs), rest)
    else none
  | _, _ => none

inductive Opening
  | flags (flags : Flags) (rest : List Char)
  | group (flags : Flags) (name : Option String) (rest : List Char)

/-- What an opening parenthesis begins. -/
def opening (flags : Flags) (text : List Char) : Option Opening :=
  match skip flags text with
  | '?' :: '=' :: _ => none
  | '?' :: '!' :: _ => none
  | '?' :: '<' :: '=' :: _ => none
  | '?' :: '<' :: '!' :: _ => none
  | '?' :: 'P' :: '<' :: rest => (groupName rest).map fun (name, rest) => .group flags name rest
  | '?' :: '<' :: rest => (groupName rest).map fun (name, rest) => .group flags name rest
  | '?' :: rest =>
    (flagItems [] rest flags).map fun (inner, closed, rest) =>
      if closed then .flags inner rest else .group inner none rest
  | text => some (.group flags none text)

def dot (flags : Flags) : Option Pattern :=
  if !flags.unicode then none
  else if flags.dotAll then some (.set CharSet.any)
  else if flags.returns then
    some (.set (.complement (.union (.single '\n') (.single '\r'))))
  else some (.set (.complement (.single '\n')))

def Atom.pattern (flags : Flags) : Atom → Pattern
  | .literal c => .set (fold flags (.single c))
  | .set chars => .set chars
  | .look assertion => .look assertion

/-- What has been read of a group: its finished alternatives and the pieces of the last one, both
latest first; flags leave a piece that cannot be repeated. -/
structure Progress where
  flags : Flags
  names : List String
  alternatives : List Pattern := []
  pieces : List (Option Pattern) := []

namespace Progress

def push (s : Progress) (p : Pattern) : Progress :=
  { s with pieces := some p :: s.pieces }

def current (s : Progress) : Pattern :=
  Pattern.ofList (s.pieces.reverse.filterMap id)

def finish (s : Progress) : Pattern :=
  Pattern.oneOf (s.current :: s.alternatives).reverse

/-- Repeats the last piece. -/
def repeated (s : Progress) (least : Nat) (most : Option Nat) : Option Progress :=
  match s.pieces with
  | some p :: rest => some { s with pieces := some (.rep p least most) :: rest }
  | _ => none

end Progress

/-- Reads up to the end of the text or a closing parenthesis. -/
def sequence : Nat → Progress → List Char → Option (Progress × List Char)
  | 0, _, _ => none
  | fuel + 1, s, text =>
    match skip s.flags text with
    | [] => some (s, [])
    | ')' :: rest => some (s, ')' :: rest)
    | '(' :: rest =>
      match opening s.flags rest with
      | none => none
      | some (.flags flags rest) =>
        sequence fuel { s with flags, pieces := none :: s.pieces } rest
      | some (.group flags name rest) =>
        if (name.map s.names.contains).getD false then none
        else
          match sequence fuel { flags, names := name.toList ++ s.names } rest with
          | some (inner, ')' :: rest) =>
            sequence fuel { s.push inner.finish with names := inner.names } rest
          | _ => none
    | '|' :: rest =>
      sequence fuel { s with alternatives := s.current :: s.alternatives, pieces := [] } rest
    | '[' :: rest => do
      let (chars, rest) ← bracket s.flags (rest.length + 1) rest
      sequence fuel (s.push (.set chars)) rest
    | '?' :: rest => do sequence fuel (← s.repeated 0 (some 1)) (skipLazy rest)
    | '*' :: rest => do sequence fuel (← s.repeated 0 none) (skipLazy rest)
    | '+' :: rest => do sequence fuel (← s.repeated 1 none) (skipLazy rest)
    | '{' :: rest => do
      let (least, most, rest) ← bounds s.flags rest
      sequence fuel (← s.repeated least most) (skipLazy (skip s.flags rest))
    | '\\' :: rest => do
      let (atom, rest) ← escape s.flags rest
      sequence fuel (s.push (atom.pattern s.flags)) rest
    | '.' :: rest => do sequence fuel (s.push (← dot s.flags)) rest
    | '^' :: rest =>
      let look := if s.flags.multiLine then Look.lineStart s.flags.returns else .textStart
      sequence fuel (s.push (.look look)) rest
    | '$' :: rest =>
      let look := if s.flags.multiLine then Look.lineEnd s.flags.returns else .textEnd
      sequence fuel (s.push (.look look)) rest
    | c :: rest => sequence fuel (s.push (Atom.pattern s.flags (.literal c))) rest

def bounded (p : Pattern) : Except PatternFault Pattern :=
  if weightLimit < p.weight then .error .tooLarge else .ok p

def ofText (text : String) : Except PatternFault Pattern :=
  let cs := text.toList
  match sequence (cs.length + 1) { flags := {}, names := [] } cs with
  | some (s, []) => bounded s.finish
  | _ => .error .malformed

/-- The pattern for an exact text. -/
def ofExact (text : String) : Except PatternFault Pattern :=
  bounded (exactly text)

end Pattern
end MqttGateway
