import MqttGateway.Json.Basic
/-!
# Reading JSON

The reader takes the whole of a text. Blanks are the space, the tab, the line feed and the carriage
return; a number has no superfluous zero, no lone point and no plus sign in front; a string holds no
control character.
-/
namespace MqttGateway.Json

/-- The value read and, unless reading stopped, the text after it. -/
abbrev Read := Json × Except Fault (List Char)

def isBlank (c : Char) : Bool :=
  c == ' ' || c == '\n' || c == '\t' || c == '\r'

def skip (text : List Char) : List Char :=
  text.dropWhile isBlank

def hexValue? (c : Char) : Option Nat :=
  if c.isDigit then some (c.toNat - 48)
  else if 'a' ≤ c ∧ c ≤ 'f' then some (c.toNat - 87)
  else if 'A' ≤ c ∧ c ≤ 'F' then some (c.toNat - 55)
  else none

def hex4 : List Char → Except Fault (Nat × List Char)
  | a :: b :: c :: d :: rest =>
    match hexValue? a, hexValue? b, hexValue? c, hexValue? d with
    | some a, some b, some c, some d => .ok (((a * 16 + b) * 16 + c) * 16 + d, rest)
    | _, _, _, _ => .error .syntaxError
  | _ => .error .endOfText

def simpleEscape? : Char → Option Char
  | '"' => some '"'
  | '\\' => some '\\'
  | '/' => some '/'
  | 'b' => some '\x08'
  | 'f' => some '\x0c'
  | 'n' => some '\n'
  | 'r' => some '\r'
  | 't' => some '\t'
  | _ => none

def isHigh (n : Nat) : Bool :=
  0xD800 ≤ n && n < 0xDC00

def isLow (n : Nat) : Bool :=
  0xDC00 ≤ n && n < 0xE000

/-- The second escape of a surrogate pair, if the text goes on with one. -/
def lowHalf? : List Char → Option (Nat × List Char)
  | '\\' :: 'u' :: rest => match hex4 rest with
    | .ok (n, rest) => if isLow n then some (n, rest) else none
    | .error _ => none
  | _ => none

/-- The characters of a string after its opening quote, and whether every surrogate has its pair. -/
def characters : Nat → List Char → Bool → List Char → Except Fault (List Char × Bool × List Char)
  | 0, _, _, _ => .error .endOfText
  | fuel + 1, acc, paired, text =>
    match text with
    | [] => .error .endOfText
    | '"' :: rest => .ok (acc.reverse, paired, rest)
    | ['\\'] => .error .endOfText
    | '\\' :: 'u' :: rest => do
      let (n, rest) ← hex4 rest
      if isHigh n then
        match lowHalf? rest with
        | some (low, rest) =>
          characters fuel (Char.ofNat ((n - 0xD800) * 0x400 + (low - 0xDC00) + 0x10000) :: acc)
            paired rest
        | none => characters fuel acc false rest
      else if isLow n then characters fuel acc false rest
      else characters fuel (Char.ofNat n :: acc) paired rest
    | '\\' :: c :: rest =>
      match simpleEscape? c with
      | some c => characters fuel (c :: acc) paired rest
      | none => .error .syntaxError
    | c :: rest =>
      if c.toNat < 0x20 then .error .syntaxError else characters fuel (c :: acc) paired rest

def stringBody (text : List Char) : Except Fault (List Char × Bool × List Char) :=
  characters (text.length + 1) [] true text

def naturalOf (digits : List Char) : Nat :=
  digits.foldl (fun n c => n * 10 + (c.toNat - 48)) 0

/-- The least magnitude that is rounded beyond the largest double. -/
def overflow : Nat := Nat.pow 2 1024 - Nat.pow 2 970

/-- Whether `mantissa · 10 ^ exponent` is within the range of a double. -/
def inRange (mantissa : Nat) (exponent : Int) : Bool :=
  if mantissa = 0 ∨ exponent < 0 ∧ exponent.natAbs > (Nat.toDigits 10 mantissa).length + 1 then true
  else if 400 < exponent then false
  else if 0 ≤ exponent then mantissa * Nat.pow 10 exponent.toNat < overflow
  else mantissa < overflow * Nat.pow 10 exponent.natAbs

/-- Digits, at least one of them. -/
def digits1 (text : List Char) : Except Fault (List Char × List Char) :=
  match text with
  | [] => .error .endOfText
  | c :: _ => if c.isDigit then .ok (text.span Char.isDigit) else .error .syntaxError

def whole : List Char → Except Fault (List Char × List Char)
  | [] => .error .endOfText
  | '0' :: c :: rest => if c.isDigit then .error .syntaxError else .ok (['0'], c :: rest)
  | text => digits1 text

def fraction : List Char → Except Fault (List Char × List Char)
  | '.' :: rest => digits1 rest
  | text => .ok ([], text)

/-- The exponent, if there is one. -/
def exponent : List Char → Except Fault (Option Int × List Char)
  | c :: rest =>
    if c = 'e' ∨ c = 'E' then do
      let (negative, rest) := match rest with
        | '+' :: rest => (false, rest)
        | '-' :: rest => (true, rest)
        | rest => (false, rest)
      let (digits, rest) ← digits1 rest
      let n : Int := naturalOf digits
      return (some (if negative then -n else n), rest)
    else .ok (none, c :: rest)
  | [] => .ok (none, [])

/-- The number read from the given parts, none of which has a sign but the exponent. -/
def ofParts (negative : Bool) (integer decimals : List Char) (power : Option Int)
    (text : List Char) : Json :=
  let mantissa := naturalOf (integer ++ decimals)
  let float := Json.float (String.ofList (if negative then '-' :: text else text))
  if decimals.isEmpty ∧ power.isNone then
    if overflow ≤ mantissa then float false
    else if negative then if mantissa = 0 then float true else .number (-mantissa)
    else .number mantissa
  else float (inRange mantissa (power.getD 0 - decimals.length))

def parts (negative : Bool) (text : List Char) : Except Fault (Json × List Char) := do
  let (integer, rest) ← whole text
  let (decimals, rest) ← fraction rest
  let (power, rest) ← exponent rest
  return (ofParts negative integer decimals power (text.take (text.length - rest.length)), rest)

def numeral (negative : Bool) (text : List Char) : Read :=
  match parts negative text with
  | .ok (value, rest) => (value, .ok rest)
  | .error fault => (.broken fault, .error fault)

/-- The rest of a fixed word. -/
def word (value : Json) : (expected text : List Char) → Read
  | [], rest => (value, .ok rest)
  | _ :: _, [] => (.broken .endOfText, .error .endOfText)
  | e :: expected, c :: rest =>
    if e = c then word value expected rest else (.broken .syntaxError, .error .syntaxError)

mutual

def value : Nat → List Char → Read
  | 0, _ => (.broken .endOfText, .error .endOfText)
  | fuel + 1, text =>
    match skip text with
    | [] => (.broken .endOfText, .error .endOfText)
    | 'n' :: rest => word .null ['u', 'l', 'l'] rest
    | 't' :: rest => word (.bool true) ['r', 'u', 'e'] rest
    | 'f' :: rest => word (.bool false) ['a', 'l', 's', 'e'] rest
    | '-' :: rest => numeral true rest
    | '"' :: rest =>
      match stringBody rest with
      | .ok (cs, paired, rest) =>
        (if paired then .string (String.ofList cs) else .unpaired, .ok rest)
      | .error fault => (.broken fault, .error fault)
    | '[' :: rest =>
      let (items, stop) := items fuel true rest
      match stop with
      | .ok rest => (.array items none, .ok rest)
      | .error fault => (.array items (some fault), .error fault)
    | '{' :: rest =>
      let (members, stop) := members fuel true rest
      match stop with
      | .ok rest => (.object members none, .ok rest)
      | .error fault => (.object members (some fault), .error fault)
    | c :: rest =>
      if c.isDigit then numeral false (c :: rest) else (.broken .syntaxError, .error .syntaxError)

/-- The items of an array up to its end, `first` if none has been read. -/
def items : Nat → Bool → List Char → List Json × Except Fault (List Char)
  | 0, _, _ => ([], .error .endOfText)
  | fuel + 1, first, text =>
    match skip text with
    | [] => ([], .error .endOfText)
    | ']' :: rest => ([], .ok rest)
    | c :: rest =>
      let next := if first then some (c :: rest) else if c = ',' then some (skip rest) else none
      match next with
      | none => ([], .error .syntaxError)
      | some text =>
        if !first && text.head? == some ']' then ([], .error .syntaxError)
        else
          match value fuel text with
          | (item, .error fault) => ([item], .error fault)
          | (item, .ok rest) =>
            let (items, stop) := items fuel false rest
            (item :: items, stop)

/-- The members of an object up to its end, `first` if none has been read. -/
def members : Nat → Bool → List Char → List (String × Json) × Except Fault (List Char)
  | 0, _, _ => ([], .error .endOfText)
  | fuel + 1, first, text =>
    match skip text with
    | [] => ([], .error .endOfText)
    | '}' :: rest => ([], .ok rest)
    | c :: rest =>
      let next := if first then some (c :: rest) else if c = ',' then some (skip rest) else none
      match next with
      | none => ([], .error .syntaxError)
      | some [] => ([], .error .endOfText)
      | some ('"' :: rest) =>
        match stringBody rest with
        | .error fault => ([], .error fault)
        | .ok (_, false, _) => ([], .error .syntaxError)
        | .ok (key, true, rest) =>
          let key := String.ofList key
          match skip rest with
          | [] => ([(key, .broken .endOfText)], .error .endOfText)
          | ':' :: rest =>
            match value fuel rest with
            | (item, .error fault) => ([(key, item)], .error fault)
            | (item, .ok rest) =>
              let (members, stop) := members fuel false rest
              ((key, item) :: members, stop)
          | _ => ([(key, .broken .syntaxError)], .error .syntaxError)
      | some _ => ([], .error .syntaxError)

end

/-- Reads one value and tells whether anything but blanks follows it. -/
def read (text : String) : Json × Option Fault :=
  let cs := text.toList
  match value (cs.length + 1) cs with
  | (v, .error fault) => (v, some fault)
  | (v, .ok rest) => (v, if (skip rest).isEmpty then none else some .syntaxError)

end MqttGateway.Json
