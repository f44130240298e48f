import MqttGateway.Pattern.CharSet
/-!
# Patterns

Regular expressions over characters. A pattern is searched for anywhere in a text. The search reads
the text once and keeps the patterns that could still be completed; what is left of a pattern once
it has consumed a character is one of its residuals. An assertion consumes nothing and looks at the
characters on both sides of its place.
-/
namespace MqttGateway

/-- Assertions about the place between two characters. -/
inductive Look
  | textStart | textEnd
  | lineStart (returns : Bool) | lineEnd (returns : Bool)
  | boundary (unicode : Bool) | notBoundary (unicode : Bool)
  | wordStart (unicode : Bool) | wordEnd (unicode : Bool)
  | halfStart (unicode : Bool) | halfEnd (unicode : Bool)
  deriving DecidableEq, Repr

inductive Pattern
  | empty
  | set (chars : CharSet)
  | look (assertion : Look)
  | seq (first second : Pattern)
  | alt (first second : Pattern)
  /-- At least `least` and at most `most` times, if there is a bound. -/
  | rep (inner : Pattern) (least : Nat) (most : Option Nat)
  deriving DecidableEq, Repr

namespace Look

def isWord (unicode : Bool) : Option Char → Bool
  | some c => (if unicode then CharSet.word else CharSet.asciiWord).mem c
  | none => false

/-- Whether the assertion holds between the given neighbours; `none` is an end of the text. -/
def holds (before after : Option Char) : Look → Bool
  | .textStart => before.isNone
  | .textEnd => after.isNone
  | .lineStart false => before.isNone || before == some '\n'
  | .lineEnd false => after.isNone || after == some '\n'
  | .lineStart true =>
    before.isNone || before == some '\n' || (before == some '\r' && after != some '\n')
  | .lineEnd true =>
    after.isNone || after == some '\r' || (after == some '\n' && before != some '\r')
  | .boundary u => isWord u before != isWord u after
  | .notBoundary u => isWord u before == isWord u after
  | .wordStart u => !isWord u before && isWord u after
  | .wordEnd u => isWord u before && !isWord u after
  | .halfStart u => !isWord u before
  | .halfEnd u => !isWord u after

end Look

namespace Pattern

def ofList : List Pattern → Pattern
  | [] => .empty
  | [p] => p
  | p :: ps => .seq p (ofList ps)

def oneOf : List Pattern → Pattern
  | [] => .empty
  | [p] => p
  | p :: ps => .alt p (oneOf ps)

/-- Whether the pattern matches the empty text between the given neighbours. -/
def nullable (before after : Option Char) : Pattern → Bool
  | .empty => true
  | .set _ => false
  | .look assertion => assertion.holds before after
  | .seq p q => nullable before after p && nullable before after q
  | .alt p q => nullable before after p || nullable before after q
  | .rep p least _ => least == 0 || nullable before after p

/-- The concatenation of two patterns without an empty first part. -/
def andThen : Pattern → Pattern → Pattern
  | .empty, q => q
  | p, q => .seq p q

/-- What can follow `c` in a match that starts with it, `before` being the character in front. -/
def residuals (before : Option Char) (c : Char) : Pattern → List Pattern
  | .empty => []
  | .set chars => if chars.mem c then [.empty] else []
  | .look _ => []
  | .seq p q =>
    let through := (residuals before c p).map (·.andThen q)
    if nullable before (some c) p then through ++ residuals before c q else through
  | .alt p q => residuals before c p ++ residuals before c q
  | .rep p least most =>
    if most = some 0 then []
    else
      let least := if nullable before (some c) p then 0 else least - 1
      (residuals before c p).map (·.andThen (.rep p least (most.map (· - 1))))

/-- Whether one of `live`, or a match of `p` that starts here or later, is completed. -/
def find (p : Pattern) (before : Option Char) (live : List Pattern) : List Char → Bool
  | [] => (p :: live).any (nullable before none)
  | c :: cs =>
    let live := (p :: live).eraseDups
    live.any (nullable before (some c)) ||
      find p (some c) (live.flatMap (residuals before c)) cs

def isFoundIn (p : Pattern) (text : String) : Bool :=
  find p none [] text.toList

/-- The pattern found in the given text and in no other. -/
def exactly (text : String) : Pattern :=
  .seq (.look .textStart)
    (text.toList.foldr (fun c p => .seq (.set (.single c)) p) (.look .textEnd))

/-- Whether the pattern matches no text but the empty one. -/
def consumesNothing : Pattern → Bool
  | .empty => true
  | .set _ => false
  | .look _ => true
  | .seq p q => consumesNothing p && consumesNothing q
  | .alt p q => consumesNothing p && consumesNothing q
  | .rep p _ most => most == some 0 || consumesNothing p

/-- An estimate of the octets that a table for a set of characters takes. -/
def setWeight : CharSet → Nat
  | .range lo hi =>
    if hi < 0x80 then 32
    else if lo = hi then if hi < 0x800 then 64 else if hi < 0x10000 then 96 else 128
    else 400
  | .category _ => 6000
  | .word => 16000
  | .space => 400
  | .none => 32
  | .union a b => 8 + setWeight a + setWeight b
  | .inter a b => setWeight a + setWeight b
  | .complement a => 400 + setWeight a
  | .anyCase a => 32 + setWeight a
  | .anyCaseAscii a => 16 + setWeight a

/-- An estimate of the octets that a pattern takes with every repetition written out. -/
def weight : Pattern → Nat
  | .empty => 32
  | .set chars => setWeight chars
  | .look _ => 32
  | .seq p q => weight p + weight q
  | .alt p q => 48 + weight p + weight q
  | .rep p least most =>
    if consumesNothing p then weight p + 48
    else match most with
      | some n => n * weight p + (n - least) * 48
      | none => max least 1 * weight p + 48

/-- The greatest weight a pattern may have. -/
def weightLimit : Nat := 10 * Nat.pow 2 20

end Pattern
end MqttGateway
