import MqttGateway.Der.Basic
import MqttGateway.Moment
/-!
# Encoded times

Times are decimal digits followed by a time zone: those of one form have two digits for the year, of
the other four. In the first form the seconds may be missing. In the second they are always given,
perhaps with up to three digits of a fraction, and the zone is `Z`.
-/
namespace MqttGateway.Der

def digitValue? (b : UInt8) : Option Nat :=
  if 0x30 ≤ b ∧ b ≤ 0x39 then some (b.toNat - 0x30) else none

/-- Numbers of two digits each at the start of the octets, as many as asked for. -/
def pairs : Nat → Octets → Option (List Nat × Octets)
  | 0, bs => some ([], bs)
  | n + 1, a :: b :: rest => do
    let tens ← digitValue? a
    let ones ← digitValue? b
    let (ns, rest) ← pairs n rest
    return ((10 * tens + ones) :: ns, rest)
  | _, _ => none

/-- A time as it is written. The date need not exist. -/
structure Civil where
  year : Nat
  month : Nat
  day : Nat
  hour : Nat
  minute : Nat
  second : Nat
  milliseconds : Nat
  deriving DecidableEq, Repr

def civil? (year milliseconds : Nat) : List Nat → Option Civil
  | [month, day, hour, minute, second] =>
    if 23 < hour ∨ 59 < minute ∨ 59 < second then none
    else some { year, month, day, hour, minute, second, milliseconds }
  | _ => none

def Civil.moment? (t : Civil) : Option Moment :=
  Moment.ofCivil? t.year t.month t.day t.hour t.minute t.second

def Civil.instant? (t : Civil) : Option Instant :=
  t.moment?.map fun moment => { moment, milliseconds := t.milliseconds }

/-- The distance of a time zone from the usual one in seconds. -/
def zone? : Octets → Option Int
  | [0x5A] => some 0
  | sign :: rest => do
    match ← pairs 2 rest with
    | ([hours, minutes], []) =>
      if 25 < hours ∨ 59 < minutes then none
      else if sign = 0x2B then some (3600 * hours + 60 * minutes)
      else if sign = 0x2D then some (-(3600 * hours + 60 * minutes))
      else none
    | _ => none
  | [] => none

/-- A time with its zone. Only `Z` can follow the minutes at once; years below 50 belong to this
century. -/
def shortTime? (content : Octets) : Option Moment := do
  let (first, rest) ← pairs 5 content
  let (seconds, rest) ← if rest.length < 2 then some ([0], rest) else pairs 1 rest
  match first with
  | year :: fields =>
    let t ← civil? (if year < 50 then 2000 + year else 1900 + year) 0 (fields ++ seconds)
    return (← t.moment?) - (← zone? rest)
  | [] => none

/-- The milliseconds that the octets after the seconds stand for. -/
def fraction? : Octets → Option Nat
  | [0x5A] => some 0
  | 0x2E :: rest =>
    let digits := rest.filterMap digitValue?
    if digits.length ≤ 3 ∧ rest.drop digits.length = [0x5A] then
      some ((digits ++ List.replicate (3 - digits.length) 0).foldl (fun n d => 10 * n + d) 0)
    else none
  | _ => none

def longCivil? (content : Octets) : Option Civil := do
  match ← pairs 7 content with
  | (century :: year :: rest, after) => civil? (100 * century + year) (← fraction? after) rest
  | _ => none

def longTime? (content : Octets) : Option Moment := do
  (← longCivil? content).moment?

def timeOf {α : Type} (read : Octets → Option α) (content : Octets) : Reader α :=
  match read content with
  | some t => pure t
  | none => refuse

def generalizedTime : Reader Civil := do
  timeOf longCivil? (← primitive Tag.generalizedTime)

/-- A time in either form. -/
def time : Reader Moment := do
  let e ← element
  if e.header.constructed then refuse
  else if e.header.tag = Tag.utcTime then timeOf shortTime? e.content
  else if e.header.tag = Tag.generalizedTime then timeOf longTime? e.content
  else refuse

end MqttGateway.Der
