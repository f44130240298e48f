import MqttGateway.Octets
/-!
# Moments

Points in time as seconds since the start of 1970, in the calendar that repeats after 400 years.
-/
namespace MqttGateway

abbrev Moment := Int

namespace Moment

def isLeap (year : Nat) : Bool :=
  year % 4 == 0 && (year % 100 != 0 || year % 400 == 0)

def daysInMonth (year month : Nat) : Nat :=
  match month with
  | 2 => if isLeap year then 29 else 28
  | 4 | 6 | 9 | 11 => 30
  | _ => 31

/-- Days from the start of year zero to the start of a year. -/
def daysBeforeYear (year : Nat) : Nat :=
  365 * year + (year + 3) / 4 - (year + 99) / 100 + (year + 399) / 400

def daysBeforeMonth (year month : Nat) : Nat :=
  (List.range (month - 1)).foldl (fun n m => n + daysInMonth year (m + 1)) 0

/-- The moment of a date and a time of day, if there is such a date. -/
def ofCivil? (year month day hour minute second : Nat) : Option Moment :=
  if 1 ≤ month ∧ month ≤ 12 ∧ 1 ≤ day ∧ day ≤ daysInMonth year month then
    let days : Int := daysBeforeYear year + daysBeforeMonth year month + (day - 1)
    some ((days - daysBeforeYear 1970) * 86400 + ((hour * 60 + minute) * 60 + second : Nat))
  else none

/-- The year that a day, counted from the start of year zero, lies in. -/
def yearOf (day : Nat) : Nat :=
  let guess := day / 366
  guess + ((List.range (day / 365 + 1 - guess)).filter fun i =>
    daysBeforeYear (guess + i + 1) ≤ day).length

def monthOf (year dayOfYear : Nat) : Nat :=
  1 + ((List.range 11).filter fun i => daysBeforeMonth year (i + 2) ≤ dayOfYear).length

def padded (width n : Nat) : String :=
  let s := toString n
  String.ofList (List.replicate (width - s.length) '0') ++ s

/-- Year, month, day and time of day, which come in this order and are separated as usual. -/
def civilText (t : Moment) : String :=
  let seconds := (t + 86400 * (daysBeforeYear 1970 : Int)).toNat
  let day := seconds / 86400
  let year := yearOf day
  let dayOfYear := day - daysBeforeYear year
  let month := monthOf year dayOfYear
  let second := seconds % 86400
  padded 4 year ++ "-" ++ padded 2 month ++ "-" ++
    padded 2 (dayOfYear - daysBeforeMonth year month + 1) ++ " " ++ padded 2 (second / 3600) ++
    ":" ++ padded 2 (second / 60 % 60) ++ ":" ++ padded 2 (second % 60)

end Moment

/-- A moment and the milliseconds that have passed since. -/
structure Instant where
  moment : Moment
  milliseconds : Nat := 0
  deriving DecidableEq, Repr

def Instant.render (t : Instant) : String :=
  let fraction := if t.milliseconds = 0 then "" else "." ++ Moment.padded 3 t.milliseconds
  t.moment.civilText ++ fraction ++ " UTC"

end MqttGateway
