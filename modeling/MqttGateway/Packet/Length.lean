import MqttGateway.Octets
/-!
# Remaining length

The number of octets that follow a frame's header, written seven bits to an octet with the least
significant group first. The upper bit of an octet tells that another follows; four octets are
the most there may be. Leading zero groups are read, but never written.
-/
namespace MqttGateway.RemainingLength

def limit : Nat := 268435455

/-- The number of octets that the written form of `n` takes, if `n` can be written. -/
def width? (n : Nat) : Option Nat :=
  if n ≤ 127 then some 1
  else if n ≤ 16383 then some 2
  else if n ≤ 2097151 then some 3
  else if n ≤ limit then some 4
  else none

def encode (n : Nat) : Octets :=
  if n < 128 then [UInt8.ofNat n]
  else UInt8.ofNat (n % 128 + 128) :: encode (n / 128)
  termination_by n

inductive Reading
  | done (length : Nat) (rest : Octets)
  | short
  | overlong

/-- Reads at most `groups` further groups, the next one weighing `weight`. -/
def readGroups : (groups weight sum : Nat) → Octets → Reading
  | 0, _, _, _ => .overlong
  | _ + 1, _, _, [] => .short
  | groups + 1, weight, sum, b :: rest =>
    let sum := sum + b.toNat % 128 * weight
    if b.toNat < 128 then .done sum rest else readGroups groups (weight * 128) sum rest

def read (bs : Octets) : Reading :=
  readGroups 4 1 0 bs

/-- Where the body of a frame starts in its data and how long it is declared to be. -/
inductive Extent
  | whole (start length : Nat)
  | short
  | overlong
  deriving DecidableEq, Repr

/-- Looks at the octet of the length at `place`, and at most at the next `groups` with it, once those
in front of it have given `sum`. The data must hold all that is declared. -/
def extentFrom (data : Octets) : (groups place sum : Nat) → Extent
  | 0, _, _ => .overlong
  | groups + 1, place, sum =>
    match data[place + 1]? with
    | none => .short
    | some b =>
      let sum := sum + ((b.toNat % 128) <<< (7 * place))
      if b.toNat < 128 then
        if data.length < place + 2 + sum then .short else .whole (place + 2) sum
      else extentFrom data groups (place + 1) sum

/-- The extent of the frame at the start of the data. -/
def extent (data : Octets) : Extent :=
  extentFrom data 4 0 0

/-- The octets up to and with the first whose upper bit is clear. -/
def groups (bs : Octets) : Octets :=
  bs.take ((bs.takeWhile fun b => 128 ≤ b.toNat).length + 1)

theorem groups_append_rest {g w s n : Nat} {bs rest : Octets}
    (h : readGroups g w s bs = .done n rest) : groups bs ++ rest = bs := by
  induction bs generalizing g w s with
  | nil => cases g <;> simp [readGroups] at h
  | cons b bs ih =>
    cases g with
    | zero => simp [readGroups] at h
    | succ g =>
      rw [readGroups] at h
      by_cases hb : b.toNat < 128
      · simp only [hb, if_true, Reading.done.injEq] at h
        simp [groups, hb, h.2]
      · simp only [hb, if_false] at h
        simpa [groups, Nat.not_lt.mp hb] using ih h

end MqttGateway.RemainingLength
