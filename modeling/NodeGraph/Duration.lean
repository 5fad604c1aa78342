/-!
# Durations from floating-point seconds

A `Duration` counts whole nanoseconds. Seconds given as a binary floating-point
number are an exact fraction; the duration is the nearest whole number of
nanoseconds to it, a tie going to the even one. All arithmetic is on natural
numbers, so nothing is rounded twice.
-/

namespace NodeGraph

/-- A span of time in nanoseconds. -/
structure Duration where
  nanoseconds : Nat
deriving DecidableEq, Repr

namespace Duration

/-- Nanoseconds in a second. -/
def perSecond : Nat := 1000000000

/-- The whole seconds of a span. -/
def seconds (d : Duration) : Nat := d.nanoseconds / perSecond

/-- The nanoseconds beyond the whole seconds. -/
def subsecond (d : Duration) : Nat := d.nanoseconds % perSecond

/-- Why a number of seconds is no duration. -/
inductive Fault where
  /-- The number is below zero. -/
  | negative
  /-- The seconds need more than 64 bits, or the number is none at all. -/
  | tooLarge
deriving DecidableEq, Repr

/-- The wording of a fault. -/
def Fault.message : Fault → String
  | .negative => "cannot convert float seconds to Duration: value is negative"
  | .tooLarge => "cannot convert float seconds to Duration: value is either too big or NaN"

/-- The whole number nearest to `num / den`; of two that are equally near, the
even one. -/
def nearest (num den : Nat) : Nat :=
  let whole := num / den
  let twice := 2 * (num % den)
  if twice < den then whole
  else if den < twice then whole + 1
  else if whole % 2 = 0 then whole
  else whole + 1

/-- What the 64 bits of a floating-point number say. -/
inductive Binary where
  /-- No number. -/
  | none
  /-- Beyond all finite numbers. -/
  | infinite (negative : Bool)
  /-- `significand * 2 ^ (exponent - 1075)`, with a sign that zero has as well. -/
  | finite (negative : Bool) (significand exponent : Nat)
deriving DecidableEq, Repr

/-- Splits the bits into sign, exponent and significand. -/
def Binary.ofBits (bits : UInt64) : Binary :=
  let n := bits.toNat
  let negative := n.testBit 63
  let exponent := (n >>> 52) % 2048
  let fraction := n % (1 <<< 52)
  if exponent = 2047 then
    if fraction = 0 then .infinite negative else .none
  else if exponent = 0 then .finite negative fraction 1
  else .finite negative ((1 <<< 52) + fraction) exponent

/-- The duration nearest to an exact number of seconds. Both zeros are zero
seconds; a number is too large when its whole seconds need more than 64 bits. -/
def ofBinary : Binary → Except Fault Duration
  | .none => .error .tooLarge
  | .infinite negative => .error (if negative then .negative else .tooLarge)
  | .finite negative significand exponent =>
    if significand = 0 then .ok ⟨0⟩
    else if negative then .error .negative
    else
      let num := significand <<< exponent
      let den := 1 <<< 1075
      if den <<< 64 ≤ num then .error .tooLarge
      else .ok ⟨nearest (num * perSecond) den⟩

/-- The duration nearest to a number of seconds. -/
def ofSeconds (seconds : Float) : Except Fault Duration :=
  ofBinary (.ofBits seconds.toBits)

end Duration

end NodeGraph
