/-!
# Decimal text of 64-bit integers

A signed 64-bit integer is written as an optional sign and decimal digits. The
reader goes through the digits from the left and stops at the first thing it
cannot accept: a character that is no digit, or a digit that takes the value
out of range. Which of the two is reported therefore depends on which comes
first, not on the whole text.
-/

namespace NodeGraph.Decimal

/-- Why a text is no 64-bit integer. -/
inductive Fault where
  /-- There is nothing to read. -/
  | empty
  /-- A character that is no digit, or a sign without digits. -/
  | invalidDigit
  /-- The value exceeds the largest integer. -/
  | tooLarge
  /-- The value is below the smallest integer. -/
  | tooSmall
deriving DecidableEq, Repr

/-- The wording of a fault. -/
def Fault.message : Fault → String
  | .empty => "cannot parse integer from empty string"
  | .invalidDigit => "invalid digit found in string"
  | .tooLarge => "number too large to fit in target type"
  | .tooSmall => "number too small to fit in target type"

/-- The largest 64-bit integer. -/
def largest : Int := 9223372036854775807

/-- The smallest 64-bit integer. -/
def smallest : Int := -9223372036854775808

/-- Whether an integer has a 64-bit form. -/
def inRange (n : Int) : Bool := smallest ≤ n && n ≤ largest

/-- The value of an ASCII digit. -/
def digit? (c : Char) : Option Nat :=
  if '0' ≤ c ∧ c ≤ '9' then some (c.toNat - '0'.toNat) else none

/-- Reads the digits after a plus sign or no sign, `value` being read already. -/
def readUp (value : Int) : List Char → Except Fault Int
  | [] => .ok value
  | c :: cs =>
    match digit? c with
    | none => .error .invalidDigit
    | some d =>
      if value * 10 + d ≤ largest then readUp (value * 10 + d) cs else .error .tooLarge

/-- Reads the digits after a minus sign, `value` being read already. -/
def readDown (value : Int) : List Char → Except Fault Int
  | [] => .ok value
  | c :: cs =>
    match digit? c with
    | none => .error .invalidDigit
    | some d =>
      if smallest ≤ value * 10 - d then readDown (value * 10 - d) cs else .error .tooSmall

/-- Reads a whole text. -/
def readChars : List Char → Except Fault Int
  | [] => .error .empty
  | ['+'] => .error .invalidDigit
  | ['-'] => .error .invalidDigit
  | '+' :: cs => readUp 0 cs
  | '-' :: cs => readDown 0 cs
  | cs => readUp 0 cs

/-- The 64-bit integer that a text writes. -/
def read (s : String) : Except Fault Int64 :=
  (readChars s.toList).map Int64.ofInt

/-- The decimal text of a 64-bit integer: no sign before a natural number, and
no leading zeros. -/
def write (n : Int64) : String := toString n.toInt

end NodeGraph.Decimal
