import NodeGraph.Message.Addition
import NodeGraph.Text.Decimal

/-!
# Checked addition

Sums are of 64-bit integers and never wrap around: where the exact sum has no
64-bit form there is no sum.
-/

namespace NodeGraph

/-- Two integers and what somebody says their sum is. -/
structure Equation where
  a : Int64
  b : Int64
  sum : Int64
deriving DecidableEq, Repr

/-- The text of an equation. -/
def Equation.toText (e : Equation) : String :=
  Decimal.write e.a ++ " + " ++ Decimal.write e.b ++ " = " ++ Decimal.write e.sum

namespace Addition

/-- The name under which addition is offered and looked for. -/
def serviceName : String := "add_two_ints"

/-- The sum of two integers, or why there is none. -/
def add (a b : Int64) : Except String Int64 :=
  let sum := a.toInt + b.toInt
  if Decimal.inRange sum then .ok (Int64.ofInt sum)
  else .error (Decimal.write a ++ " + " ++ Decimal.write b ++ " overflows int64")

end Addition

end NodeGraph
