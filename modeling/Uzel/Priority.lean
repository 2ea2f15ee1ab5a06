import Mathlib.Algebra.Ring.Int.Defs
import Uzel.Msg

/-! # Priorities of the sessions of a channel (`priority.h`)

The translator between a priority and the text that stands for it in a property tree.
`std::from_chars` reads the longest prefix that is an integer and fails when there is none or when
its value is not an `int`; the rest of the text is not looked at.
-/

namespace Uzel

open Foundation

inductive Priority where
  | undefined | low | high | control
deriving DecidableEq, Repr

namespace Priority

/-- The declared values of the enumeration, of type `uint16_t`. -/
def toIntegral : Priority → Nat
  | undefined => 255
  | low => 0
  | high => 10
  | control => 11

/-- The search through the declared values, in their order. -/
def fromIntegralNothrow (value : Nat) : Option Priority :=
  [undefined, low, high, control].find? fun priority => priority.toIntegral == value

/-- `std::from_chars` for an `int` in base ten. -/
def fromChars (text : List Char) : Option Int :=
  let negative := text.head? == some '-'
  let digits := (if negative then text.tail else text).takeWhile Char.isDigit
  let magnitude : Int := digits.foldl (fun value digit => value * 10 + (digit.toNat - 48)) 0
  let value := if negative then -magnitude else magnitude
  if digits = [] then none
  else if -2 ^ 31 ≤ value ∧ value < 2 ^ 31 then some value
  else none

/-- The `int` is narrowed to the underlying type of the enumeration before it is looked up. -/
def getValue (text : String) : Option Priority :=
  (fromChars text.toList).bind fun value => fromIntegralNothrow (value % 2 ^ 16).toNat

def putValue (priority : Priority) : String := toString priority.toIntegral

/-- `body.get<Priority>("priority", Priority::undefined)` -/
def ofBody (body : PTree) : Priority :=
  match body.find "priority" with
  | some child => (getValue child.data).getD undefined
  | none => undefined

/-- The body of a priority message. -/
def toBody (priority : Priority) : PTree := PTree.empty.add "priority" priority.putValue

theorem getValue_putValue (priority : Priority) : getValue priority.putValue = some priority := by
  cases priority <;> decide

@[simp] theorem ofBody_toBody (priority : Priority) : ofBody priority.toBody = priority := by
  have found : priority.toBody.find "priority" = some (.leaf priority.putValue) := by
    simp [toBody, PTree.add, PTree.empty, PTree.find]
  simp [ofBody, found, getValue_putValue]

end Priority

end Uzel
