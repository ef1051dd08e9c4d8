import Mathlib.Algebra.Order.Floor.Defs
import Mathlib.Data.Rat.Floor
import Mathlib.Algebra.Order.Field.Rat

/-!
# The arithmetic of `float`

The firmware computes with `float`.  Its functions are modelled over any type
with the operations of C's `float` (`CFloat`), and are then read twice: over
`Float32`, whose operations are IEEE 754 binary32 with round-to-nearest-even,
and over `ℚ`, where the same functions are exact.  What is proved for every
`CFloat` uses no law of arithmetic and so holds for both.

The operators `+`, `<`, … on a `CFloat` are low-priority instances, so that at
`ℚ` and at `Float32` the instances of the library are found first.
-/

class CFloat (F : Type) where
  add : F → F → F
  sub : F → F → F
  mul : F → F → F
  div : F → F → F
  neg : F → F
  lt : F → F → Prop
  le : F → F → Prop
  decLt : ∀ a b, Decidable (lt a b)
  decLe : ∀ a b, Decidable (le a b)
  /-- C's `==`. -/
  eq : F → F → Bool
  fabs : F → F
  ofInt : Int → F
  /-- A decimal literal, rounded to the nearest `float`. -/
  ofScientific : Nat → Bool → Nat → F
  /-- `static_cast<uint32_t>`: the fraction is dropped.  Undefined in C for a
      value that no `uint32_t` holds. -/
  toUInt32 : F → Nat

namespace CFloat

variable {F : Type} [CFloat F]

instance (priority := low) instAdd : Add F := ⟨CFloat.add⟩
instance (priority := low) instSub : Sub F := ⟨CFloat.sub⟩
instance (priority := low) instMul : Mul F := ⟨CFloat.mul⟩
instance (priority := low) instDiv : Div F := ⟨CFloat.div⟩
instance (priority := low) instNeg : Neg F := ⟨CFloat.neg⟩
instance (priority := low) instLT : LT F := ⟨CFloat.lt⟩
instance (priority := low) instLE : LE F := ⟨CFloat.le⟩
instance (priority := low) instDecidableLT (a b : F) : Decidable (a < b) := CFloat.decLt a b
instance (priority := low) instDecidableLE (a b : F) : Decidable (a ≤ b) := CFloat.decLe a b
instance (priority := low) instOfScientific : OfScientific F := ⟨CFloat.ofScientific⟩
instance (priority := low) instOfNat (n : Nat) : OfNat F n := ⟨CFloat.ofInt n⟩

/-- Exact arithmetic. -/
instance exact : CFloat ℚ where
  add a b := a + b
  sub a b := a - b
  mul a b := a * b
  div a b := a / b
  neg a := -a
  lt a b := a < b
  le a b := a ≤ b
  decLt a b := inferInstanceAs (Decidable (a < b))
  decLe a b := inferInstanceAs (Decidable (a ≤ b))
  eq a b := decide (a = b)
  fabs a := |a|
  ofInt n := n
  ofScientific m s e := OfScientific.ofScientific m s e
  toUInt32 a := ⌊a⌋.toNat

/-- IEEE 754 binary32. -/
instance binary32 : CFloat Float32 where
  add a b := a + b
  sub a b := a - b
  mul a b := a * b
  div a b := a / b
  neg a := -a
  lt a b := a < b
  le a b := a ≤ b
  decLt a b := inferInstanceAs (Decidable (a < b))
  decLe a b := inferInstanceAs (Decidable (a ≤ b))
  eq a b := a == b
  fabs a := a.abs
  ofInt n := Float32.ofModel (Float32.Model.ofInt n)
  ofScientific m s e := OfScientific.ofScientific m s e
  toUInt32 a := a.toUInt32.toNat

end CFloat
