import Mathlib.Data.Int.Basic

/-!
# The arithmetic of `int`

Sums and remainders of C's `int`, of 32 bits.  A result that no `int` holds is undefined in
C, and is none here; so a computation that is some is one whose every step is defined.
-/

namespace CInt

def INT_MIN : Int := -2147483648
def INT_MAX : Int := 2147483647

/-- The value, if an `int` holds it. -/
def fit (n : Int) : Option Int := if INT_MIN ≤ n ∧ n ≤ INT_MAX then some n else none

def add (a b : Int) : Option Int := fit (a + b)
def sub (a b : Int) : Option Int := fit (a - b)
def mul (a b : Int) : Option Int := fit (a * b)

/-- C's `%`, which rounds the quotient toward 0. -/
def rem (a b : Int) : Option Int :=
  if b = 0 ∨ a = INT_MIN ∧ b = -1 then none else some (a.tmod b)

theorem fit_eq_some {n : Int} (hlow : INT_MIN ≤ n) (hhigh : n ≤ INT_MAX) : fit n = some n :=
  if_pos ⟨hlow, hhigh⟩

theorem fit_eq_none {n : Int} (h : INT_MAX < n) : fit n = none :=
  if_neg fun hfit => absurd hfit.2 (Int.not_le.mpr h)

/-- What is not negative fits exactly up to `INT_MAX`. -/
theorem fit_of_nonneg {n : Int} (h : 0 ≤ n) : fit n = if n ≤ INT_MAX then some n else none := by
  have hlow : INT_MIN ≤ n := Int.le_trans (by decide) h
  split_ifs with hhigh
  · exact fit_eq_some hlow hhigh
  · exact fit_eq_none (Int.not_le.mp hhigh)

theorem rem_of_nonneg {a b : Int} (ha : 0 ≤ a) (hb : 0 < b) : rem a b = some (a % b) := by
  have hdefined : ¬ (b = 0 ∨ a = INT_MIN ∧ b = -1) := by
    rintro (rfl | ⟨-, rfl⟩)
    · exact absurd hb (by decide)
    · exact absurd hb (by decide)
  rw [rem, if_neg hdefined, Int.tmod_eq_emod_of_nonneg ha]

end CInt
