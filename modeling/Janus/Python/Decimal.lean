import Mathlib.Algebra.Group.Int.Defs
import Mathlib.Algebra.Group.Nat.Defs
import Mathlib.Data.Rat.Defs
import Mathlib.Data.Nat.Log
import Mathlib.Data.Int.Basic

/-!
# Decimals

A `Decimal` is a coefficient times a power of ten. A product is rounded half-even to the 28 digits
of the default context, as the documentation of `decimal` says.
-/

set_option autoImplicit false

namespace Python

structure Decimal where
  coefficient : Int
  exponent : Int
deriving DecidableEq, Repr

namespace Decimal

def ofInt (n : Int) : Decimal := ⟨n, 0⟩

/-- The precision of the default context. -/
def precision : Nat := 28

def digits (n : Nat) : Nat := Nat.log 10 n + 1

/-- A quotient to the nearest integer, a tie to the even one. -/
def divHalfEven (n d : Nat) : Nat :=
  if 2 * (n % d) < d ∨ 2 * (n % d) = d ∧ n / d % 2 = 0 then n / d else n / d + 1

/-- The coefficient cut to the precision. -/
def round (x : Decimal) : Decimal :=
  let surplus := digits x.coefficient.natAbs - precision
  if surplus = 0 then x
  else ⟨x.coefficient.sign * divHalfEven x.coefficient.natAbs (10 ^ surplus), x.exponent + surplus⟩

def mul (x y : Decimal) : Decimal := round ⟨x.coefficient * y.coefficient, x.exponent + y.exponent⟩

/-- `int`: towards zero. -/
def toInt (x : Decimal) : Int :=
  if 0 ≤ x.exponent then x.coefficient * 10 ^ x.exponent.toNat
  else x.coefficient.tdiv (10 ^ (-x.exponent).toNat)

/-- The number, for comparisons. -/
def toRat (x : Decimal) : Rat := x.coefficient * 10 ^ x.exponent

end Decimal

end Python
