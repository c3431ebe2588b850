/-!
Decimals: a coefficient times a power of ten, without a sign. `Decimal.trimmed` gives every value
one form, in which the coefficient does not end in a zero.
-/

namespace MarketSketch

/-- The number `coefficient * 10 ^ exponent`. -/
structure Decimal where
  coefficient : Nat
  exponent : Int
deriving DecidableEq, Repr

namespace Decimal

def zero : Decimal := ⟨0, 0⟩

def trim (n : Nat) (e : Int) : Decimal :=
  if h : n ≠ 0 ∧ n % 10 = 0 then trim (n / 10) (e + 1) else ⟨n, e⟩
termination_by n
decreasing_by omega

def trimmed (d : Decimal) : Decimal :=
  if d.coefficient = 0 then zero else trim d.coefficient d.exponent

def digits (d : Decimal) : List Char := Nat.toDigits 10 d.coefficient

def leading (d : Decimal) : Int := d.digits.length - 1 + d.exponent

def ratio (d : Decimal) : Nat × Nat :=
  if 0 ≤ d.exponent then (d.coefficient * Nat.pow 10 d.exponent.toNat, 1)
  else (d.coefficient, Nat.pow 10 (-d.exponent).toNat)

theorem trim_of_not (n : Nat) (e : Int) (h : n % 10 ≠ 0) : trim n e = ⟨n, e⟩ := by
  rw [trim, dif_neg (fun hn => h hn.2)]

end Decimal

def isDigit (c : Char) : Bool := '0' ≤ c && c ≤ '9'

def spelled (digits : List Char) : Nat :=
  digits.foldl (fun n c => 10 * n + (c.toNat - '0'.toNat)) 0

def hexValue? (c : Char) : Option Nat :=
  if '0' ≤ c ∧ c ≤ '9' then some (c.toNat - '0'.toNat)
  else if 'a' ≤ c ∧ c ≤ 'f' then some (c.toNat - 'a'.toNat + 10)
  else if 'A' ≤ c ∧ c ≤ 'F' then some (c.toNat - 'A'.toNat + 10)
  else none

end MarketSketch
