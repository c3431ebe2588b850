import MarketSketch.Number.Double

/-!
The numbers that chart geometry is computed with. The overlay runs on floating-point numbers; the
same formulas over the rationals are what they mean exactly.
-/

namespace MarketSketch

class Scalar (α : Type) extends Add α, Sub α, Mul α, Div α, Zero α, One α where
  /-- The number stands for a point of the line. -/
  finite : α → Bool
  below : α → α → Bool
  atMost : α → α → Bool
  lesser : α → α → α
  greater : α → α → α
  /-- The vector of two components is not longer than a bound. -/
  reaches : α → α → α → Bool

instance : Scalar Float where
  zero := Double.ofNat 0
  one := Double.ofNat 1
  finite := Float.isFinite
  below x y := x < y
  atMost x y := x ≤ y
  lesser := Double.lesser
  greater := Double.greater
  reaches dx dy bound := Double.length dx dy ≤ bound

instance : Scalar Rat where
  zero := 0
  one := 1
  finite _ := true
  below := Rat.blt
  atMost x y := !y.blt x
  lesser x y := if y.blt x then y else x
  greater x y := if y.blt x then x else y
  reaches dx dy bound := !bound.blt 0 && !(bound * bound).blt (dx * dx + dy * dy)

namespace Scalar

variable {α : Type} [Scalar α]

def clamp (low high x : α) : α :=
  let x := if below x low then low else x
  if below high x then high else x

def within (low high x : α) : Bool := atMost low x && atMost x high

end Scalar

end MarketSketch
