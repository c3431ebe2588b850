import MarketSketch.Number.Binary

/-!
Conversions of floating-point numbers, all computed exactly and rounded once: from decimals, whole
numbers and ratios, to whole numbers, between the two widths, and the length of a vector.
-/

namespace MarketSketch

namespace Double

def ofMagnitude (negative : Bool) (bits : Nat) : Float :=
  Float.ofBits (UInt64.ofNat (if negative then bits + 0x8000000000000000 else bits))

def magnitude (x : Float) : Nat := x.toBits.toNat % 0x8000000000000000

def isNegative (x : Float) : Bool := 0x8000000000000000 ≤ x.toBits.toNat

def unpack (x : Float) : Nat × Int := Binary.double.unpack (magnitude x)

def infinity : Float := ofMagnitude false Binary.double.infinity

def nan : Float := Float.ofBits 0x7FF8000000000000

def ofDecimal (negative : Bool) (d : Decimal) : Float :=
  ofMagnitude negative (Binary.double.nearestDecimal d)

def ofNat (n : Nat) : Float := ofMagnitude false (Binary.double.nearest n 1)

def ofInt (n : Int) : Float := ofMagnitude (n < 0) (Binary.double.nearest n.natAbs 1)

def floor (x : Float) : Int :=
  let (m, q) := unpack x
  let (n, d) := Binary.ratio m q
  if isNegative x then -(((n + (d - 1)) / d : Nat) : Int) else ((n / d : Nat) : Int)

def wholePart (x : Float) : Nat :=
  let (m, q) := unpack x
  let (n, d) := Binary.ratio m q
  n / d

/-- The larger of two finite or infinite numbers; of a number and no number, the number. Of the two
zeros, which are equal, it is the second one given. -/
def greater (x y : Float) : Float := if x.isNaN || x ≤ y then y else x

/-- The smaller of two finite or infinite numbers; of a number and no number, the number. Of the two
zeros, which are equal, it is the second one given. -/
def lesser (x y : Float) : Float := if x.isNaN || y ≤ x then y else x

def sqrtScaled (n : Nat) (q : Int) : Float :=
  let k := if 0x100000000000000000000000000000000 ≤ n then 0 else 64
  let s := wholeSqrt (n * Nat.pow 4 k)
  let marked := if s * s = n * Nat.pow 4 k then 2 * s else 2 * s + 1
  let (a, b) := Binary.ratio marked (q - (k + 1 : Nat))
  ofMagnitude false (Binary.double.nearest a b)

def length (x y : Float) : Float :=
  if x.isInf || y.isInf then infinity
  else if x.isNaN || y.isNaN then nan
  else
    let (m, p) := unpack x
    let (n, q) := unpack y
    let least := min p q
    let a := m * Nat.pow 2 (p - least).toNat
    let b := n * Nat.pow 2 (q - least).toNat
    sqrtScaled (a * a + b * b) least

end Double

namespace Single

def ofMagnitude (negative : Bool) (bits : Nat) : Float32 :=
  Float32.ofBits (UInt32.ofNat (if negative then bits + 0x80000000 else bits))

def magnitude (x : Float32) : Nat := x.toBits.toNat % 0x80000000

def isNegative (x : Float32) : Bool := 0x80000000 ≤ x.toBits.toNat

def nan : Float32 := Float32.ofBits 0x7FC00000

def infinity : Float32 := ofMagnitude false Binary.single.infinity

def ofDecimal (negative : Bool) (d : Decimal) : Float32 :=
  ofMagnitude negative (Binary.single.nearestDecimal d)

def ofNat (n : Nat) : Float32 := ofMagnitude false (Binary.single.nearest n 1)

def ofInt (n : Int) : Float32 := ofMagnitude (n < 0) (Binary.single.nearest n.natAbs 1)

def ofDouble (x : Float) : Float32 :=
  if x.isNaN then nan
  else if x.isInf then ofMagnitude (Double.isNegative x) Binary.single.infinity
  else
    let (m, q) := Double.unpack x
    let (n, d) := Binary.ratio m q
    ofMagnitude (Double.isNegative x) (Binary.single.nearest n d)

def clamped (x : Float32) : Float32 :=
  let one := ofNat 1
  if x < ofNat 0 then ofNat 0 else if one < x then one else x

def rounded (x : Float32) : Nat :=
  if x.isNaN || isNegative x then 0
  else
    let (m, q) := Binary.single.unpack (magnitude x)
    let (n, d) := Binary.ratio m q
    (2 * n + d) / (2 * d)

end Single

end MarketSketch
