import MarketSketch.Number.Decimal

/-!
Binary floating-point formats, in exact arithmetic on natural numbers. A magnitude is the bit
pattern without the sign; `Binary.unpack` reads it as `m * 2 ^ q` and `Binary.nearest` gives the
magnitude nearest to a ratio, ties going to the even one.
-/

namespace MarketSketch

/-- A format by the width of its significand, the exponent of its least magnitude and the bit
pattern of infinity. -/
structure Binary where
  precision : Nat
  least : Int
  infinity : Nat
deriving DecidableEq, Repr

namespace Binary

def double : Binary := ⟨53, -1074, 0x7FF0000000000000⟩

def single : Binary := ⟨24, -149, 0x7F800000⟩

/-- The value `m * 2 ^ q` of a finite magnitude. -/
def unpack (f : Binary) (bits : Nat) : Nat × Int :=
  let hidden := Nat.pow 2 (f.precision - 1)
  let field := bits / hidden
  if field = 0 then (bits, f.least) else (bits % hidden + hidden, f.least + (field - 1 : Nat))

def ratio (m : Nat) (q : Int) : Nat × Nat :=
  if 0 ≤ q then (m * Nat.pow 2 q.toNat, 1) else (m, Nat.pow 2 (-q).toNat)

end Binary

def roundedQuotient (n d : Nat) : Nat :=
  let q := n / d
  let r := n % d
  if 2 * r < d then q else if d < 2 * r then q + 1 else q + q % 2

def floorLog (n d : Nat) : Int :=
  let k : Int := (n.log2 : Int) - d.log2
  let reached := if 0 ≤ k then d * Nat.pow 2 k.toNat ≤ n else d ≤ n * Nat.pow 2 (-k).toNat
  if reached then k else k - 1

namespace Binary

/-- The magnitude nearest to `n / d`; beyond the greatest finite one it is infinity. -/
def nearest (f : Binary) (n d : Nat) : Nat :=
  if n = 0 then 0
  else
    let e := max f.least (floorLog n d - (f.precision - 1 : Nat))
    let m := if 0 ≤ e then roundedQuotient n (d * Nat.pow 2 e.toNat)
      else roundedQuotient (n * Nat.pow 2 (-e).toNat) d
    min f.infinity ((e - f.least).toNat * Nat.pow 2 (f.precision - 1) + m)

/-- The magnitude nearest to a decimal. Decimals far outside every format's range are answered
without computing their powers of ten. -/
def nearestDecimal (f : Binary) (d : Decimal) : Nat :=
  if d.coefficient = 0 then 0
  else if 400 < d.leading then f.infinity
  else if d.leading < -400 then 0
  else f.nearest d.ratio.1 d.ratio.2

end Binary

def wholeSqrt (n : Nat) : Nat :=
  if h : n = 0 then 0
  else
    let r := 2 * wholeSqrt (n / 4)
    if (r + 1) * (r + 1) ≤ n then r + 1 else r
termination_by n
decreasing_by omega

end MarketSketch
