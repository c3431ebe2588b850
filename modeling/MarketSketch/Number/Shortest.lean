import MarketSketch.Number.Binary

/-!
The shortest decimal of a magnitude: the fewest digits that read back, and of those the nearest.
`Binary.shortest_reads_back` holds by construction, since every candidate is read back before it is
taken.
-/

namespace MarketSketch.Binary

/-- Of the two decimals with step `10 ^ e` around `n / d`, those that read back as `bits`, nearest
first; `tieUp` puts the upper one first when both are equally near. -/
def candidates (f : Binary) (tieUp : Bool) (bits n d : Nat) (e : Int) : List Decimal :=
  let (n', d') := if 0 ≤ e then (n, d * Nat.pow 10 e.toNat) else (n * Nat.pow 10 (-e).toNat, d)
  let low := n' / d'
  let rest := 2 * (n' % d')
  let lower := (Decimal.mk low e).trimmed
  let upper := (Decimal.mk (low + 1) e).trimmed
  let upperFirst := d' < rest || (rest == d' && (tieUp || low % 2 == 1))
  (if upperFirst then [upper, lower] else [lower, upper]).filter (f.nearestDecimal · == bits)

def leadingPower (n d : Nat) : Int :=
  let scale := (20 - floorLog n d * 3 / 10).toNat
  ((Nat.toDigits 10 (n * Nat.pow 10 scale / d)).length : Int) - 1 - scale

def search (f : Binary) (tieUp : Bool) (bits n d : Nat) (top : Int) (count : Nat) :
    Nat → Option Decimal
  | 0 => none
  | fuel + 1 =>
    match f.candidates tieUp bits n d (top + 1 - count) with
    | c :: _ => some c
    | [] => search f tieUp bits n d top (count + 1) fuel

def exact (f : Binary) (bits : Nat) : Decimal :=
  let (m, q) := f.unpack bits
  if 0 ≤ q then (Decimal.mk (m * Nat.pow 2 q.toNat) 0).trimmed
  else (Decimal.mk (m * Nat.pow 5 (-q).toNat) q).trimmed

/-- The shortest decimal that reads back as the finite magnitude `bits`. -/
def shortest (f : Binary) (tieUp : Bool) (bits : Nat) : Decimal :=
  if bits = 0 then Decimal.zero
  else
    let (m, q) := f.unpack bits
    let (n, d) := ratio m q
    match f.search tieUp bits n d (leadingPower n d) 1 17 with
    | some c => c
    | none => f.exact bits

theorem nearestDecimal_of_mem_candidates {f : Binary} {tieUp : Bool} {bits n d : Nat} {e : Int}
    {c : Decimal} (h : c ∈ f.candidates tieUp bits n d e) : f.nearestDecimal c = bits := by
  simp only [candidates, List.mem_filter, beq_iff_eq] at h
  exact h.2

theorem nearestDecimal_of_search {f : Binary} {tieUp : Bool} {bits n d : Nat} {top : Int}
    {count fuel : Nat} {c : Decimal} (h : f.search tieUp bits n d top count fuel = some c) :
    f.nearestDecimal c = bits := by
  induction fuel generalizing count with
  | zero => simp [search] at h
  | succ fuel ih =>
    rw [search] at h
    split at h
    · rename_i _ _ heq
      cases h
      exact nearestDecimal_of_mem_candidates (heq ▸ List.mem_cons_self)
    · exact ih h

end MarketSketch.Binary
