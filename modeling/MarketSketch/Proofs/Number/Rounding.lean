import MarketSketch.Proofs.Number.Nearest
import Mathlib

/-! Where a double keeps the last bit of a number, and what it keeps of it. Both depend on the
number alone, and `Binary.nearest` puts them together. -/

namespace MarketSketch

section Quotients

theorem roundedQuotient_mul_right (n : Nat) {d k : Nat} (hk : 0 < k) :
    roundedQuotient (n * k) (d * k) = roundedQuotient n d := by
  have hlow : 2 * (n % d * k) < d * k ↔ 2 * (n % d) < d := by
    rw [← Nat.mul_assoc, Nat.mul_lt_mul_right hk]
  have hhigh : d * k < 2 * (n % d * k) ↔ d < 2 * (n % d) := by
    rw [← Nat.mul_assoc, Nat.mul_lt_mul_right hk]
  unfold roundedQuotient
  simp only [Nat.mul_div_mul_right n d hk, Nat.mul_mod_mul_right, hlow, hhigh]

theorem roundedQuotient_congr {n d n' d' : Nat} (hd : 0 < d) (hd' : 0 < d')
    (h : (n : ℚ) / d = (n' : ℚ) / d') : roundedQuotient n d = roundedQuotient n' d' := by
  have hcross : n * d' = n' * d := by
    rw [div_eq_div_iff (by exact_mod_cast hd.ne') (by exact_mod_cast hd'.ne')] at h
    exact_mod_cast h
  calc roundedQuotient n d
      = roundedQuotient (n * d') (d * d') := (roundedQuotient_mul_right n hd').symm
    _ = roundedQuotient (n' * d) (d' * d) := by rw [hcross, Nat.mul_comm d d']
    _ = roundedQuotient n' d' := roundedQuotient_mul_right n' hd

theorem roundedQuotient_bounds (n d : Nat) :
    n / d ≤ roundedQuotient n d ∧ roundedQuotient n d ≤ n / d + 1 := by
  unfold roundedQuotient
  dsimp only
  split
  · omega
  · split <;> omega

theorem roundedQuotient_le {n d b : Nat} (hd : 0 < d) (h : n < b * d) :
    roundedQuotient n d ≤ b := by
  have hdiv : n / d < b := (Nat.div_lt_iff_lt_mul hd).mpr h
  have hbounds := roundedQuotient_bounds n d
  omega

theorem le_roundedQuotient {n d a : Nat} (hd : 0 < d) (h : a * d ≤ n) : a ≤ roundedQuotient n d :=
  ((Nat.le_div_iff_mul_le hd).mpr h).trans (roundedQuotient_bounds n d).1

theorem roundedQuotient_lt {n d b : Nat} (hd : 0 < d) (h : 2 * n + d < 2 * b * d) :
    roundedQuotient n d < b := by
  have hdiv := Nat.div_add_mod n d
  have hmod := Nat.mod_lt n hd
  unfold roundedQuotient
  dsimp only
  generalize n / d = q at hdiv ⊢
  generalize n % d = r at hdiv hmod ⊢
  have hbelow (h : d * q < d * b) : q < b := Nat.lt_of_mul_lt_mul_left h
  have habove (h : d * (q + 1) < d * b) : q + 1 < b := Nat.lt_of_mul_lt_mul_left h
  have hb : 2 * b * d = 2 * (d * b) := by ring
  rw [Nat.mul_add_one] at habove
  split
  · exact hbelow (by omega)
  · have hnext := habove (by omega)
    split <;> omega

theorem roundedQuotient_div_pow (n : Nat) {d k : Nat} (hd : 0 < d) (h : d < 2 ^ (k + 1)) :
    roundedQuotient (n * 2 ^ k) d / 2 ^ k = n / d := by
  have hwhole : n / d * d ≤ n := Nat.div_mul_le_self n d
  have hnext : n + 1 ≤ (n / d + 1) * d := Nat.lt_mul_of_div_lt (Nat.lt_succ_self _) hd
  rw [Nat.pow_succ] at h
  refine Nat.div_eq_of_lt_le (le_roundedQuotient hd ?_) (roundedQuotient_lt hd ?_)
  · rw [Nat.mul_right_comm]
    exact Nat.mul_le_mul_right _ hwhole
  · -- the next whole number is a `d`th away, which is more than half of the last bit
    have hscaled := Nat.mul_le_mul_right (2 ^ k) hnext
    rw [Nat.add_mul, Nat.one_mul, Nat.mul_right_comm] at hscaled
    have hcomm : 2 * ((n / d + 1) * 2 ^ k) * d = 2 * ((n / d + 1) * 2 ^ k * d) :=
      Nat.mul_assoc _ _ _
    omega

end Quotients

namespace Binary

variable {n d : Nat}

def place (x : ℚ) : Int := max (-1074) (Int.log 2 x - 52)

/-- What is kept of a number at its place. -/
def kept (n d : Nat) : Nat :=
  if 0 ≤ place ((n : ℚ) / d) then roundedQuotient n (d * 2 ^ (place ((n : ℚ) / d)).toNat)
  else roundedQuotient (n * 2 ^ (-place ((n : ℚ) / d)).toNat) d

theorem nearest_eq (hn : 0 < n) (hd : 0 < d) : double.nearest n d =
    min double.infinity ((place ((n : ℚ) / d) + 1074).toNat * 2 ^ 52 + kept n d) := by
  unfold nearest
  rw [if_neg hn.ne', floorLog_eq_log hn hd]
  have hplace : max double.least (Int.log 2 ((n : ℚ) / d) - (double.precision - 1 : Nat)) =
      place ((n : ℚ) / d) := rfl
  simp only [hplace]
  rfl

theorem exists_kept (hd : 0 < d) : ∃ n' d' : Nat, 0 < d' ∧
    (n' : ℚ) / d' = (n : ℚ) / d / 2 ^ place ((n : ℚ) / d) ∧ kept n d = roundedQuotient n' d' := by
  have hd0 : (d : ℚ) ≠ 0 := by exact_mod_cast hd.ne'
  unfold kept
  generalize place ((n : ℚ) / d) = e
  split
  · rename_i he
    obtain ⟨k, rfl⟩ := Int.eq_ofNat_of_zero_le he
    refine ⟨n, d * 2 ^ k, by positivity, ?_, rfl⟩
    rw [zpow_natCast]
    push_cast
    field_simp
  · rename_i he
    obtain ⟨k, rfl⟩ : ∃ k : Nat, e = -k := ⟨(-e).toNat, by omega⟩
    refine ⟨n * 2 ^ k, d, hd, ?_, by rw [neg_neg, Int.toNat_natCast]⟩
    rw [zpow_neg, zpow_natCast]
    push_cast
    field_simp

theorem kept_eq (hd : 0 < d) {n' d' : Nat} (hd' : 0 < d')
    (h : (n' : ℚ) / d' = (n : ℚ) / d / 2 ^ place ((n : ℚ) / d)) :
    kept n d = roundedQuotient n' d' := by
  obtain ⟨a, b, hb, hvalue, hkept⟩ := exists_kept (n := n) hd
  rw [hkept]
  exact roundedQuotient_congr hb hd' (hvalue.trans h.symm)

theorem place_bounds {x : ℚ} (hx : 0 < x) :
    x < 2 ^ 53 * 2 ^ place x ∧ (2 ^ 52 * 2 ^ place x ≤ x ∨ place x = -1074) := by
  have two (k j : Int) : (2 : ℚ) ^ k * 2 ^ j = 2 ^ (k + j) := (zpow_add₀ (by norm_num) k j).symm
  have hlow : (2 : ℚ) ^ Int.log 2 x ≤ x := Int.zpow_log_le_self (by decide) hx
  have hhigh : x < (2 : ℚ) ^ (Int.log 2 x + 1) := Int.lt_zpow_succ_log_self (by decide) x
  constructor
  · refine hhigh.trans_le ?_
    rw [show (2 : ℚ) ^ 53 = 2 ^ (53 : Int) by norm_cast, two]
    refine zpow_le_zpow_right₀ (by norm_num) ?_
    unfold place
    omega
  · by_cases hplace : place x = -1074
    · exact .inr hplace
    · have hlog : 52 + place x = Int.log 2 x := by
        unfold place at hplace ⊢
        omega
      rw [show (2 : ℚ) ^ 52 = 2 ^ (52 : Int) by norm_cast, two, hlog]
      exact .inl hlow

theorem kept_bounds (hn : 0 < n) (hd : 0 < d) :
    kept n d ≤ 2 ^ 53 ∧ (2 ^ 52 ≤ kept n d ∨ place ((n : ℚ) / d) = -1074) := by
  have hx : (0 : ℚ) < (n : ℚ) / d := by positivity
  obtain ⟨a, b, hb, hvalue, hkept⟩ := exists_kept (n := n) hd
  obtain ⟨hhigh, hlow⟩ := place_bounds hx
  have hb' : (0 : ℚ) < b := by exact_mod_cast hb
  generalize place ((n : ℚ) / d) = e at hvalue hhigh hlow ⊢
  have hplace : (0 : ℚ) < 2 ^ e := zpow_pos (by norm_num) e
  rw [eq_div_iff hplace.ne'] at hvalue
  rw [← hvalue, mul_lt_mul_iff_left₀ hplace, div_lt_iff₀ hb'] at hhigh
  rw [hkept]
  refine ⟨roundedQuotient_le hb (by exact_mod_cast hhigh), hlow.imp_left fun hlow => ?_⟩
  rw [← hvalue, mul_le_mul_iff_left₀ hplace, le_div_iff₀ hb'] at hlow
  exact le_roundedQuotient hb (by exact_mod_cast hlow)

theorem kept_of_multiple (hd : 0 < d) {m : Nat}
    (h : (n : ℚ) / d = m * 2 ^ place ((n : ℚ) / d)) : kept n d = m := by
  have htwo : (2 : ℚ) ^ place ((n : ℚ) / d) ≠ 0 := (zpow_pos (by norm_num) _).ne'
  have hone : ((m * 1 : Nat) : ℚ) / (1 : Nat) = (n : ℚ) / d / 2 ^ place ((n : ℚ) / d) := by
    rw [eq_div_iff htwo, Nat.mul_one, Nat.cast_one, div_one]
    exact h.symm
  rw [kept_eq hd Nat.one_pos hone, roundedQuotient_mul Nat.one_pos]

end Binary

end MarketSketch
