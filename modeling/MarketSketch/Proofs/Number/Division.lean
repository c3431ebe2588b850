import MarketSketch.Proofs.Number.Rounding
import MarketSketch.Proofs.Number.Packing

/-! Division of doubles is the nearest magnitude of the quotient: the machine's shifts and its two
roundings come to one rounding of one ratio. -/

namespace MarketSketch

open Float.Model Float.Model.UnpackedFloat

namespace Double

open Binary

/-- A quotient with the two bits that rounding needs. -/
def quotient (n d : Nat) : ExtendedMantissa :=
  .ofMantissaAndAccuracy (n / d) (accuracyOfFraction (n % d) d)

theorem quotient_eq (n : Nat) {d : Nat} (hd : 0 < d) : quotient n d =
    ⟨n / d, decide (d ≤ 2 * (n % d)), decide (n % d ≠ 0 ∧ 2 * (n % d) ≠ d)⟩ := by
  unfold quotient accuracyOfFraction
  by_cases hzero : n % d = 0
  · rw [if_pos hzero, ExtendedMantissa.ofMantissaAndAccuracy]
    simp [hzero, hd.ne']
  · rw [if_neg hzero]
    rcases Nat.lt_trichotomy (2 * (n % d)) d with h | h | h
    · rw [Nat.compare_eq_lt.mpr h, ExtendedMantissa.ofMantissaAndAccuracy]
      simp [hzero, h, Nat.ne_of_lt h]
    · rw [Nat.compare_eq_eq.mpr h, ExtendedMantissa.ofMantissaAndAccuracy]
      simp [h]
    · rw [Nat.compare_eq_gt.mpr h, ExtendedMantissa.ofMantissaAndAccuracy]
      simp [hzero, h.le, h.ne']

theorem shiftRightOne_quotient (n : Nat) {d : Nat} (hd : 0 < d) :
    (quotient n d).shiftRightOne = quotient n (d * 2) := by
  have hmod : n % (d * 2) = n % d + d * (n / d % 2) := Nat.mod_mul
  have hdiv : n / (d * 2) = n / d / 2 := (Nat.div_div_eq_div_mul n d 2).symm
  have hlt : n % d < d := Nat.mod_lt n hd
  rw [quotient_eq n hd, quotient_eq n (Nat.mul_pos hd (by decide)), ExtendedMantissa.shiftRightOne,
    hdiv, hmod]
  generalize n % d = r at hlt ⊢
  -- the bit that is shifted out tells which half of the doubled divisor the remainder is in
  rcases Nat.mod_two_eq_zero_or_one (n / d) with hbit | hbit
  · have hround : ¬ d * 2 ≤ 2 * r := by omega
    have hsticky : (decide (d ≤ 2 * r) || decide (r ≠ 0 ∧ 2 * r ≠ d)) =
        decide (r ≠ 0 ∧ 2 * r ≠ d * 2) := by
      rw [Bool.eq_iff_iff, Bool.or_eq_true, decide_eq_true_eq, decide_eq_true_eq, decide_eq_true_eq]
      omega
    simp only [hbit, Nat.mul_zero, Nat.add_zero, hround, hsticky, decide_false, bne_self_eq_false]
  · have hround : d * 2 ≤ 2 * (r + d) := by omega
    have hsticky : (decide (d ≤ 2 * r) || decide (r ≠ 0 ∧ 2 * r ≠ d)) =
        decide (r + d ≠ 0 ∧ 2 * (r + d) ≠ d * 2) := by
      rw [Bool.eq_iff_iff, Bool.or_eq_true, decide_eq_true_eq, decide_eq_true_eq, decide_eq_true_eq]
      omega
    simp only [hbit, Nat.mul_one, hround, hsticky, decide_true]
    rfl

theorem shiftRight_quotient (n : Nat) {d : Nat} (hd : 0 < d) (k : Nat) :
    quotient n d >>> k = quotient n (d * 2 ^ k) := by
  induction k with
  | zero => rw [Nat.pow_zero, Nat.mul_one]; rfl
  | succ k ih =>
    show (quotient n d >>> k).shiftRightOne = _
    rw [ih, shiftRightOne_quotient n (by positivity), Nat.pow_succ, Nat.mul_assoc]

theorem roundedMantissa_quotient (n : Nat) {d : Nat} (hd : 0 < d) :
    (quotient n d).roundedMantissa = roundedQuotient n d := by
  rw [quotient_eq n hd, ExtendedMantissa.roundedMantissa, roundedQuotient]
  rcases Nat.lt_trichotomy (2 * (n % d)) d with h | h | h
  · by_cases hzero : n % d = 0
    · simp [hzero, hd, hd.ne', ExtendedMantissa.accuracy, Accuracy.roundToNearestEven]
    · simp [hzero, h, Nat.ne_of_lt h, Nat.not_le.mpr h, ExtendedMantissa.accuracy,
        Accuracy.roundToNearestEven]
  · simp [h, ExtendedMantissa.accuracy, Accuracy.roundToNearestEven]
  · have hzero : n % d ≠ 0 := by omega
    simp [hzero, h, h.le, h.ne', Nat.lt_asymm h, ExtendedMantissa.accuracy,
      Accuracy.roundToNearestEven]

theorem targetExponent_eq (m : Nat) (e : Int) :
    Format.binary64.targetExponent (totalExponent m e) = max (-1074) (m.log2 + e - 52) := by
  have hbits : (Format.binary64.mantissaBits : Int) = 53 := rfl
  have hleast : Format.binary64.minExponent = -1074 := rfl
  rw [Format.targetExponent, totalExponent, hbits, hleast]
  omega

theorem log_quotient {n d : Nat} (hd : 0 < d) (h : d ≤ n) (e : Int) :
    Int.log 2 ((n : ℚ) / d * 2 ^ e) = (n / d).log2 + e := by
  have hd' : (0 : ℚ) < d := by exact_mod_cast hd
  have htwo : (0 : ℚ) < 2 ^ e := zpow_pos (by norm_num) e
  have hpos : n / d ≠ 0 := (Nat.div_pos h hd).ne'
  apply log_eq_of_bounds
  · rw [zpow_add₀ (by norm_num), zpow_natCast]
    refine mul_le_mul_of_nonneg_right ?_ htwo.le
    calc (2 : ℚ) ^ (n / d).log2 ≤ (n / d : Nat) := by exact_mod_cast Nat.log2_self_le hpos
      _ ≤ (n : ℚ) / d := Nat.cast_div_le
  · rw [add_right_comm, zpow_add₀ (by norm_num)]
    refine mul_lt_mul_of_pos_right ?_ htwo
    rw [div_lt_iff₀ hd']
    have hlt : n < 2 ^ ((n / d).log2 + 1) * d := (Nat.div_lt_iff_lt_mul hd).mp Nat.lt_log2_self
    exact_mod_cast hlt

theorem targetExponent_quotient {n d : Nat} (hn : 0 < n) (hd : 0 < d) {e : Int}
    (he : e ≤ place ((n : ℚ) / d * 2 ^ e)) :
    Format.binary64.targetExponent (totalExponent (n / d) e) = place ((n : ℚ) / d * 2 ^ e) := by
  have hd' : (0 : ℚ) < d := by exact_mod_cast hd
  have htwo : (0 : ℚ) < 2 ^ e := zpow_pos (by norm_num) e
  rw [targetExponent_eq]
  unfold place at he ⊢
  by_cases hlarge : d ≤ n
  · rw [log_quotient hd hlarge]
  · -- less than one last bit is left only at the least place
    have hzero : n / d = 0 := Nat.div_eq_of_lt (not_le.mp hlarge)
    have hsmall : (n : ℚ) / d * 2 ^ e < 2 ^ e := by
      refine mul_lt_of_lt_one_left htwo ?_
      rw [div_lt_one hd']
      exact_mod_cast not_le.mp hlarge
    have hlog : Int.log 2 ((n : ℚ) / d * 2 ^ e) < e :=
      (Int.lt_zpow_iff_log_lt (by decide) (by positivity)).mp (by exact_mod_cast hsmall)
    rw [hzero, Nat.log2_zero]
    omega

theorem shiftToTargetExponent_quotient {n d : Nat} (hn : 0 < n) (hd : 0 < d) {e : Int}
    (he : e ≤ place ((n : ℚ) / d * 2 ^ e)) :
    shiftToTargetExponent Format.binary64 (n / d) e (accuracyOfFraction (n % d) d) =
      (quotient n (d * 2 ^ (place ((n : ℚ) / d * 2 ^ e) - e).toNat),
        place ((n : ℚ) / d * 2 ^ e)) := by
  unfold shiftToTargetExponent shiftToExponent
  rw [targetExponent_quotient hn hd he]
  refine Prod.ext (shiftRight_quotient n hd _) ?_
  show e + ((place _ - e).toNat : Int) = place _
  omega

/-- A mantissa that has its place stays, and one that has become a bit too long moves up; the bits
in which both are packed are the same. -/
theorem shiftToTargetExponent_exact {m : Nat} {e : Int} (hm : m ≤ 2 ^ 53) (he : -1074 ≤ e)
    (hfull : 2 ^ 52 ≤ m ∨ e = -1074) {r : ExtendedMantissa × Int}
    (hr : shiftToTargetExponent Format.binary64 m e .exact = r) :
    Placed r.1.mantissa r.2 ∧
      (r.2 + 1074).toNat * 2 ^ 52 + r.1.mantissa = (e + 1074).toNat * 2 ^ 52 + m := by
  subst hr
  unfold shiftToTargetExponent shiftToExponent
  rw [targetExponent_eq]
  dsimp only
  rcases Nat.lt_or_eq_of_le hm with hlt | rfl
  · have hlog : m.log2 ≤ 52 := by
      rcases Nat.eq_zero_or_pos m with rfl | hpos
      · decide
      · exact Nat.lt_succ_iff.mp ((Nat.log2_lt hpos.ne').mpr hlt)
    have hnone : (max (-1074) (m.log2 + e - 52) - e).toNat = 0 := by omega
    rw [hnone, Nat.cast_zero, add_zero]
    exact ⟨⟨hlt, he, hfull⟩, rfl⟩
  · have hone : (max (-1074) ((2 ^ 53 : Nat).log2 + e - 52) - e).toNat = 1 := by
      rw [Nat.log2_two_pow]
      omega
    rw [hone, Nat.cast_one]
    refine ⟨⟨?_, by omega, .inl ?_⟩, ?_⟩
    · show 2 ^ 53 / 2 < 2 ^ 53
      norm_num
    · show 2 ^ 52 ≤ 2 ^ 53 / 2
      norm_num
    · show (e + 1 + 1074).toNat * 2 ^ 52 + 2 ^ 53 / 2 = (e + 1074).toNat * 2 ^ 52 + 2 ^ 53
      omega

theorem nearest_lt (n d : Nat) : double.nearest n d < 2 ^ 63 := by
  have hinfinity : double.infinity < 2 ^ 63 := by decide
  unfold nearest
  split
  · decide
  · exact (min_le_left _ _).trans_lt hinfinity

theorem ofModel_roundWithAccuracy (negative : Bool) {n d a b : Nat} (hn : 0 < n) (hd : 0 < d)
    (ha : 0 < a) (hb : 0 < b) {e : Int} (hvalue : (a : ℚ) / b * 2 ^ e = (n : ℚ) / d)
    (he : e ≤ place ((n : ℚ) / d)) :
    Float.ofModel (Float.Model.pack (roundWithAccuracy Format.binary64 (signOf negative) (a / b) e
      (accuracyOfFraction (a % b) b))) = ofMagnitude negative (double.nearest n d) := by
  have hfirst := shiftToTargetExponent_quotient ha hb (hvalue ▸ he)
  rw [hvalue] at hfirst
  obtain ⟨k, hk⟩ : ∃ k : Nat, place ((n : ℚ) / d) = e + k :=
    ⟨(place ((n : ℚ) / d) - e).toNat, by omega⟩
  -- the first shift puts the quotient at its place, and is rounded to what is kept there
  have hrounded : (quotient a (b * 2 ^ (place ((n : ℚ) / d) - e).toNat)).roundedMantissa =
      kept n d := by
    rw [roundedMantissa_quotient a (by positivity)]
    refine (kept_eq hd (by positivity) ?_).symm
    rw [← hvalue, hvalue, hk, add_sub_cancel_left, Int.toNat_natCast, ← hvalue,
      zpow_add₀ (by norm_num), zpow_natCast]
    push_cast
    field_simp
  have hleast : -1074 ≤ place ((n : ℚ) / d) := le_max_left _ _
  obtain ⟨hmost, hfull⟩ := kept_bounds hn hd
  -- the second shift moves up a mantissa that rounding has made too long
  obtain ⟨hplaced, hbits⟩ := shiftToTargetExponent_exact hmost hleast hfull rfl
  refine ofModel_pack (nearest_lt n d) ?_
  unfold roundWithAccuracy
  simp only [hfirst, hrounded]
  rw [toNat_pack_placed hplaced, toNat_signOf, nearest_eq hn hd, hbits]

theorem signOf_div (a b : Bool) : signOf a / signOf b = signOf (a != b) := by
  cases a <;> cases b <;> rfl

theorem totalExponent_bounds {m : Nat} (hm : 0 < m) (e : Int) :
    (2 : ℚ) ^ (totalExponent m e - 1) ≤ m * 2 ^ e ∧ (m : ℚ) * 2 ^ e < 2 ^ totalExponent m e := by
  have htwo : (0 : ℚ) < 2 ^ e := zpow_pos (by norm_num) e
  have hlow : (2 : ℚ) ^ m.log2 ≤ m := by exact_mod_cast Nat.log2_self_le hm.ne'
  have hhigh : (m : ℚ) < 2 ^ (m.log2 + 1) := by exact_mod_cast Nat.lt_log2_self
  have htotal : totalExponent m e = ((m.log2 + 1 : Nat) : Int) + e := by
    rw [totalExponent]
    omega
  constructor
  · rw [htotal, Nat.cast_succ, add_right_comm, add_sub_cancel_right, zpow_add₀ (by norm_num),
      zpow_natCast]
    exact mul_le_mul_of_nonneg_right hlow htwo.le
  · rw [htotal, zpow_add₀ (by norm_num), zpow_natCast]
    exact mul_lt_mul_of_pos_right hhigh htwo

theorem targetExponent_div_le {m m' : Nat} (hm : 0 < m) (hm' : 0 < m') (e e' : Int) :
    Format.binary64.targetExponent (totalExponent m e - totalExponent m' e') ≤
      place ((m * 2 ^ e) / (m' * 2 ^ e')) := by
  have hpos : (0 : ℚ) < m' * 2 ^ e' :=
    mul_pos (by exact_mod_cast hm') (zpow_pos (by norm_num) e')
  obtain ⟨hlow, -⟩ := totalExponent_bounds hm e
  obtain ⟨-, hhigh⟩ := totalExponent_bounds hm' e'
  have hquotient : (2 : ℚ) ^ (totalExponent m e - 1 - totalExponent m' e') ≤
      (m * 2 ^ e) / (m' * 2 ^ e') := by
    rw [zpow_sub₀ (by norm_num)]
    exact div_le_div₀ ((zpow_pos (by norm_num) _).le.trans hlow) hlow hpos hhigh.le
  have hlog := (Int.zpow_le_iff_le_log (b := 2) (by decide)
    ((zpow_pos (by norm_num) _).trans_le hquotient)).mp (by exact_mod_cast hquotient)
  have hbits : (Format.binary64.mantissaBits : Int) = 53 := rfl
  have hleast : Format.binary64.minExponent = -1074 := rfl
  rw [Format.targetExponent, hbits, hleast, place]
  omega

theorem div_eq_nearest {x y : Float} (hx : x.isFinite = true) (hy : y.isFinite = true)
    (hx0 : 0 < magnitude x) (hy0 : 0 < magnitude y) {n d : Nat} (hn : 0 < n) (hd : 0 < d)
    (h : (n : ℚ) / d = double.value (magnitude x) / double.value (magnitude y)) :
    x / y = ofMagnitude (isNegative x != isNegative y) (double.nearest n d) := by
  obtain ⟨hm, hux⟩ := unpack_of_finite hx hx0
  obtain ⟨hm', huy⟩ := unpack_of_finite hy hy0
  have hquotient : x / y = Float.ofModel (Float.Model.pack
      (UnpackedFloat.div Format.binary64 x.toModel.unpack y.toModel.unpack)) := rfl
  have hvalues : (n : ℚ) / d = (unpack x).1 * 2 ^ (unpack x).2 /
      ((unpack y).1 * 2 ^ (unpack y).2) := h
  rw [hquotient, hux, huy]
  generalize (unpack x).1 = m, (unpack x).2 = e, (unpack y).1 = m', (unpack y).2 = e'
    at hm hm' hvalues ⊢
  have hle := targetExponent_div_le hm hm' e e'
  rw [← hvalues] at hle
  simp only [UnpackedFloat.div, divCore, signOf_div, Nat.shiftLeft_eq]
  -- the dividend is shifted until the place of the quotient is reached
  generalize hp : min (e - e') _ = p
  obtain ⟨k, hk⟩ : ∃ k : Nat, e - e' = p + k := ⟨(e - e' - p).toNat, by omega⟩
  have hple : p ≤ place ((n : ℚ) / d) := hp ▸ (min_le_right _ _).trans hle
  refine ofModel_roundWithAccuracy _ hn hd (by positivity) hm' ?_ hple
  have he : e = e' + p + k := by omega
  rw [hvalues, hk, add_sub_cancel_left, Int.toNat_natCast, he, zpow_add₀ (by norm_num),
    zpow_add₀ (by norm_num), zpow_natCast]
  push_cast
  have hm0 : (m' : ℚ) ≠ 0 := by exact_mod_cast hm'.ne'
  have htwo : (2 : ℚ) ^ e' ≠ 0 := (zpow_pos (by norm_num) e').ne'
  field_simp

end Double

end MarketSketch
