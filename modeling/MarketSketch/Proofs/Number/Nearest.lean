import MarketSketch.Number.Shortest
import MarketSketch.Proofs.Number.Decimal

/-! Magnitudes as rational numbers. Rounding depends on the number alone, not on the ratio that
gives it, and leaves a number alone that the format has; so the shortest decimal of a magnitude
reads back, and the exact one would too. -/

namespace MarketSketch

theorem log_eq_of_bounds {x : ℚ} {k : Int} (hlow : (2 : ℚ) ^ k ≤ x)
    (hhigh : x < (2 : ℚ) ^ (k + 1)) : Int.log 2 x = k := by
  have hx : 0 < x := (zpow_pos (by norm_num) k).trans_le hlow
  apply le_antisymm
  · have : Int.log 2 x < k + 1 :=
      (Int.lt_zpow_iff_log_lt (by decide) hx).mp (by exact_mod_cast hhigh)
    omega
  · exact (Int.zpow_le_iff_le_log (by decide) hx).mp (by exact_mod_cast hlow)

theorem pow_le_ratio_iff {n d : Nat} (hd : 0 < d) (k : Int) :
    (if 0 ≤ k then d * 2 ^ k.toNat ≤ n else d ≤ n * 2 ^ (-k).toNat) ↔
      (2 : ℚ) ^ k ≤ (n : ℚ) / d := by
  have hd' : (0 : ℚ) < d := by exact_mod_cast hd
  rw [le_div_iff₀ hd']
  split
  · rename_i h
    obtain ⟨j, rfl⟩ := Int.eq_ofNat_of_zero_le h
    rw [Int.toNat_natCast, zpow_natCast, mul_comm d]
    exact_mod_cast Iff.rfl
  · rename_i h
    obtain ⟨j, rfl⟩ : ∃ j : Nat, k = -j := ⟨(-k).toNat, by omega⟩
    rw [neg_neg, Int.toNat_natCast, zpow_neg, zpow_natCast, inv_mul_le_iff₀ (by positivity),
      mul_comm]
    exact_mod_cast Iff.rfl

theorem floorLog_eq_log {n d : Nat} (hn : 0 < n) (hd : 0 < d) :
    floorLog n d = Int.log 2 ((n : ℚ) / d) := by
  have hd' : (0 : ℚ) < d := by exact_mod_cast hd
  have two (k : Int) : (0 : ℚ) < 2 ^ k := zpow_pos (by norm_num) k
  have hnlow : (2 : ℚ) ^ (n.log2 : Int) ≤ n := by exact_mod_cast Nat.log2_self_le hn.ne'
  have hnhigh : (n : ℚ) < 2 ^ ((n.log2 : Int) + 1) := by exact_mod_cast Nat.lt_log2_self
  have hdlow : (2 : ℚ) ^ (d.log2 : Int) ≤ d := by exact_mod_cast Nat.log2_self_le hd.ne'
  have hdhigh : (d : ℚ) < 2 ^ ((d.log2 : Int) + 1) := by exact_mod_cast Nat.lt_log2_self
  have hlow : (2 : ℚ) ^ ((n.log2 : Int) - d.log2 - 1) ≤ n / d := by
    rw [le_div_iff₀ hd']
    calc (2 : ℚ) ^ ((n.log2 : Int) - d.log2 - 1) * d
        ≤ 2 ^ ((n.log2 : Int) - d.log2 - 1) * 2 ^ ((d.log2 : Int) + 1) :=
          mul_le_mul_of_nonneg_left hdhigh.le (two _).le
      _ = 2 ^ (n.log2 : Int) := by rw [← zpow_add₀ (by norm_num)]; ring_nf
      _ ≤ n := hnlow
  have hhigh : (n : ℚ) / d < 2 ^ ((n.log2 : Int) - d.log2 + 1) := by
    rw [div_lt_iff₀ hd']
    calc (n : ℚ) < 2 ^ ((n.log2 : Int) + 1) := hnhigh
      _ = 2 ^ ((n.log2 : Int) - d.log2 + 1) * 2 ^ (d.log2 : Int) := by
          rw [← zpow_add₀ (by norm_num)]; ring_nf
      _ ≤ 2 ^ ((n.log2 : Int) - d.log2 + 1) * d := mul_le_mul_of_nonneg_left hdlow (two _).le
  unfold floorLog
  simp only [Nat.pow_eq, pow_le_ratio_iff hd]
  split
  · rename_i h
    exact (log_eq_of_bounds h hhigh).symm
  · rename_i h
    refine (log_eq_of_bounds hlow ?_).symm
    rw [sub_add_cancel]
    exact not_le.mp h

theorem roundedQuotient_mul {d : Nat} (hd : 0 < d) (m : Nat) : roundedQuotient (m * d) d = m := by
  unfold roundedQuotient
  simp [Nat.mul_div_cancel m hd, hd]

namespace Binary

variable {f : Binary}

def value (f : Binary) (bits : Nat) : ℚ := (f.unpack bits).1 * (2 : ℚ) ^ (f.unpack bits).2

theorem nearest_of_multiple {n d m : Nat} (hn : 0 < n) (hd : 0 < d)
    (hm : (n : ℚ) / d =
      m * (2 : ℚ) ^ max f.least (Int.log 2 ((n : ℚ) / d) - (f.precision - 1 : Nat))) :
    f.nearest n d = min f.infinity
      ((max f.least (Int.log 2 ((n : ℚ) / d) - (f.precision - 1 : Nat)) - f.least).toNat *
        2 ^ (f.precision - 1) + m) := by
  have hd' : (d : ℚ) ≠ 0 := by exact_mod_cast hd.ne'
  unfold nearest
  rw [if_neg hn.ne', floorLog_eq_log hn hd]
  generalize max f.least (Int.log 2 ((n : ℚ) / d) - (f.precision - 1 : Nat)) = e at hm ⊢
  rw [div_eq_iff hd'] at hm
  simp only [Nat.pow_eq]
  congr 2
  split
  · rename_i h
    obtain ⟨k, rfl⟩ := Int.eq_ofNat_of_zero_le h
    have : n = m * (d * 2 ^ k) := by
      rw [zpow_natCast, mul_right_comm, mul_assoc] at hm
      exact_mod_cast hm
    rw [Int.toNat_natCast, this]
    exact roundedQuotient_mul (by positivity) m
  · rename_i h
    obtain ⟨k, rfl⟩ : ∃ k : Nat, e = -k := ⟨(-e).toNat, by omega⟩
    have : n * 2 ^ k = m * d := by
      rw [zpow_neg, zpow_natCast, mul_right_comm, ← div_eq_mul_inv,
        eq_div_iff (by positivity)] at hm
      exact_mod_cast hm
    rw [neg_neg, Int.toNat_natCast, this]
    exact roundedQuotient_mul hd m

theorem value_pos {bits : Nat} (h : 0 < bits) : 0 < f.value bits := by
  have hm : 0 < (f.unpack bits).1 := by
    unfold unpack
    simp only
    split
    · exact h
    · exact Nat.add_pos_right _ (Nat.two_pow_pos _)
  exact mul_pos (by exact_mod_cast hm) (zpow_pos (by norm_num) _)

theorem nearest_of_value {bits : Nat} (hpos : 0 < bits) (hfin : bits < f.infinity) {n d : Nat}
    (hd : 0 < d) (h : (n : ℚ) / d = f.value bits) : f.nearest n d = bits := by
  have hn : 0 < n := by
    by_contra h0
    have := value_pos (f := f) hpos
    simp [← h, Nat.eq_zero_of_not_pos h0] at this
  have hx : (0 : ℚ) < (n : ℚ) / d := h ▸ value_pos hpos
  have hmultiple {m : Nat} := nearest_of_multiple (f := f) (m := m) hn hd
  have hhidden : 0 < 2 ^ (f.precision - 1) := Nat.two_pow_pos _
  have hdiv := Nat.div_add_mod bits (2 ^ (f.precision - 1))
  have hmod := Nat.mod_lt bits hhidden
  by_cases hfield : bits / 2 ^ (f.precision - 1) = 0
  · -- below the least normal magnitude the last place is the least one
    have hunpack : f.unpack bits = (bits, f.least) := by
      unfold unpack
      simp [hfield]
    have hval : (n : ℚ) / d = bits * (2 : ℚ) ^ f.least := by rw [h, value, hunpack]
    have hlt : (n : ℚ) / d < (2 : ℚ) ^ ((f.precision - 1 : Nat) + f.least : Int) := by
      rw [hval, zpow_add₀ (by norm_num), zpow_natCast]
      refine mul_lt_mul_of_pos_right ?_ (zpow_pos (by norm_num) _)
      exact_mod_cast (Nat.div_eq_zero_iff_lt hhidden).mp hfield
    have hlog := (Int.lt_zpow_iff_log_lt (b := 2) (by decide) hx).mp (by exact_mod_cast hlt)
    have hplace : max f.least (Int.log 2 ((n : ℚ) / d) - (f.precision - 1 : Nat)) = f.least := by
      omega
    rw [hplace] at hmultiple
    rw [hmultiple hval]
    simpa using hfin.le
  · -- a normal magnitude has the hidden bit, and its field is the place of the last bit
    obtain ⟨k, hk⟩ := Nat.exists_eq_succ_of_ne_zero hfield
    obtain ⟨q, hq⟩ : ∃ q, q = f.least + (k : Int) := ⟨_, rfl⟩
    obtain ⟨r, hr⟩ : ∃ r, r = bits % 2 ^ (f.precision - 1) := ⟨_, rfl⟩
    have hunpack : f.unpack bits = (r + 2 ^ (f.precision - 1), q) := by
      unfold unpack
      simp [hk, hq, hr]
    rw [hk, ← hr] at hdiv
    rw [← hr] at hmod
    have hval : (n : ℚ) / d = (r + 2 ^ (f.precision - 1) : Nat) * (2 : ℚ) ^ q := by
      rw [h, value, hunpack]
    have htwo : (0 : ℚ) < 2 ^ q := zpow_pos (by norm_num) _
    have hlog : Int.log 2 ((n : ℚ) / d) = (f.precision - 1 : Nat) + q := by
      apply log_eq_of_bounds
      · rw [hval, zpow_add₀ (by norm_num), zpow_natCast]
        refine mul_le_mul_of_nonneg_right ?_ htwo.le
        exact_mod_cast Nat.le_add_left _ _
      · rw [hval, add_right_comm, ← Nat.cast_succ, zpow_add₀ (by norm_num), zpow_natCast, pow_succ]
        refine mul_lt_mul_of_pos_right ?_ htwo
        have : r + 2 ^ (f.precision - 1) < 2 ^ (f.precision - 1) * 2 := by omega
        exact_mod_cast this
    have hplace : max f.least (Int.log 2 ((n : ℚ) / d) - (f.precision - 1 : Nat)) = q := by
      omega
    rw [hplace] at hmultiple
    have hbits :
        (q - f.least).toNat * 2 ^ (f.precision - 1) + (r + 2 ^ (f.precision - 1)) = bits := by
      rw [hq, add_sub_cancel_left, Int.toNat_natCast, ← hdiv, Nat.succ_eq_add_one]
      ring
    rw [hmultiple hval, hbits]
    exact min_eq_right hfin.le

theorem two_pow_le_ten_pow (k : Nat) : (2 : ℚ) ^ (3 * k : Int) ≤ 10 ^ (k : Int) := by
  rw [zpow_mul, zpow_natCast, zpow_natCast]
  exact pow_le_pow_left₀ (by norm_num) (by norm_num) k

theorem double_value_bounds {bits : Nat} (hpos : 0 < bits) (hfin : bits < double.infinity) :
    (10 : ℚ) ^ (-400 : Int) ≤ double.value bits ∧ double.value bits < (10 : ℚ) ^ (400 : Int) := by
  have hspec : 1 ≤ (double.unpack bits).1 ∧ (double.unpack bits).1 < 2 ^ 53 ∧
      -1074 ≤ (double.unpack bits).2 ∧ (double.unpack bits).2 ≤ 971 := by
    simp only [double] at hfin
    simp only [unpack, double, Nat.add_one_sub_one, Nat.pow_eq, Nat.reducePow]
    by_cases h : bits / 4503599627370496 = 0
    · simp only [h, if_true]
      omega
    · simp only [h, if_false]
      omega
  obtain ⟨hm, hm', hq, hq'⟩ := hspec
  have htwo : (0 : ℚ) < 2 ^ (double.unpack bits).2 := zpow_pos (by norm_num) _
  have hten := two_pow_le_ten_pow 400
  rw [Nat.cast_ofNat] at hten
  constructor
  · calc (10 : ℚ) ^ (-400 : Int) ≤ 2 ^ (-(3 * 400) : Int) := by
          rw [zpow_neg, zpow_neg]
          exact inv_anti₀ (zpow_pos (by norm_num) _) hten
      _ ≤ 2 ^ (double.unpack bits).2 := zpow_le_zpow_right₀ (by norm_num) (by omega)
      _ ≤ double.value bits := le_mul_of_one_le_left htwo.le (by exact_mod_cast hm)
  · calc double.value bits < 2 ^ (53 : Int) * 2 ^ (double.unpack bits).2 :=
          mul_lt_mul_of_pos_right (by exact_mod_cast hm') htwo
      _ = 2 ^ (53 + (double.unpack bits).2) := (zpow_add₀ (by norm_num) _ _).symm
      _ ≤ 2 ^ (3 * 400 : Int) := zpow_le_zpow_right₀ (by norm_num) (by omega)
      _ ≤ 10 ^ (400 : Int) := hten

theorem nearestDecimal_of_value {bits : Nat} (hfin : bits < double.infinity) {d : Decimal}
    (h : d.value = double.value bits) : double.nearestDecimal d = bits := by
  unfold nearestDecimal
  rcases Nat.eq_zero_or_pos bits with rfl | hpos
  · have hzero : d.coefficient = 0 := by
      by_contra hne
      have := Decimal.value_pos hne
      rw [h] at this
      simp [value, unpack, double] at this
    rw [if_pos hzero]
  · have hvalue := value_pos (f := double) hpos
    have hne : d.coefficient ≠ 0 := by
      intro h0
      rw [← h] at hvalue
      simp [Decimal.value, h0] at hvalue
    obtain ⟨hlow, hhigh⟩ := Decimal.leading_spec hne
    obtain ⟨hbelow, habove⟩ := double_value_bounds hpos hfin
    rw [← h] at hbelow habove
    -- the shortcuts for tiny and huge decimals are not taken
    have hleast : ¬ d.leading < -400 := by
      intro hlt
      have hle : (10 : ℚ) ^ (d.leading + 1) ≤ 10 ^ (-400 : Int) :=
        zpow_le_zpow_right₀ (by norm_num) hlt
      exact absurd (hhigh.trans_le hle) (not_lt.mpr hbelow)
    have hmost : ¬ 400 < d.leading := by
      intro hlt
      have hle : (10 : ℚ) ^ (400 : Int) ≤ 10 ^ d.leading :=
        zpow_le_zpow_right₀ (by norm_num) hlt.le
      exact absurd (hle.trans hlow) (not_le.mpr habove)
    rw [if_neg hne, if_neg hmost, if_neg hleast]
    exact nearest_of_value hpos hfin d.ratio_snd_pos (d.value_eq_ratio ▸ h)

theorem exact_value (f : Binary) (bits : Nat) : (f.exact bits).value = f.value bits := by
  unfold exact value
  generalize f.unpack bits = u
  obtain ⟨m, q⟩ := u
  simp only
  split
  · rename_i h
    obtain ⟨k, rfl⟩ := Int.eq_ofNat_of_zero_le h
    rw [Decimal.value_trimmed]
    simp [Decimal.value]
  · rename_i h
    obtain ⟨k, rfl⟩ : ∃ k : Nat, q = -k := ⟨(-q).toNat, by omega⟩
    have hten : (10 : ℚ) ^ k = 5 ^ k * 2 ^ k := by rw [← mul_pow]; norm_num
    rw [Decimal.value_trimmed]
    simp only [Decimal.value, Nat.pow_eq, neg_neg, Int.toNat_natCast, zpow_neg, zpow_natCast, hten]
    push_cast
    field_simp

theorem nearestDecimal_shortest (tieUp : Bool) {bits : Nat} (hfin : bits < double.infinity) :
    double.nearestDecimal (double.shortest tieUp bits) = bits := by
  unfold shortest
  split
  · rename_i h
    rw [h]
    rfl
  · simp only
    -- the search keeps only what reads back; when it finds nothing, the exact decimal is written
    split
    · rename_i c hc
      exact nearestDecimal_of_search hc
    · exact nearestDecimal_of_value hfin (exact_value double bits)

theorem trimmed_of_mem_candidates {tieUp : Bool} {bits n d : Nat} {e : Int} {c : Decimal}
    (h : c ∈ f.candidates tieUp bits n d e) : c.trimmed = c := by
  simp only [candidates, List.mem_filter] at h
  obtain ⟨h, -⟩ := h
  generalize (if 0 ≤ e then (n, d * 10 ^ e.toNat) else (n * 10 ^ (-e).toNat, d)) = r at h
  split at h <;> rcases List.mem_pair.mp h with rfl | rfl <;> exact Decimal.trimmed_trimmed _

theorem trimmed_of_search {tieUp : Bool} {bits n d : Nat} {top : Int} {count fuel : Nat}
    {c : Decimal} (h : f.search tieUp bits n d top count fuel = some c) : c.trimmed = c := by
  induction fuel generalizing count with
  | zero => simp [search] at h
  | succ fuel ih =>
    rw [search] at h
    split at h
    · rename_i heq
      cases h
      exact trimmed_of_mem_candidates (heq ▸ List.mem_cons_self)
    · exact ih h

theorem shortest_trimmed (f : Binary) (tieUp : Bool) (bits : Nat) :
    (f.shortest tieUp bits).trimmed = f.shortest tieUp bits := by
  unfold shortest
  split
  · rfl
  · simp only
    split
    · rename_i c hc
      exact trimmed_of_search hc
    · unfold exact
      simp only
      split <;> exact Decimal.trimmed_trimmed _

end Binary

end MarketSketch
