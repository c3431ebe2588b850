import MarketSketch.Proofs.Number.Division
import MarketSketch.Proofs.Number.Value

/-! Whole numbers of 53 bits among the doubles: none of them is rounded, they stay in their order,
and the whole part of a quotient of two of them is that of the exact quotient. -/

namespace MarketSketch.Double

open Binary

variable {n d : Nat}

theorem exists_multiple_of_place (hn : 0 < n) (hmost : n ≤ 2 ^ 53) :
    ∃ m : Nat, (n : ℚ) = m * 2 ^ place (n : ℚ) := by
  rcases Nat.lt_or_eq_of_le hmost with hlt | rfl
  · have hlog : Int.log 2 (n : ℚ) < 53 :=
      (Int.lt_zpow_iff_log_lt (by decide) (by exact_mod_cast hn)).mp (by exact_mod_cast hlt)
    obtain ⟨k, hk⟩ : ∃ k : Nat, place (n : ℚ) = -k := by
      refine ⟨(-place (n : ℚ)).toNat, ?_⟩
      unfold place
      omega
    refine ⟨n * 2 ^ k, ?_⟩
    rw [hk, zpow_neg, zpow_natCast]
    push_cast
    field_simp
  · have hlog : Int.log 2 ((2 ^ 53 : Nat) : ℚ) = 53 := by
      have := Int.log_zpow (R := ℚ) (b := 2) (by decide) 53
      exact_mod_cast this
    have hplace : place ((2 ^ 53 : Nat) : ℚ) = 1 := by
      rw [place, hlog]
      rfl
    exact ⟨2 ^ 52, by rw [hplace]; norm_num⟩

theorem value_nearest_whole (hn : 0 < n) (hmost : n ≤ 2 ^ 53) :
    double.value (double.nearest n 1) = n ∧ double.nearest n 1 < double.infinity := by
  have hone : (n : ℚ) / (1 : Nat) = n := by rw [Nat.cast_one, div_one]
  have hsmall : (n : ℚ) / (1 : Nat) < 2 ^ 1023 := by
    rw [hone]
    calc (n : ℚ) ≤ 2 ^ 53 := by exact_mod_cast hmost
      _ < 2 ^ 1023 := pow_lt_pow_right₀ (by norm_num) (by norm_num)
  refine ⟨?_, (nearest_lt_infinity hn Nat.one_pos hsmall).2⟩
  obtain ⟨m, hm⟩ := exists_multiple_of_place hn hmost
  rw [← hone] at hm
  rw [value_nearest hn Nat.one_pos hsmall, kept_of_multiple Nat.one_pos hm, ← hm, hone]

theorem isFinite_ofInt_of_word {t : Int} (h : t.natAbs ≤ 2 ^ 64) : (ofInt t).isFinite = true := by
  refine isFinite_ofMagnitude _ ?_
  rcases Nat.eq_zero_or_pos t.natAbs with hzero | hpos
  · rw [hzero]
    decide
  · refine (nearest_lt_infinity hpos Nat.one_pos ?_).2
    calc ((t.natAbs : Nat) : ℚ) / (1 : Nat) = t.natAbs := by rw [Nat.cast_one, div_one]
      _ ≤ 2 ^ 64 := by exact_mod_cast h
      _ < 2 ^ 1023 := pow_lt_pow_right₀ (by norm_num) (by norm_num)

theorem isFinite_ofInt {t : Int} (h : t.natAbs ≤ 2 ^ 53) : (ofInt t).isFinite = true :=
  isFinite_ofInt_of_word (h.trans (Nat.pow_le_pow_right (by decide) (by decide)))

theorem value_ofInt {t : Int} (h : t.natAbs ≤ 2 ^ 53) : value (ofInt t) = t := by
  rcases Nat.eq_zero_or_pos t.natAbs with hzero | hpos
  · rw [Int.natAbs_eq_zero.mp hzero, Int.cast_zero]
    exact value_of_zero (by decide)
  · obtain ⟨hvalue, hlt⟩ := value_nearest_whole hpos h
    rw [ofInt, value_ofMagnitude _ hlt, hvalue, Nat.cast_natAbs]
    split
    · rename_i hneg
      rw [abs_of_neg (of_decide_eq_true hneg), Int.cast_neg, neg_neg]
    · rename_i hneg
      rw [abs_of_nonneg (by simpa using hneg)]

theorem floor_ofInt {t : Int} (h : t.natAbs ≤ 2 ^ 53) : floor (ofInt t) = t := by
  rw [floor_eq, value_ofInt h, Int.floor_intCast]

theorem ofInt_natCast (n : Nat) : ofInt n = ofNat n := by
  rw [ofInt, ofNat, Int.natAbs_natCast, decide_eq_false (by omega)]

theorem pos_of_value_pos {bits : Nat} (h : 0 < double.value bits) : 0 < bits := by
  by_contra hzero
  rw [Nat.eq_zero_of_not_pos hzero] at h
  simp [Binary.value, Binary.unpack, double] at h

theorem ofNat_div_ofNat (hn : 0 < n) (hd : 0 < d) (hn' : n ≤ 2 ^ 53) (hd' : d ≤ 2 ^ 53) :
    ofNat n / ofNat d = ofMagnitude false (double.nearest n d) := by
  obtain ⟨hvn, hltn⟩ := value_nearest_whole hn hn'
  obtain ⟨hvd, hltd⟩ := value_nearest_whole hd hd'
  have hmn : magnitude (ofNat n) = double.nearest n 1 := magnitude_ofMagnitude false hltn
  have hmd : magnitude (ofNat d) = double.nearest d 1 := magnitude_ofMagnitude false hltd
  have hpn : 0 < magnitude (ofNat n) := hmn ▸ pos_of_value_pos (by rw [hvn]; positivity)
  have hpd : 0 < magnitude (ofNat d) := hmd ▸ pos_of_value_pos (by rw [hvd]; positivity)
  have hquotient := div_eq_nearest (isFinite_ofMagnitude false hltn)
    (isFinite_ofMagnitude false hltd) hpn hpd hn hd (by rw [← ofNat, ← ofNat, hmn, hmd, hvn, hvd])
  rwa [isNegative_ofMagnitude false hltn, isNegative_ofMagnitude false hltd] at hquotient

theorem floor_div {k : Nat} (hn : 0 < n) (hd : 0 < d) (hn' : n ≤ 2 ^ 53) (hd' : d < 2 ^ (k + 1))
    (hk : k ≤ 52) (h : n < d * 2 ^ (53 - k)) : floor (ofNat n / ofNat d) = (n / d : Nat) := by
  have hd53 : d ≤ 2 ^ 53 := hd'.le.trans (Nat.pow_le_pow_right (by decide) (by omega))
  have hd0 : (0 : ℚ) < d := by exact_mod_cast hd
  have hx : (0 : ℚ) < (n : ℚ) / d := by positivity
  have hbelow : (n : ℚ) / d < 2 ^ (53 - k) := by
    rw [div_lt_iff₀ hd0, mul_comm]
    exact_mod_cast h
  have hsmall : (n : ℚ) / d < 2 ^ 1023 :=
    hbelow.trans_le (pow_le_pow_right₀ (by norm_num) (by omega))
  obtain ⟨j, hj⟩ : ∃ j : Nat, place ((n : ℚ) / d) = -(k + j : Nat) := by
    have hlog : Int.log 2 ((n : ℚ) / d) < (53 - k : Nat) :=
      (Int.lt_zpow_iff_log_lt (by decide) hx).mp (by exact_mod_cast hbelow)
    refine ⟨(-place ((n : ℚ) / d) - k).toNat, ?_⟩
    unfold place
    omega
  have hkept : kept n d = roundedQuotient (n * 2 ^ (k + j)) d := by
    refine kept_eq hd hd ?_
    rw [hj, zpow_neg, zpow_natCast, div_inv_eq_mul]
    push_cast
    rw [mul_div_right_comm]
  have hvalue : value (ofNat n / ofNat d) =
      (roundedQuotient (n * 2 ^ (k + j)) d : ℚ) / (2 ^ (k + j) : Nat) := by
    rw [ofNat_div_ofNat hn hd hn' hd53,
      value_ofMagnitude false (nearest_lt_infinity hn hd hsmall).2, if_neg Bool.false_ne_true,
      value_nearest hn hd hsmall, hkept, hj, zpow_neg, zpow_natCast, ← div_eq_mul_inv, Nat.cast_pow,
      Nat.cast_ofNat]
  have hbits : d < 2 ^ (k + j + 1) :=
    hd'.trans_le (Nat.pow_le_pow_right (by decide) (by omega))
  rw [floor_eq, hvalue, Rat.floor_natCast_div_natCast, ← roundedQuotient_div_pow n hd hbits]
  rfl

end MarketSketch.Double
