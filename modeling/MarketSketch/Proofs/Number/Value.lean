import MarketSketch.Proofs.Number.Rounding
import MarketSketch.Proofs.Number.Packing

/-! The numbers that finite doubles stand for: they decide the order of doubles and their whole
parts, and the nearest magnitude to a ratio stands for what is kept of it. -/

namespace MarketSketch

open Float.Model Float.Model.UnpackedFloat

namespace Binary

theorem ratio_snd_pos (m : Nat) (q : Int) : 0 < (ratio m q).2 := by
  unfold ratio
  split
  · exact Nat.one_pos
  · exact Nat.two_pow_pos _

theorem ratio_value (m : Nat) (q : Int) :
    ((ratio m q).1 : ℚ) / (ratio m q).2 = m * 2 ^ q := by
  unfold ratio
  split
  · rename_i h
    obtain ⟨k, rfl⟩ := Int.eq_ofNat_of_zero_le h
    simp
  · rename_i h
    obtain ⟨k, rfl⟩ : ∃ k : Nat, q = -k := ⟨(-q).toNat, by omega⟩
    simp [div_eq_mul_inv]

end Binary

namespace Double

def value (x : Float) : ℚ :=
  if isNegative x then -Binary.double.value (magnitude x) else Binary.double.value (magnitude x)

theorem ceil_div {n d : Nat} (hd : 0 < d) : ⌈(n : ℚ) / d⌉ = ((n + (d - 1)) / d : Nat) := by
  have hd' : (0 : ℚ) < d := by exact_mod_cast hd
  have hdiv := Nat.div_add_mod (n + (d - 1)) d
  have hmod := Nat.mod_lt (n + (d - 1)) hd
  generalize (n + (d - 1)) / d = q at hdiv ⊢
  rw [Int.ceil_eq_iff]
  constructor
  · rw [lt_div_iff₀ hd', sub_mul, one_mul, sub_lt_iff_lt_add, Int.cast_natCast]
    have hlow : q * d < n + d := by
      rw [Nat.mul_comm]
      omega
    exact_mod_cast hlow
  · rw [div_le_iff₀ hd', Int.cast_natCast]
    have hhigh : n ≤ q * d := by
      rw [Nat.mul_comm]
      omega
    exact_mod_cast hhigh

theorem floor_eq (x : Float) : floor x = ⌊value x⌋ := by
  have hpos := Binary.ratio_snd_pos (unpack x).1 (unpack x).2
  have hvalue : Binary.double.value (magnitude x) =
      ((Binary.ratio (unpack x).1 (unpack x).2).1 : ℚ) /
        (Binary.ratio (unpack x).1 (unpack x).2).2 := (Binary.ratio_value _ _).symm
  unfold floor value
  rw [hvalue]
  dsimp only
  generalize Binary.ratio (unpack x).1 (unpack x).2 = r at hpos
  obtain ⟨n, d⟩ := r
  split
  · rw [Int.floor_neg, ceil_div hpos]
  · rw [Rat.floor_natCast_div_natCast]
    rfl

theorem placed_unpack {x : Float} (h : x.isFinite = true) : Placed (unpack x).1 (unpack x).2 := by
  have hlt : magnitude x < 0x7FF0000000000000 := (isFinite_iff x).mp h
  have hmod := Nat.mod_lt (magnitude x) (Nat.two_pow_pos 52)
  rw [unpack, Binary.unpack_double]
  split
  · exact ⟨by omega, by norm_num, .inr rfl⟩
  · exact ⟨by omega, by omega, .inl (Nat.le_add_left _ _)⟩

theorem Placed.lt_iff {m m' : Nat} {e e' : Int} (h : Placed m e) (h' : Placed m' e') :
    (e < e' ∨ e = e' ∧ m < m') ↔ (m : ℚ) * 2 ^ e < m' * 2 ^ e' := by
  have below {m m' : Nat} {e e' : Int} (h : Placed m e) (h' : Placed m' e') (he : e < e') :
      (m : ℚ) * 2 ^ e < m' * 2 ^ e' := by
    have hfull : 2 ^ 52 ≤ m' := h'.full.resolve_right (by have := h.least; omega)
    have hplace : (2 : ℚ) ^ (1 + e) ≤ 2 ^ e' := zpow_le_zpow_right₀ (by norm_num) (by omega)
    rw [zpow_add₀ (by norm_num), zpow_one] at hplace
    calc (m : ℚ) * 2 ^ e < 2 ^ 53 * 2 ^ e :=
          mul_lt_mul_of_pos_right (by exact_mod_cast h.lt) (zpow_pos (by norm_num) e)
      _ = 2 ^ 52 * (2 * 2 ^ e) := by ring
      _ ≤ m' * 2 ^ e' := mul_le_mul (by exact_mod_cast hfull) hplace (by positivity) (by positivity)
  rcases lt_trichotomy e e' with he | rfl | he
  · exact iff_of_true (.inl he) (below h h' he)
  · rw [mul_lt_mul_iff_left₀ (zpow_pos (by norm_num) e), Nat.cast_lt]
    simp
  · exact iff_of_false (by omega) (below h' h he).le.not_gt

theorem compare_then_eq_lt {e e' : Int} {m m' : Nat} :
    (compare e e').then (compare m m') = .lt ↔ e < e' ∨ e = e' ∧ m < m' := by
  rw [Ordering.then_eq_lt, compare_lt_iff_lt, compare_eq_iff_eq, compare_lt_iff_lt]

theorem compare_then_eq_gt {e e' : Int} {m m' : Nat} :
    (compare e e').then (compare m m') = .gt ↔ e' < e ∨ e' = e ∧ m' < m := by
  rw [Ordering.then_eq_gt, compare_gt_iff_gt, compare_eq_iff_eq, compare_gt_iff_gt, eq_comm]

theorem lt_iff_compare (x y : Float) :
    x < y ↔ x.toModel.unpack.compare y.toModel.unpack = some .lt := by
  show decide (x.toModel < y.toModel) = true ↔ _
  rw [decide_eq_true_iff]
  show (x.toModel.unpack.compare y.toModel.unpack == some .lt) = true ↔ _
  rw [beq_iff_eq]

theorem value_of_zero {x : Float} (h : magnitude x = 0) : value x = 0 := by
  simp [value, h, Binary.value, Binary.unpack, Binary.double]

theorem lt_iff_value {x y : Float} (hx : x.isFinite = true) (hy : y.isFinite = true) :
    x < y ↔ value x < value y := by
  rw [lt_iff_compare]
  rcases Nat.eq_zero_or_pos (magnitude x) with hx0 | hx0
  · rw [value_of_zero hx0, unpack_of_zero hx0]
    rcases Nat.eq_zero_or_pos (magnitude y) with hy0 | hy0
    · rw [value_of_zero hy0, unpack_of_zero hy0]
      simp [UnpackedFloat.compare]
    · have hpos := Binary.value_pos (f := Binary.double) hy0
      obtain ⟨hm, hu⟩ := unpack_of_finite hy hy0
      rw [hu, value]
      cases isNegative y <;> simp [signOf, UnpackedFloat.compare, hpos, hpos.le]
  · have hpos := Binary.value_pos (f := Binary.double) hx0
    obtain ⟨hm, hu⟩ := unpack_of_finite hx hx0
    rw [hu]
    rcases Nat.eq_zero_or_pos (magnitude y) with hy0 | hy0
    · rw [value_of_zero hy0, unpack_of_zero hy0, value]
      cases isNegative x <;> simp [signOf, UnpackedFloat.compare, hpos, hpos.le]
    · have hpos' := Binary.value_pos (f := Binary.double) hy0
      obtain ⟨hm', hu'⟩ := unpack_of_finite hy hy0
      have hlt := (placed_unpack hx).lt_iff (placed_unpack hy)
      have hgt := (placed_unpack hy).lt_iff (placed_unpack hx)
      have hv : Binary.double.value (magnitude x) = (unpack x).1 * 2 ^ (unpack x).2 := rfl
      have hv' : Binary.double.value (magnitude y) = (unpack y).1 * 2 ^ (unpack y).2 := rfl
      rw [hu', value, value]
      cases isNegative x <;> cases isNegative y
      · simp [signOf, UnpackedFloat.compare, compare_then_eq_lt, hlt, hv, hv']
      · simp [signOf, UnpackedFloat.compare]
        linarith
      · simp [signOf, UnpackedFloat.compare]
        linarith
      · simp [signOf, UnpackedFloat.compare, compare_then_eq_gt, hgt, hv, hv']

section Nearest

open Binary

variable {n d : Nat}

theorem toBits_ofMagnitude (negative : Bool) {bits : Nat} (h : bits < double.infinity) :
    (ofMagnitude negative bits).toBits.toNat = negative.toNat * 2 ^ 63 + bits := by
  have hlt : bits < 0x7FF0000000000000 := h
  let word : UInt64 := UInt64.ofNat (if negative then bits + 0x8000000000000000 else bits)
  have hword : word.toNat = negative.toNat * 2 ^ 63 + bits := by
    cases negative <;> simp [word] <;> omega
  have hexponent : (@unpackExponent Format.binary64 word.toBitVec).toNat = bits / 2 ^ 52 := by
    rw [unpackExponent_def, BitVec.extractLsb'_toNat, Nat.shiftRight_eq_div_pow]
    show word.toNat / 2 ^ 52 % 2 ^ 11 = _
    rw [hword]
    cases negative <;> simp <;> omega
  have hnumber : @isNaNBits Format.binary64 word.toBitVec = false := by
    have hones : @unpackExponent Format.binary64 word.toBitVec ≠ -1#_ := by
      rw [Ne, ← BitVec.toNat_inj, hexponent]
      show bits / 2 ^ 52 ≠ 2047
      omega
    exact decide_eq_false fun h => hones h.1
  have hpack := @pack_unpack Format.binary64 word.toBitVec
  rw [hnumber, if_neg Bool.false_ne_true] at hpack
  show (UnpackedFloat.pack Format.binary64
    (UnpackedFloat.unpack Format.binary64 word.toBitVec)).toNat = _
  rw [hpack]
  exact hword

theorem magnitude_ofMagnitude (negative : Bool) {bits : Nat} (h : bits < double.infinity) :
    magnitude (ofMagnitude negative bits) = bits := by
  have hlt : bits < 0x7FF0000000000000 := h
  rw [magnitude, toBits_ofMagnitude negative h]
  cases negative <;> simp <;> omega

theorem isNegative_ofMagnitude (negative : Bool) {bits : Nat} (h : bits < double.infinity) :
    isNegative (ofMagnitude negative bits) = negative := by
  have hlt : bits < 0x7FF0000000000000 := h
  rw [isNegative, toBits_ofMagnitude negative h]
  cases negative <;> simp; omega

theorem value_ofMagnitude (negative : Bool) {bits : Nat} (h : bits < double.infinity) :
    value (ofMagnitude negative bits) =
      if negative then -double.value bits else double.value bits := by
  rw [value, isNegative_ofMagnitude negative h, magnitude_ofMagnitude negative h]

theorem isFinite_ofMagnitude (negative : Bool) {bits : Nat} (h : bits < double.infinity) :
    (ofMagnitude negative bits).isFinite = true := by
  rw [isFinite_iff, magnitude_ofMagnitude negative h]
  exact h

theorem nearest_lt_infinity (hn : 0 < n) (hd : 0 < d) (h : (n : ℚ) / d < 2 ^ 1023) :
    double.nearest n d = (place ((n : ℚ) / d) + 1074).toNat * 2 ^ 52 + kept n d ∧
      double.nearest n d < double.infinity := by
  have hx : (0 : ℚ) < (n : ℚ) / d := by positivity
  have hlog : Int.log 2 ((n : ℚ) / d) < 1023 :=
    (Int.lt_zpow_iff_log_lt (by decide) hx).mp (by exact_mod_cast h)
  have hplace : place ((n : ℚ) / d) ≤ 970 := by
    unfold place
    omega
  have hkept := (kept_bounds hn hd).1
  have hinfinity : double.infinity = 2047 * 2 ^ 52 := rfl
  have hlt : (place ((n : ℚ) / d) + 1074).toNat * 2 ^ 52 + kept n d < double.infinity := by
    rw [hinfinity]
    omega
  rw [nearest_eq hn hd, min_eq_right hlt.le]
  exact ⟨rfl, hlt⟩

theorem value_at_place {m k : Nat} (hm : m < 2 ^ 53) (hfull : 2 ^ 52 ≤ m ∨ k = 0) :
    double.value (k * 2 ^ 52 + m) = m * 2 ^ (-1074 + k : Int) := by
  rw [Binary.value, unpack_double]
  rcases Nat.lt_or_ge m (2 ^ 52) with hlow | hlow
  · have hk : k = 0 := hfull.resolve_left (Nat.not_le.mpr hlow)
    rw [hk, Nat.zero_mul, Nat.zero_add, if_pos (Nat.div_eq_of_lt hlow), Nat.cast_zero, add_zero]
  · have hfield : (k * 2 ^ 52 + m) / 2 ^ 52 = k + 1 := by omega
    have hrest : (k * 2 ^ 52 + m) % 2 ^ 52 + 2 ^ 52 = m := by omega
    rw [hfield, hrest, if_neg (Nat.succ_ne_zero k), Nat.add_sub_cancel]

theorem value_nearest (hn : 0 < n) (hd : 0 < d) (h : (n : ℚ) / d < 2 ^ 1023) :
    double.value (double.nearest n d) = kept n d * 2 ^ place ((n : ℚ) / d) := by
  obtain ⟨hmost, hfull⟩ := kept_bounds hn hd
  have hleast : -1074 ≤ place ((n : ℚ) / d) := le_max_left _ _
  rw [(nearest_lt_infinity hn hd h).1]
  obtain ⟨k, hk⟩ : ∃ k : Nat, place ((n : ℚ) / d) = -1074 + k :=
    ⟨(place ((n : ℚ) / d) + 1074).toNat, by omega⟩
  have hbits : (-1074 + (k : Int) + 1074).toNat = k := by omega
  rw [hk] at hfull
  rw [hk, hbits]
  rcases Nat.lt_or_eq_of_le hmost with hlt | hover
  · exact value_at_place hlt (hfull.imp_right (by omega))
  · -- a mantissa rounded up to the next power of two is packed one place higher
    have hup : k * 2 ^ 52 + 2 ^ 53 = (k + 1) * 2 ^ 52 + 2 ^ 52 := by ring
    rw [hover, hup, value_at_place (by norm_num) (.inl le_rfl), Nat.cast_succ, ← add_assoc,
      zpow_add₀ (by norm_num : (2 : ℚ) ≠ 0) (-1074 + (k : Int)) 1, zpow_one]
    push_cast
    ring

end Nearest

end Double

end MarketSketch
