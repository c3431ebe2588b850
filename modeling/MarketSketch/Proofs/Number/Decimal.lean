import MarketSketch.Number.Reading
import Mathlib.Data.Int.Log
import Mathlib.Data.Rat.Floor
import Mathlib.Tactic.FieldSimp
import Mathlib.Tactic.IntervalCases
import Mathlib.Tactic.NormNum
import Mathlib.Tactic.Positivity
import Mathlib.Tactic.Ring

/-! Decimals as rational numbers. The form without zeros at the end depends on the value alone, so a
decimal is told by the number its digits spell and by the place of the point. -/

namespace MarketSketch

namespace Decimal

def value (d : Decimal) : ℚ := d.coefficient * (10 : ℚ) ^ d.exponent

theorem trim_mul_ten {n : Nat} (hn : n ≠ 0) (e : Int) : trim (n * 10) (e - 1) = trim n e := by
  rw [trim, dif_pos ⟨by omega, by omega⟩, Nat.mul_div_cancel n (by decide), sub_add_cancel]

theorem trimmed_scaled (n k : Nat) (e : Int) :
    (Decimal.mk (n * 10 ^ k) (e - k)).trimmed = (Decimal.mk n e).trimmed := by
  by_cases hn : n = 0
  · simp [trimmed, hn]
  · have hne (k : Nat) : n * 10 ^ k ≠ 0 := Nat.mul_ne_zero hn (pow_ne_zero k (by decide))
    simp only [trimmed, hn, hne, if_false]
    induction k with
    | zero => simp
    | succ k ih =>
      have hexp : e - (k + 1 : Nat) = e - k - 1 := by omega
      rw [pow_succ, ← mul_assoc, hexp, trim_mul_ten (hne k), ih]

theorem trim_coefficient_mod {n : Nat} (hn : n ≠ 0) (e : Int) :
    (trim n e).coefficient % 10 ≠ 0 := by
  fun_induction trim n e with
  | case1 n e h ih => exact ih (by omega)
  | case2 n e h => exact fun hmod => h ⟨hn, hmod⟩

theorem trimmed_eq_zero_or (d : Decimal) :
    d.trimmed = zero ∨ d.trimmed.coefficient % 10 ≠ 0 := by
  unfold trimmed
  split
  · exact .inl rfl
  · rename_i h
    exact .inr (trim_coefficient_mod h _)

theorem trimmed_trimmed (d : Decimal) : d.trimmed.trimmed = d.trimmed := by
  rcases d.trimmed_eq_zero_or with h | h
  · rw [h]
    rfl
  · have hne : d.trimmed.coefficient ≠ 0 := by
      intro h0
      simp [h0] at h
    conv_lhs => rw [trimmed, if_neg hne, trim_of_not _ _ h]

theorem value_trim (n : Nat) (e : Int) : (trim n e).value = (Decimal.mk n e).value := by
  fun_induction trim n e with
  | case1 n e h ih =>
    have hn : ((n / 10 : Nat) : ℚ) * 10 = n := by
      have : n / 10 * 10 = n := by omega
      exact_mod_cast this
    rw [ih, value, value, zpow_add₀ (by norm_num), zpow_one, ← hn]
    ring
  | case2 n e h => rfl

theorem value_trimmed (d : Decimal) : d.trimmed.value = d.value := by
  unfold trimmed
  split
  · rename_i h
    simp [value, zero, h]
  · exact value_trim _ _

theorem ratio_snd_pos (d : Decimal) : 0 < d.ratio.2 := by
  unfold ratio
  split
  · exact Nat.one_pos
  · exact Nat.pow_pos (by decide)

theorem value_eq_ratio (d : Decimal) : d.value = (d.ratio.1 : ℚ) / d.ratio.2 := by
  obtain ⟨c, e⟩ := d
  unfold ratio value
  split
  · rename_i h
    obtain ⟨k, rfl⟩ := Int.eq_ofNat_of_zero_le h
    simp
  · rename_i h
    obtain ⟨k, rfl⟩ : ∃ k : Nat, e = -k := ⟨(-e).toNat, by simp only at h; omega⟩
    simp [div_eq_mul_inv]

theorem value_pos {d : Decimal} (h : d.coefficient ≠ 0) : 0 < d.value := by
  have hc : (0 : ℚ) < d.coefficient := by exact_mod_cast Nat.pos_of_ne_zero h
  exact mul_pos hc (zpow_pos (by norm_num) _)

theorem leading_spec {d : Decimal} (h : d.coefficient ≠ 0) :
    (10 : ℚ) ^ d.leading ≤ d.value ∧ d.value < (10 : ℚ) ^ (d.leading + 1) := by
  have hlen : 0 < d.digits.length := Nat.length_toDigits_pos
  obtain ⟨k, hk⟩ : ∃ k, d.digits.length = k + 1 := ⟨d.digits.length - 1, by omega⟩
  have hten : (0 : ℚ) < 10 ^ d.exponent := zpow_pos (by norm_num) _
  have hleading : d.leading = k + d.exponent := by
    unfold leading
    omega
  have hupper : d.coefficient < 10 ^ (k + 1) :=
    (Nat.length_toDigits_le_iff (by decide) (Nat.succ_pos k)).mp hk.le
  have hlower : 10 ^ k ≤ d.coefficient := by
    rcases Nat.eq_zero_or_pos k with rfl | hpos
    · exact Nat.pos_of_ne_zero h
    · by_contra hlt
      have := (Nat.length_toDigits_le_iff (by decide) hpos).mpr (not_le.mp hlt)
      have hlen' : (Nat.toDigits 10 d.coefficient).length = k + 1 := hk
      omega
  rw [hleading]
  constructor
  · rw [zpow_add₀ (by norm_num), zpow_natCast]
    exact mul_le_mul_of_nonneg_right (by exact_mod_cast hlower) hten.le
  · rw [show (k : Int) + d.exponent + 1 = (k + 1 : Nat) + d.exponent by push_cast; ring,
      zpow_add₀ (by norm_num), zpow_natCast]
    exact mul_lt_mul_of_pos_right (by exact_mod_cast hupper) hten

end Decimal

section Spelled

theorem spelled_eq (cs : List Char) : spelled cs = Nat.ofDigitChars 10 cs 0 := rfl

theorem spelled_toDigits (n : Nat) : spelled (Nat.toDigits 10 n) = n := by
  rw [spelled_eq, Nat.ofDigitChars_ten_toDigits]

theorem spelled_append_zeros (cs : List Char) (k : Nat) :
    spelled (cs ++ List.replicate k '0') = spelled cs * 10 ^ k := by
  rw [spelled_eq, spelled_eq, Nat.ofDigitChars_append, Nat.ofDigitChars_replicate_zero, mul_comm]

theorem spelled_zeros_append (cs : List Char) (k : Nat) :
    spelled (List.replicate k '0' ++ cs) = spelled cs := by
  rw [spelled_eq, spelled_eq, Nat.ofDigitChars_append, Nat.ofDigitChars_replicate_zero,
    Nat.mul_zero]

theorem isDigit_of_mem_toDigits {c : Char} {n : Nat} (h : c ∈ Nat.toDigits 10 n) :
    isDigit c = true :=
  Nat.isDigit_of_mem_toDigits (by decide) (by decide) h

theorem digitChar_ne_zero {d : Nat} (hpos : 0 < d) (hlt : d < 10) : Nat.digitChar d ≠ '0' := by
  interval_cases d <;> decide

theorem eq_zero_of_head?_toDigits {n : Nat} (h : (Nat.toDigits 10 n).head? = some '0') : n = 0 := by
  induction n using Nat.strong_induction_on with
  | _ n ih =>
    by_cases hlt : n < 10
    · rw [Nat.toDigits_of_lt_base hlt] at h
      by_contra hne
      exact digitChar_ne_zero (Nat.pos_of_ne_zero hne) hlt (by simpa using h)
    · rw [Nat.toDigits_of_base_le (by decide) (by omega), List.head?_append] at h
      obtain ⟨c, cs, hc⟩ := List.exists_cons_of_ne_nil (Nat.toDigits_ne_nil (n := n / 10) (b := 10))
      have hhead : (Nat.toDigits 10 (n / 10)).head? = some '0' := by simpa [hc] using h
      have := ih (n / 10) (by omega) hhead
      omega

theorem length_toDigits_le_one {n : Nat} (h : (Nat.toDigits 10 n).head? = some '0') :
    (Nat.toDigits 10 n).length ≤ 1 := by
  rw [eq_zero_of_head?_toDigits h]
  decide

theorem decimalOf_eq {d : Decimal} (h : d.trimmed = d) {whole fraction : List Char} {e : Int}
    {k : Nat} (hspelled : spelled (whole ++ fraction) = d.coefficient * 10 ^ k)
    (hexp : e - fraction.length = d.exponent - k) : decimalOf whole fraction e = d := by
  rw [decimalOf, hspelled, hexp, Decimal.trimmed_scaled]
  exact h

theorem digitRun_append {cs rest : List Char} (hcs : ∀ c ∈ cs, isDigit c = true)
    (hrest : ∀ c ∈ rest.head?, isDigit c = false) : digitRun (cs ++ rest) = (cs, rest) := by
  rw [digitRun, List.span_eq_takeWhile_dropWhile, List.takeWhile_append_of_pos hcs,
    List.dropWhile_append_of_pos hcs]
  cases rest with
  | nil => simp
  | cons c rest =>
    have hc := hrest c rfl
    simp [hc]

end Spelled

end MarketSketch
