import MarketSketch.Number.Figures
import MarketSketch.Proofs.Number.Nearest
import Mathlib

/-! Doubles by their bits: sign and magnitude determine the number, and the finite ones are those
whose magnitude is below that of infinity. -/

namespace MarketSketch.Double

theorem ofMagnitude_magnitude (x : Float) : ofMagnitude (isNegative x) (magnitude x) = x := by
  have hlt : x.toBits.toNat < 2 ^ 64 := x.toBits.toNat_lt
  have hbits : (if isNegative x then magnitude x + 0x8000000000000000 else magnitude x) =
      x.toBits.toNat := by
    unfold isNegative magnitude
    simp only [decide_eq_true_eq]
    split <;> omega
  rw [ofMagnitude, hbits, UInt64.ofNat_toNat, Float.ofBits_toBits]

section Finite

open Float.Model

theorem isFinite_unpack (b : BitVec 64) :
    (UnpackedFloat.unpack Format.binary64 b).isFinite = true ↔
      @UnpackedFloat.unpackExponent Format.binary64 b ≠ -1#_ := by
  unfold UnpackedFloat.unpack
  by_cases h : @UnpackedFloat.unpackExponent Format.binary64 b = -1#_
  · rw [if_pos h]
    split <;> exact iff_of_false Bool.false_ne_true (fun hne => hne h)
  · rw [if_neg h]
    split
    · split <;> exact iff_of_true rfl h
    · exact iff_of_true rfl h

theorem isFinite_iff (x : Float) : x.isFinite = true ↔ magnitude x < Binary.double.infinity := by
  have hlt : x.toBits.toNat < 2 ^ 64 := x.toBits.toNat_lt
  have hexponent : (@UnpackedFloat.unpackExponent Format.binary64
      x.toBits.toBitVec).toNat = x.toBits.toNat / 2 ^ 52 % 2 ^ 11 := by
    rw [UnpackedFloat.unpackExponent_def, BitVec.extractLsb'_toNat, Nat.shiftRight_eq_div_pow]
    rfl
  refine (isFinite_unpack x.toBits.toBitVec).trans ?_
  rw [Ne, ← BitVec.toNat_inj, hexponent]
  simp only [magnitude, Binary.double]
  have hones : (-1#(Format.binary64.exponentBits)).toNat = 2047 := rfl
  rw [hones]
  omega

end Finite

theorem ofDecimal_shortest {x : Float} (h : x.isFinite = true) (tieUp : Bool) :
    ofDecimal (isNegative x) (Binary.double.shortest tieUp (magnitude x)) = x := by
  rw [ofDecimal, Binary.nearestDecimal_shortest tieUp ((isFinite_iff x).mp h),
    ofMagnitude_magnitude]

end MarketSketch.Double
