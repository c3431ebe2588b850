import MarketSketch.Proofs.Number.Double
import Mathlib

/-! Doubles in the machine's own form, a sign with a mantissa and a place: the bits in which such a
form is packed, and the form that the bits of a finite double are unpacked to. -/

namespace MarketSketch

open Float.Model Float.Model.UnpackedFloat

theorem Binary.unpack_double (bits : Nat) :
    double.unpack bits = if bits / 2 ^ 52 = 0 then ((bits, -1074) : Nat × Int)
      else (bits % 2 ^ 52 + 2 ^ 52, -1074 + (bits / 2 ^ 52 - 1 : Nat)) := rfl

namespace Double

def signOf (negative : Bool) : Sign := if negative then .negative else .positive

theorem toNat_signOf (negative : Bool) : (signOf negative).toBitVec.toNat = negative.toNat := by
  cases negative <;> rfl

theorem toNat_packComponents (s : Sign) (e : BitVec 11) (m : BitVec 52) :
    (packComponents Format.binary64 s e m).toNat =
      s.toBitVec.toNat * 2 ^ 63 + (e.toNat * 2 ^ 52 + m.toNat) := by
  have hm : m.toNat < 2 ^ 52 := m.isLt
  have he : e.toNat < 2 ^ 11 := e.isLt
  unfold packComponents
  rw [BitVec.toNat_append, ← Nat.shiftLeft_add_eq_or_of_lt hm, BitVec.toNat_append,
    ← Nat.shiftLeft_add_eq_or_of_lt he, Nat.shiftLeft_eq, Nat.shiftLeft_eq]
  ring

/-- A mantissa and its place as a double keeps them: full but for the least place. -/
structure Placed (m : Nat) (e : Int) : Prop where
  lt : m < 2 ^ 53
  least : -1074 ≤ e
  full : 2 ^ 52 ≤ m ∨ e = -1074

theorem toNat_pack {m : Nat} {e : Int} (h : Placed m e) (hm : 0 < m) (s : Sign) :
    (UnpackedFloat.pack Format.binary64 (.finite s m e hm)).toNat =
      s.toBitVec.toNat * 2 ^ 63 +
        min Binary.double.infinity ((e + 1074).toNat * 2 ^ 52 + m) := by
  obtain ⟨hlt, hleast, hfull⟩ := h
  have hbias : (e + (Format.binary64.exponentBias : Nat) + (52 : Nat) : Int).toNat =
      (e + 1074).toNat + 1 := by
    have : Format.binary64.exponentBias = 1023 := rfl
    rw [this]
    omega
  have hlog : m.log2 + 1 = Format.binary64.mantissaBits ↔ 2 ^ 52 ≤ m := by
    have : Format.binary64.mantissaBits = 53 := rfl
    rw [this, Nat.add_right_cancel_iff, Nat.log2_eq_iff hm.ne']
    exact ⟨And.left, fun h => ⟨h, hlt⟩⟩
  have hinfinity : Binary.double.infinity = 2047 * 2 ^ 52 := rfl
  have hones : (-1#11).toNat = 2047 := rfl
  have hzero : (0#11).toNat = 0 := rfl
  have hmantissa : (BitVec.ofNat 52 m).toNat = m % 2 ^ 52 := BitVec.toNat_ofNat m 52
  simp only [UnpackedFloat.pack, hbias, hlog]
  split
  · have hover : Binary.double.infinity ≤ (e + 1074).toNat * 2 ^ 52 + m := by
      rw [hinfinity]
      omega
    rw [min_eq_left hover, hinfinity, packedInfinity, toNat_packComponents, hones]
    rfl
  · have hunder : (e + 1074).toNat * 2 ^ 52 + m ≤ Binary.double.infinity := by
      rw [hinfinity]
      omega
    rw [min_eq_right hunder]
    split
    · rw [toNat_packComponents, hmantissa, BitVec.toNat_ofNat]
      omega
    · rw [toNat_packComponents, hmantissa, hzero]
      omega

theorem toNat_packedZero (s : Sign) :
    (UnpackedFloat.pack Format.binary64 (.zero s)).toNat = s.toBitVec.toNat * 2 ^ 63 := by
  have hexponent : (0 : BitVec 11).toNat = 0 := rfl
  have hmantissa : (0 : BitVec 52).toNat = 0 := rfl
  rw [UnpackedFloat.pack, packedZero, toNat_packComponents, hexponent, hmantissa, Nat.zero_mul,
    Nat.add_zero]

theorem toNat_pack_placed {m : Nat} {e : Int} (h : Placed m e) (s : Sign) :
    (UnpackedFloat.pack Format.binary64
        (if hm : m = 0 then .zero s else .finite s m e (Nat.pos_of_ne_zero hm))).toNat =
      s.toBitVec.toNat * 2 ^ 63 +
        min Binary.double.infinity ((e + 1074).toNat * 2 ^ 52 + m) := by
  split
  · rename_i hzero
    subst hzero
    have he : e = -1074 := h.full.resolve_left (by norm_num)
    rw [toNat_packedZero, he]
    simp
  · exact toNat_pack h _ s

theorem ofModel_pack {u : UnpackedFloat} {negative : Bool} {bits : Nat} (hb : bits < 2 ^ 63)
    (h : (UnpackedFloat.pack Format.binary64 u).toNat = negative.toNat * 2 ^ 63 + bits) :
    Float.ofModel (Float.Model.pack u) = ofMagnitude negative bits := by
  have hbits : (Float.ofModel (Float.Model.pack u)).toBits.toNat =
      negative.toNat * 2 ^ 63 + bits := h
  have hnegative : isNegative (Float.ofModel (Float.Model.pack u)) = negative := by
    rw [isNegative, hbits]
    cases negative <;> simp; omega
  have hmagnitude : magnitude (Float.ofModel (Float.Model.pack u)) = bits := by
    rw [magnitude, hbits]
    cases negative <;> simp <;> omega
  rw [← ofMagnitude_magnitude (Float.ofModel _), hnegative, hmagnitude]

section Unpack

variable {x : Float}

theorem toNat_unpackMantissa (x : Float) :
    (@unpackMantissa Format.binary64 x.toBits.toBitVec).toNat = magnitude x % 2 ^ 52 := by
  rw [unpackMantissa_def, BitVec.extractLsb'_toNat]
  show x.toBits.toNat >>> 0 % 2 ^ 52 = _
  rw [magnitude, Nat.shiftRight_zero]
  omega

theorem toNat_unpackExponent (x : Float) :
    (@unpackExponent Format.binary64 x.toBits.toBitVec).toNat = magnitude x / 2 ^ 52 := by
  rw [unpackExponent_def, BitVec.extractLsb'_toNat, Nat.shiftRight_eq_div_pow]
  show x.toBits.toNat / 2 ^ 52 % 2 ^ 11 = _
  rw [magnitude]
  omega

theorem ofBitVec_unpackSign (x : Float) :
    Sign.ofBitVec (@unpackSign Format.binary64 x.toBits.toBitVec) = signOf (isNegative x) := by
  have hlt : x.toBits.toNat < 2 ^ 64 := x.toBits.toNat_lt
  have hsign : (@unpackSign Format.binary64 x.toBits.toBitVec).toNat = x.toBits.toNat / 2 ^ 63 := by
    rw [unpackSign_def, BitVec.extractLsb'_toNat, Nat.shiftRight_eq_div_pow]
    show x.toBits.toNat / 2 ^ 63 % 2 ^ 1 = _
    omega
  have hbit : @unpackSign Format.binary64 x.toBits.toBitVec = (signOf (isNegative x)).toBitVec := by
    rw [← BitVec.toNat_inj, hsign, toNat_signOf, isNegative]
    by_cases h : 0x8000000000000000 ≤ x.toBits.toNat
    · rw [decide_eq_true h, Bool.toNat_true]
      omega
    · rw [decide_eq_false h, Bool.toNat_false]
      omega
  rw [hbit, Sign.ofBitVec_toBitVec]

theorem unpack_of_zero (h : magnitude x = 0) :
    x.toModel.unpack = .zero (signOf (isNegative x)) := by
  have hexponent : @unpackExponent Format.binary64 x.toBits.toBitVec = 0#_ := by
    rw [← BitVec.toNat_inj, toNat_unpackExponent, h]
    rfl
  have hmantissa : @unpackMantissa Format.binary64 x.toBits.toBitVec = 0#_ := by
    rw [← BitVec.toNat_inj, toNat_unpackMantissa, h]
    rfl
  have hones : (0#(Format.binary64.exponentBits)) ≠ -1#_ := by decide
  show UnpackedFloat.unpack Format.binary64 x.toBits.toBitVec = _
  unfold UnpackedFloat.unpack
  simp only [hexponent, hmantissa, hones, if_true, if_false, ofBitVec_unpackSign, dite_true]

theorem unpack_of_finite (hfin : x.isFinite = true) (hpos : 0 < magnitude x) :
    ∃ hm, x.toModel.unpack =
      .finite (signOf (isNegative x)) (unpack x).1 (unpack x).2 hm := by
  have hlt : magnitude x < 0x7FF0000000000000 := (isFinite_iff x).mp hfin
  have hexponent := toNat_unpackExponent x
  have hmantissa := toNat_unpackMantissa x
  have hones : @unpackExponent Format.binary64 x.toBits.toBitVec ≠ -1#_ :=
    (isFinite_unpack x.toBits.toBitVec).mp hfin
  have hbias : (Format.binary64.exponentBias : Int) + Format.binary64.mantissaBitsWithoutImplicit =
    1075 := rfl
  have hunpack := Binary.unpack_double (magnitude x)
  rw [← unpack] at hunpack
  show ∃ hm, UnpackedFloat.unpack Format.binary64 x.toBits.toBitVec = _
  unfold UnpackedFloat.unpack
  simp only [if_neg hones, ofBitVec_unpackSign, hbias]
  by_cases hzero : @unpackExponent Format.binary64 x.toBits.toBitVec = 0#_
  · have hfield : magnitude x / 2 ^ 52 = 0 := by rw [← hexponent, hzero]; rfl
    have hsome : @unpackMantissa Format.binary64 x.toBits.toBitVec ≠ 0#_ := by
      intro hnone
      have hrest : magnitude x % 2 ^ 52 = 0 := by rw [← hmantissa, hnone]; rfl
      omega
    rw [if_pos hfield] at hunpack
    rw [hunpack]
    refine ⟨hpos, ?_⟩
    simp only [if_pos hzero, dif_neg hsome, finite.injEq, true_and]
    exact ⟨by omega, by rw [hzero]; rfl⟩
  · have hfield : magnitude x / 2 ^ 52 ≠ 0 := by
      rw [← hexponent]
      exact fun h => hzero (BitVec.eq_of_toNat_eq h)
    rw [if_neg hfield] at hunpack
    rw [hunpack]
    refine ⟨Nat.add_pos_right _ (by norm_num), ?_⟩
    simp only [if_neg hzero, finite.injEq, true_and]
    refine ⟨?_, by omega⟩
    rw [BitVec.toNat_append, ← Nat.shiftLeft_add_eq_or_of_lt (BitVec.isLt _), hmantissa,
      Nat.add_comm]
    rfl

end Unpack

end Double

end MarketSketch
