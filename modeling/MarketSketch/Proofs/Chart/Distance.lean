import MarketSketch.Drawing.Pick
import MarketSketch.Proofs.Chart.Mapping
import Mathlib.Data.Real.Basic
import Mathlib.Tactic.Positivity

/-! The distance to a trend line, over the rationals, squared. The foot of a position is the point
of the segment that is nearest to it, whether the foot of the perpendicular lies before the segment,
on it or beyond it, and so a trend line is hit exactly if some point of it is within the tolerance.
-/

namespace MarketSketch

theorem Scalar.clamp_eq {low high x : ℚ} : clamp low high x = min high (max low x) := by
  have hraised : (if below x low = true then low else x) = max low x := by
    by_cases h : x < low
    · rw [if_pos (below_iff.mpr h), max_eq_left h.le]
    · rw [if_neg (mt below_iff.mp h), max_eq_right (not_lt.mp h)]
  unfold clamp
  dsimp only
  rw [hraised]
  by_cases h : high < max low x
  · rw [if_pos (below_iff.mpr h), min_eq_left h.le]
  · rw [if_neg (mt below_iff.mp h), min_eq_right (not_lt.mp h)]

namespace Segment

variable (s : Segment ℚ) (p : Pos ℚ)

def advance : ℚ := (p.x - s.a.x) * (s.b.x - s.a.x) + (p.y - s.a.y) * (s.b.y - s.a.y)

/-- The squared distance from `p` to the point at `t` along the segment, which may be irrational. -/
def gapAt (t : ℝ) : ℝ :=
  (p.x - (s.a.x + t * (s.b.x - s.a.x))) ^ 2 + (p.y - (s.a.y + t * (s.b.y - s.a.y))) ^ 2

variable {s p}

theorem gapAt_along (t : ℚ) : s.gapAt p t = (p.distanceSquared (s.along t) : ℚ) := by
  have hexact : p.distanceSquared (s.along t) =
      (p.x - (s.a.x + t * (s.b.x - s.a.x))) * (p.x - (s.a.x + t * (s.b.x - s.a.x))) +
        (p.y - (s.a.y + t * (s.b.y - s.a.y))) * (p.y - (s.a.y + t * (s.b.y - s.a.y))) := rfl
  rw [hexact, gapAt]
  push_cast
  ring

theorem lengthSquared_eq :
    s.lengthSquared = (s.b.x - s.a.x) * (s.b.x - s.a.x) + (s.b.y - s.a.y) * (s.b.y - s.a.y) := rfl

theorem lengthSquared_nonneg : 0 ≤ s.lengthSquared := by
  rw [lengthSquared_eq]
  exact add_nonneg (mul_self_nonneg _) (mul_self_nonneg _)

theorem degenerate_iff : s.degenerate = true ↔ s.lengthSquared = 0 := by
  unfold degenerate
  rw [Bool.and_eq_true, Scalar.atMost_iff, Scalar.atMost_iff, ← le_antisymm_iff]

theorem ends_eq_of_degenerate (h : s.degenerate = true) : s.b = s.a := by
  obtain ⟨a, b⟩ := s
  have hlength := degenerate_iff.mp h
  rw [lengthSquared_eq] at hlength
  obtain ⟨hx, hy⟩ := mul_self_add_mul_self_eq_zero.mp hlength
  obtain ⟨bx, yb⟩ := b
  obtain ⟨ax, ya⟩ := a
  rw [Pos.mk.injEq]
  exact ⟨sub_eq_zero.mp hx, sub_eq_zero.mp hy⟩

theorem footPart_eq (s : Segment ℚ) (p : Pos ℚ) :
    s.footPart p = min 1 (max 0 (s.advance p / s.lengthSquared)) := Scalar.clamp_eq

theorem footPart_mem (s : Segment ℚ) (p : Pos ℚ) : s.footPart p ∈ Set.Icc 0 1 := by
  rw [footPart_eq]
  exact ⟨le_min zero_le_one (le_max_left 0 _), min_le_left 1 _⟩

theorem foot_of_degenerate (h : s.degenerate = true) : s.foot p = s.a := if_pos h

theorem foot_of_not_degenerate (h : ¬ s.degenerate = true) :
    s.foot p = s.along (s.footPart p) := if_neg h

theorem along_zero (s : Segment ℚ) : s.along 0 = s.a := by
  have hexact : s.along 0 =
      ⟨s.a.x + 0 * (s.b.x - s.a.x), s.a.y + 0 * (s.b.y - s.a.y)⟩ := rfl
  rw [hexact, zero_mul, zero_mul, add_zero, add_zero]

theorem foot_on_segment (s : Segment ℚ) (p : Pos ℚ) :
    ∃ t ∈ Set.Icc (0 : ℚ) 1, s.foot p = s.along t := by
  by_cases h : s.degenerate = true
  · refine ⟨0, ⟨le_rfl, zero_le_one⟩, ?_⟩
    rw [foot_of_degenerate h, along_zero]
  · exact ⟨s.footPart p, footPart_mem s p, foot_of_not_degenerate h⟩

theorem footPart_cases (h : ¬ s.degenerate = true) :
    s.footPart p = 0 ∧ s.advance p ≤ 0 ∨
      s.footPart p = 1 ∧ s.lengthSquared ≤ s.advance p ∨
      s.footPart p * s.lengthSquared = s.advance p := by
  have hlength : 0 < s.lengthSquared :=
    lt_of_le_of_ne lengthSquared_nonneg fun heq => h (degenerate_iff.mpr heq.symm)
  have hquotient : s.advance p / s.lengthSquared * s.lengthSquared = s.advance p :=
    div_mul_cancel₀ _ hlength.ne'
  rw [footPart_eq]
  rcases le_total (s.advance p) 0 with hbefore | hafter
  · have hquotient_nonpos := div_nonpos_of_nonpos_of_nonneg hbefore hlength.le
    refine .inl ⟨?_, hbefore⟩
    rw [max_eq_left hquotient_nonpos, min_eq_right zero_le_one]
  · have hquotient_nonneg := div_nonneg hafter hlength.le
    rw [max_eq_right hquotient_nonneg]
    rcases le_total s.lengthSquared (s.advance p) with hbeyond | hon
    · exact .inr (.inl ⟨min_eq_left ((one_le_div hlength).mpr hbeyond), hbeyond⟩)
    · refine .inr (.inr ?_)
      rw [min_eq_right ((div_le_one hlength).mpr hon), hquotient]

theorem foot_nearest (s : Segment ℚ) (p : Pos ℚ) {u : ℝ} (hu : u ∈ Set.Icc (0 : ℝ) 1) :
    (p.distanceSquared (s.foot p) : ℝ) ≤ s.gapAt p u := by
  by_cases h : s.degenerate = true
  · have hconstant : s.gapAt p u = s.gapAt p (0 : ℚ) := by
      unfold gapAt
      rw [ends_eq_of_degenerate h]
      ring
    rw [hconstant, gapAt_along, along_zero, foot_of_degenerate h]
  · rw [foot_of_not_degenerate h, ← gapAt_along]
    let t : ℝ := s.footPart p
    let length : ℝ := s.lengthSquared
    let advance : ℝ := s.advance p
    have hlength : 0 ≤ length := Rat.cast_nonneg.mpr lengthSquared_nonneg
    -- off the foot the squared distance grows by a square and by what the slope at the foot gives
    have hgrowth : s.gapAt p u - s.gapAt p t =
        (u - t) ^ 2 * length + 2 * ((u - t) * (t * length - advance)) := by
      simp only [gapAt, length, advance, lengthSquared_eq, Segment.advance]
      push_cast
      ring
    have hslope : 0 ≤ (u - t) * (t * length - advance) := by
      rcases footPart_cases h with ⟨ht, hbefore⟩ | ⟨ht, hbeyond⟩ | hon
      · have hadvance : advance ≤ 0 := Rat.cast_nonpos.mpr hbefore
        have hzero : t = 0 := by simp only [t, ht, Rat.cast_zero]
        rw [hzero, sub_zero, zero_mul, zero_sub]
        exact mul_nonneg hu.1 (neg_nonneg.mpr hadvance)
      · have hadvance : length ≤ advance := Rat.cast_le.mpr hbeyond
        have hone : t = 1 := by simp only [t, ht, Rat.cast_one]
        rw [hone, one_mul]
        exact mul_nonneg_of_nonpos_of_nonpos (sub_nonpos.mpr hu.2) (sub_nonpos.mpr hadvance)
      · have hfoot : t * length = advance := by
          simp only [t, length, advance, ← hon, Rat.cast_mul]
        rw [hfoot, sub_self, mul_zero]
    have hgrows : 0 ≤ s.gapAt p u - s.gapAt p t := by
      rw [hgrowth]
      positivity
    exact sub_nonneg.mp hgrows

def swapped (s : Segment ℚ) : Segment ℚ := ⟨s.b, s.a⟩

theorem lengthSquared_swapped (s : Segment ℚ) : s.swapped.lengthSquared = s.lengthSquared := by
  rw [lengthSquared_eq, lengthSquared_eq, swapped]
  ring

theorem advance_swapped (s : Segment ℚ) (p : Pos ℚ) :
    s.swapped.advance p = s.lengthSquared - s.advance p := by
  rw [lengthSquared_eq]
  unfold advance swapped
  ring

theorem degenerate_swapped (s : Segment ℚ) : s.swapped.degenerate = s.degenerate := by
  rw [Bool.eq_iff_iff, degenerate_iff, degenerate_iff, lengthSquared_swapped]

theorem along_swapped (s : Segment ℚ) (t : ℚ) : s.swapped.along (1 - t) = s.along t := by
  have hswapped : s.swapped.along (1 - t) =
      ⟨s.b.x + (1 - t) * (s.a.x - s.b.x), s.b.y + (1 - t) * (s.a.y - s.b.y)⟩ := rfl
  have hsame : s.along t =
      ⟨s.a.x + t * (s.b.x - s.a.x), s.a.y + t * (s.b.y - s.a.y)⟩ := rfl
  rw [hswapped, hsame, Pos.mk.injEq]
  exact ⟨by ring, by ring⟩

theorem one_sub_clamped (x : ℚ) : min 1 (max 0 (1 - x)) = 1 - min 1 (max 0 x) := by
  grind

theorem footPart_swapped (h : ¬ s.degenerate = true) :
    s.swapped.footPart p = 1 - s.footPart p := by
  have hlength : s.lengthSquared ≠ 0 := mt degenerate_iff.mpr h
  rw [footPart_eq, footPart_eq, advance_swapped, lengthSquared_swapped, sub_div, div_self hlength,
    one_sub_clamped]

theorem foot_swapped (s : Segment ℚ) (p : Pos ℚ) : s.swapped.foot p = s.foot p := by
  by_cases h : s.degenerate = true
  · have hswapped : s.swapped.degenerate = true := (degenerate_swapped s).trans h
    rw [foot_of_degenerate h, foot_of_degenerate hswapped]
    exact ends_eq_of_degenerate h
  · have hswapped : ¬ s.swapped.degenerate = true := by rwa [degenerate_swapped]
    rw [foot_of_not_degenerate h, foot_of_not_degenerate hswapped, footPart_swapped h,
      along_swapped]

theorem foot_of_point (a p : Pos ℚ) : (⟨a, a⟩ : Segment ℚ).foot p = a := by
  refine foot_of_degenerate (degenerate_iff.mpr ?_)
  rw [lengthSquared_eq, sub_self, sub_self, mul_zero, add_zero]

end Segment

/-- The positions are not further from each other than `r`. -/
def Pos.Within (r : ℚ) (p q : Pos ℚ) : Prop := 0 ≤ r ∧ p.distanceSquared q ≤ r * r

theorem Pos.near_iff {p q : Pos ℚ} {r : ℚ} : p.near q r = true ↔ Within r p q := by
  have hnear : p.near q r =
      (Scalar.atMost 0 r && Scalar.atMost (p.distanceSquared q) (r * r)) := rfl
  rw [hnear, Bool.and_eq_true, Scalar.atMost_iff, Scalar.atMost_iff]
  exact Iff.rfl

theorem Projected.segment_hit (s : Segment ℚ) (r : ℚ) (p : Pos ℚ) :
    (Projected.segment s).hit r p = p.near (s.foot p) r := rfl

namespace Geometry

open Segment

variable {v : Viewport ℚ} {a b : Point ℚ} {p : Pos ℚ} {r : ℚ}

theorem segment_hit_iff {s : Segment ℚ} :
    (Projected.segment s).hit r p = true ↔ ∃ t ∈ Set.Icc (0 : ℚ) 1, Pos.Within r p (s.along t) := by
  rw [Projected.segment_hit, Pos.near_iff]
  constructor
  · intro h
    obtain ⟨t, ht, hfoot⟩ := s.foot_on_segment p
    exact ⟨t, ht, hfoot ▸ h⟩
  · rintro ⟨t, ht, hr, hnear⟩
    have hreal : (t : ℝ) ∈ Set.Icc (0 : ℝ) 1 := ⟨by exact_mod_cast ht.1, by exact_mod_cast ht.2⟩
    have hfoot := s.foot_nearest p hreal
    rw [gapAt_along, Rat.cast_le] at hfoot
    exact ⟨hr, hfoot.trans hnear⟩

theorem trendline_hit_iff : (trendline a b).hit v r p = true ↔
    ∃ a' b', v.toPixel? a = some a' ∧ v.toPixel? b = some b' ∧
      (Projected.segment ⟨a', b'⟩).hit r p = true := by
  unfold hit project?
  cases ha : v.toPixel? a <;> cases hb : v.toPixel? b <;> simp [ha, hb]

theorem trendline_hit_comm : (trendline b a).hit v r p = (trendline a b).hit v r p := by
  have hswapped (a' b' : Pos ℚ) : (Projected.segment ⟨b', a'⟩).hit r p =
      (Projected.segment ⟨a', b'⟩).hit r p := by
    have hfoot : (⟨b', a'⟩ : Segment ℚ).foot p = (⟨a', b'⟩ : Segment ℚ).foot p :=
      foot_swapped ⟨a', b'⟩ p
    rw [Projected.segment_hit, Projected.segment_hit, hfoot]
  rw [Bool.eq_iff_iff, trendline_hit_iff, trendline_hit_iff, exists_comm]
  simp only [hswapped, and_left_comm]

theorem trendline_hit_of_point : (trendline a a).hit v r p = true ↔
    ∃ a', v.toPixel? a = some a' ∧ Pos.Within r p a' := by
  have hpoint (a' : Pos ℚ) : (Projected.segment ⟨a', a'⟩).hit r p = true ↔ Pos.Within r p a' := by
    rw [Projected.segment_hit, foot_of_point, Pos.near_iff]
  rw [trendline_hit_iff]
  constructor
  · rintro ⟨a', b', ha, hb, hhit⟩
    obtain rfl : a' = b' := Option.some.inj (ha.symm.trans hb)
    exact ⟨a', ha, (hpoint a').mp hhit⟩
  · rintro ⟨a', ha, hnear⟩
    exact ⟨a', a', ha, ha, (hpoint a').mpr hnear⟩

/-- The foot of a position on a segment is a point of the segment, and none is nearer. So a trend
line is hit exactly if some point between its ends on the plot is within the tolerance; which end
comes first makes no difference, and a line with one end only is picked like that point. -/
theorem trendline_hit_iff_point_within (s : Segment ℚ) (v : Viewport ℚ) (a b : Point ℚ) (p : Pos ℚ)
    (r : ℚ) :
    ((∃ t ∈ Set.Icc (0 : ℚ) 1, s.foot p = s.along t) ∧
      ∀ u ∈ Set.Icc (0 : ℝ) 1, (p.distanceSquared (s.foot p) : ℝ) ≤ s.gapAt p u) ∧
    ((trendline a b).hit v r p = true ↔
      ∃ a' b', v.toPixel? a = some a' ∧ v.toPixel? b = some b' ∧
        ∃ t ∈ Set.Icc (0 : ℚ) 1, Pos.Within r p ((⟨a', b'⟩ : Segment ℚ).along t)) ∧
    (s.swapped.foot p = s.foot p ∧ (trendline b a).hit v r p = (trendline a b).hit v r p) ∧
    (⟨s.a, s.a⟩ : Segment ℚ).foot p = s.a ∧
    ((trendline a a).hit v r p = true ↔ ∃ a', v.toPixel? a = some a' ∧ Pos.Within r p a') := by
  refine ⟨⟨s.foot_on_segment p, fun u hu => s.foot_nearest p hu⟩, ?_,
    ⟨s.foot_swapped p, trendline_hit_comm⟩, foot_of_point s.a p, trendline_hit_of_point⟩
  rw [trendline_hit_iff]
  simp only [segment_hit_iff]

theorem trendline_hit_iff_point_within_of_flat :
    let v : Viewport ℚ := ⟨0, 1000, 0, 100, 1000, 100⟩
    let s : Segment ℚ := ⟨⟨100, 50⟩, ⟨300, 50⟩⟩
    let p : Pos ℚ := ⟨306, 50⟩
    let hits (a b : Point ℚ) (p : Pos ℚ) : Bool := (trendline a b).hit v 8 p
    (1 / 2 : ℝ) ∈ Set.Icc (0 : ℝ) 1 ∧
      (p.distanceSquared (s.foot p) : ℝ) ≤ s.gapAt p (1 / 2) ∧
      (∃ t ∈ Set.Icc (0 : ℚ) 1, Pos.Within 8 p (s.along t)) ∧
      hits ⟨300, 50⟩ ⟨100, 50⟩ p = true ∧ hits ⟨100, 50⟩ ⟨300, 50⟩ ⟨310, 50⟩ = false := by
  intro v s p hits
  have hhalf : (1 / 2 : ℝ) ∈ Set.Icc (0 : ℝ) 1 := ⟨by norm_num, by norm_num⟩
  have hhit : hits ⟨100, 50⟩ ⟨300, 50⟩ p = true := by decide +kernel
  obtain ⟨⟨-, hnearest⟩, hpoint, ⟨-, hswapped⟩, -⟩ :=
    trendline_hit_iff_point_within s v ⟨100, 50⟩ ⟨300, 50⟩ p 8
  obtain ⟨a', b', ha, hb, hwithin⟩ := hpoint.mp hhit
  obtain rfl : (⟨100, 50⟩ : Pos ℚ) = a' := Option.some.inj ((by decide +kernel : _ = _).trans ha)
  obtain rfl : (⟨300, 50⟩ : Pos ℚ) = b' := Option.some.inj ((by decide +kernel : _ = _).trans hb)
  exact ⟨hhalf, hnearest _ hhalf, hwithin, hswapped.trans hhit, by decide +kernel⟩

end Geometry

end MarketSketch
