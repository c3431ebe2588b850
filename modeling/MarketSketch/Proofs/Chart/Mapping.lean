import MarketSketch.Chart.Viewport
import Mathlib.Order.Interval.Set.Basic
import Mathlib.Tactic.FieldSimp
import Mathlib.Tactic.Linarith
import Mathlib.Tactic.Ring

/-! The mapping between the plot and the window, over the rationals, where it is exact. On each axis
a distance is scaled by the ratio of the two extents, so the two conversions of the axis are inverse
to each other, and a pixel has a point exactly if that point is in the window and has the pixel. -/

namespace MarketSketch

namespace Scalar

theorem below_iff {x y : ℚ} : below x y = true ↔ x < y := Iff.rfl

theorem atMost_iff {x y : ℚ} : atMost x y = true ↔ x ≤ y := by
  have hle : x ≤ y ↔ y.blt x = false := Iff.rfl
  have hatMost : atMost x y = !y.blt x := rfl
  rw [hatMost, Bool.not_eq_true', hle]

theorem within_iff {low high x : ℚ} : within low high x = true ↔ x ∈ Set.Icc low high := by
  unfold within
  rw [Bool.and_eq_true, atMost_iff, atMost_iff, Set.mem_Icc]

end Scalar

namespace Viewport

section Scale

variable {d r w : ℚ}

theorem scaled_scaled (hr : 0 < r) (hw : 0 < w) (d : ℚ) : d * (w / r) * (r / w) = d := by
  field_simp

theorem scaled_mem (hr : 0 < r) (hw : 0 < w) : d * (w / r) ∈ Set.Icc 0 w ↔ d ∈ Set.Icc 0 r := by
  have hscale : 0 < w / r := div_pos hw hr
  have hend : r * (w / r) = w := by field_simp
  have hzero : 0 ≤ d * (w / r) ↔ 0 ≤ d := mul_nonneg_iff_of_pos_right hscale
  have hlast : d * (w / r) ≤ r * (w / r) ↔ d ≤ r := mul_le_mul_iff_left₀ hscale
  rw [hend] at hlast
  rw [Set.mem_Icc, Set.mem_Icc, hzero, hlast]

end Scale

def Plot (v : Viewport ℚ) (p : Pos ℚ) : Prop :=
  p.x ∈ Set.Icc 0 v.width ∧ p.y ∈ Set.Icc 0 v.height

def Window (v : Viewport ℚ) (q : Point ℚ) : Prop :=
  q.time ∈ Set.Icc v.startTime v.endTime ∧ q.price ∈ Set.Icc v.minPrice v.maxPrice

/-- No conversion of the viewport answers. -/
structure Unmapped {α : Type} [Scalar α] (v : Viewport α) : Prop where
  x : ∀ time, v.x? time = none
  y : ∀ price, v.y? price = none
  time : ∀ x, v.time? x = none
  price : ∀ y, v.price? y = none
  toPixel : ∀ q, v.toPixel? q = none
  toPoint : ∀ p, v.toPoint? p = none

theorem unmapped_of_invalid {α : Type} [Scalar α] {v : Viewport α} (h : v.valid = false) :
    v.Unmapped := by
  have hx (time : α) : v.x? time = none := by simp [x?, h]
  have htime (x : α) : v.time? x = none := by simp [time?, h]
  exact ⟨hx, fun price => by simp [y?, h], htime, fun y => by simp [price?, h],
    fun q => by simp [toPixel?, hx], fun p => by simp [toPoint?, htime]⟩

section Valid

variable {v : Viewport ℚ} {t x c y : ℚ} {p : Pos ℚ} {q : Point ℚ}

theorem valid_iff : v.valid = true ↔
    (v.startTime < v.endTime ∧ v.minPrice < v.maxPrice) ∧ 0 < v.width ∧ 0 < v.height := by
  have htimes : Scalar.below 0 v.timeRange = true ↔ v.startTime < v.endTime :=
    Scalar.below_iff.trans sub_pos
  have hprices : Scalar.below 0 v.priceRange = true ↔ v.minPrice < v.maxPrice :=
    Scalar.below_iff.trans sub_pos
  have hfinite : [v.startTime, v.endTime, v.minPrice, v.maxPrice, v.width, v.height].all
      Scalar.finite = true := rfl
  unfold valid
  rw [hfinite, Bool.true_and, Bool.and_eq_true, Bool.and_eq_true, Bool.and_eq_true, htimes, hprices,
    and_assoc]
  exact Iff.rfl

theorem xOfTime_eq (v : Viewport ℚ) (t : ℚ) :
    v.xOfTime t = (t - v.startTime) * (v.width / (v.endTime - v.startTime)) := rfl

theorem yOfPrice_eq (v : Viewport ℚ) (c : ℚ) :
    v.yOfPrice c = (v.maxPrice - c) * (v.height / (v.maxPrice - v.minPrice)) := rfl

theorem timeOfX_eq (v : Viewport ℚ) (x : ℚ) :
    v.timeOfX x = v.startTime + x * ((v.endTime - v.startTime) / v.width) := rfl

theorem priceOfY_eq (v : Viewport ℚ) (y : ℚ) :
    v.priceOfY y = v.maxPrice - y * ((v.maxPrice - v.minPrice) / v.height) := rfl

variable (hv : v.valid = true)
include hv

theorem x?_of_valid (t : ℚ) : v.x? t = some (v.xOfTime t) := by
  unfold x?
  rw [hv]
  rfl

theorem y?_of_valid (c : ℚ) : v.y? c = some (v.yOfPrice c) := by
  unfold y?
  rw [hv]
  rfl

theorem time?_of_valid : v.time? x = some t ↔ x ∈ Set.Icc 0 v.width ∧ v.timeOfX x = t := by
  have honPlot : onPlot x v.width = true ↔ x ∈ Set.Icc 0 v.width := Scalar.within_iff
  have hfinite : finite? (v.timeOfX x) = some (v.timeOfX x) := rfl
  unfold time?
  rw [hv, Bool.true_and, hfinite, ← honPlot]
  simp

theorem price?_of_valid : v.price? y = some c ↔ y ∈ Set.Icc 0 v.height ∧ v.priceOfY y = c := by
  have honPlot : onPlot y v.height = true ↔ y ∈ Set.Icc 0 v.height := Scalar.within_iff
  have hfinite : finite? (v.priceOfY y) = some (v.priceOfY y) := rfl
  unfold price?
  rw [hv, Bool.true_and, hfinite, ← honPlot]
  simp

theorem time?_eq_some_iff :
    v.time? x = some t ↔ t ∈ Set.Icc v.startTime v.endTime ∧ v.xOfTime t = x := by
  obtain ⟨⟨htimes, -⟩, hwidth, -⟩ := valid_iff.mp hv
  have hrange : 0 < v.endTime - v.startTime := sub_pos.mpr htimes
  have hmem : v.xOfTime t ∈ Set.Icc 0 v.width ↔ t ∈ Set.Icc v.startTime v.endTime := by
    rw [xOfTime_eq, scaled_mem hrange hwidth, Set.mem_Icc, Set.mem_Icc, sub_nonneg,
      sub_le_sub_iff_right]
  have hinverse : v.timeOfX x = t ↔ v.xOfTime t = x := by
    constructor
    · rintro rfl
      rw [xOfTime_eq, timeOfX_eq, add_sub_cancel_left, scaled_scaled hwidth hrange]
    · rintro rfl
      rw [xOfTime_eq, timeOfX_eq, scaled_scaled hrange hwidth, add_sub_cancel]
  rw [time?_of_valid hv, hinverse, ← hmem]
  exact and_congr_left fun hx => by rw [hx]

theorem price?_eq_some_iff :
    v.price? y = some c ↔ c ∈ Set.Icc v.minPrice v.maxPrice ∧ v.yOfPrice c = y := by
  obtain ⟨⟨-, hprices⟩, -, hheight⟩ := valid_iff.mp hv
  have hrange : 0 < v.maxPrice - v.minPrice := sub_pos.mpr hprices
  have hmem : v.yOfPrice c ∈ Set.Icc 0 v.height ↔ c ∈ Set.Icc v.minPrice v.maxPrice := by
    rw [yOfPrice_eq, scaled_mem hrange hheight, Set.mem_Icc, Set.mem_Icc, sub_nonneg,
      sub_le_sub_iff_left]
    exact and_comm
  have hinverse : v.priceOfY y = c ↔ v.yOfPrice c = y := by
    constructor
    · rintro rfl
      rw [yOfPrice_eq, priceOfY_eq, sub_sub_cancel, scaled_scaled hheight hrange]
    · rintro rfl
      rw [yOfPrice_eq, priceOfY_eq, scaled_scaled hrange hheight, sub_sub_cancel]
  rw [price?_of_valid hv, hinverse, ← hmem]
  exact and_congr_left fun hy => by rw [hy]

theorem toPixel?_of_valid (q : Point ℚ) :
    v.toPixel? q = some ⟨v.xOfTime q.time, v.yOfPrice q.price⟩ := by
  unfold toPixel?
  rw [x?_of_valid hv, y?_of_valid hv]

omit hv in
theorem toPoint?_axes :
    v.toPoint? p = some q ↔ v.time? p.x = some q.time ∧ v.price? p.y = some q.price := by
  obtain ⟨time, price⟩ := q
  unfold toPoint?
  cases v.time? p.x <;> cases v.price? p.y <;> simp

theorem toPoint?_eq_some_iff : v.toPoint? p = some q ↔ v.Window q ∧ v.toPixel? q = some p := by
  obtain ⟨x, y⟩ := p
  rw [toPoint?_axes, time?_eq_some_iff hv, price?_eq_some_iff hv, toPixel?_of_valid hv,
    Option.some.injEq, Pos.mk.injEq]
  exact and_and_and_comm

theorem isSome_toPoint?_iff : (v.toPoint? p).isSome = true ↔ v.Plot p := by
  rw [Option.isSome_iff_exists]
  constructor
  · rintro ⟨q, hq⟩
    obtain ⟨htime, hprice⟩ := toPoint?_axes.mp hq
    exact ⟨((time?_of_valid hv).mp htime).1, ((price?_of_valid hv).mp hprice).1⟩
  · rintro ⟨hx, hy⟩
    have htime := (time?_of_valid hv).mpr ⟨hx, rfl⟩
    have hprice := (price?_of_valid hv).mpr ⟨hy, rfl⟩
    exact ⟨⟨_, _⟩, toPoint?_axes.mpr ⟨htime, hprice⟩⟩

theorem xOfTime_strictMono : StrictMono v.xOfTime := by
  obtain ⟨⟨htimes, -⟩, hwidth, -⟩ := valid_iff.mp hv
  have hscale : 0 < v.width / (v.endTime - v.startTime) := div_pos hwidth (sub_pos.mpr htimes)
  intro t u htu
  rw [xOfTime_eq, xOfTime_eq]
  exact mul_lt_mul_of_pos_right (sub_lt_sub_right htu _) hscale

theorem yOfPrice_strictAnti : StrictAnti v.yOfPrice := by
  obtain ⟨⟨-, hprices⟩, -, hheight⟩ := valid_iff.mp hv
  have hscale : 0 < v.height / (v.maxPrice - v.minPrice) := div_pos hheight (sub_pos.mpr hprices)
  intro c d hcd
  rw [yOfPrice_eq, yOfPrice_eq]
  exact mul_lt_mul_of_pos_right (sub_lt_sub_left hcd _) hscale

end Valid

/-- On a valid viewport the plot and the window stand in one-to-one correspondence: a pixel has a
point exactly on the plot, these points are exactly those of the window, and there and back again
nothing moves. Every time has an `x` that grows with it, every price a `y` that falls. On any other
viewport, also over floating-point numbers, nothing is converted. -/
theorem plot_corresponds_to_window (v : Viewport ℚ) :
    (v.valid = true →
      (∀ p, (v.toPoint? p).isSome = true ↔ v.Plot p) ∧
      (∀ q, (∃ p, v.toPoint? p = some q) ↔ v.Window q) ∧
      (∀ p, v.Plot p → (v.toPoint? p).bind v.toPixel? = some p) ∧
      (∀ q, v.Window q → (v.toPixel? q).bind v.toPoint? = some q) ∧
      (∃ f, StrictMono f ∧ ∀ t, v.x? t = some (f t)) ∧
      ∃ f, StrictAnti f ∧ ∀ c, v.y? c = some (f c)) ∧
    ∀ {α : Type} [Scalar α] (w : Viewport α), w.valid = false → w.Unmapped := by
  refine ⟨fun hv => ?_, fun w => unmapped_of_invalid⟩
  have hpoint {p : Pos ℚ} {q : Point ℚ} :
      v.toPoint? p = some q ↔ v.Window q ∧ v.toPixel? q = some p := toPoint?_eq_some_iff hv
  have hpixel (q : Point ℚ) := toPixel?_of_valid hv q
  refine ⟨fun p => isSome_toPoint?_iff hv, fun q => ?_, fun p hp => ?_, fun q hq => ?_,
    ⟨v.xOfTime, xOfTime_strictMono hv, x?_of_valid hv⟩,
    ⟨v.yOfPrice, yOfPrice_strictAnti hv, y?_of_valid hv⟩⟩
  · constructor
    · rintro ⟨p, hp⟩
      exact (hpoint.mp hp).1
    · intro hq
      exact ⟨_, hpoint.mpr ⟨hq, hpixel q⟩⟩
  · obtain ⟨q, hq⟩ := Option.isSome_iff_exists.mp ((isSome_toPoint?_iff hv).mpr hp)
    rw [hq, Option.bind_some, (hpoint.mp hq).2]
  · rw [hpixel q, Option.bind_some, hpoint]
    exact ⟨hq, hpixel q⟩

theorem plot_corresponds_to_window_of_week :
    let v : Viewport ℚ := ⟨0, 604800, -1 / 2, 1 / 4, 700, 300⟩
    let backwards : ChartView := ⟨Double.ofNat 9, Double.ofNat 1, Double.ofNat 0, Double.ofNat 1,
      Double.ofNat 800, Double.ofNat 600⟩
    v.valid = true ∧ v.toPoint? ⟨350, 300⟩ = some ⟨302400, -1 / 2⟩ ∧
      (v.toPixel? ⟨302400, -1 / 2⟩).bind v.toPoint? = some ⟨302400, -1 / 2⟩ ∧
      v.toPoint? ⟨701, 0⟩ = none ∧ backwards.valid = false ∧
      backwards.toPixel? ⟨Double.ofNat 5, Double.ofNat 0⟩ = none := by
  intro v backwards
  have hv : v.valid = true := by decide +kernel
  have hbackwards : backwards.valid = false := by decide +kernel
  obtain ⟨hsome, hwindow, -, hback, -⟩ := (plot_corresponds_to_window v).1 hv
  have hpoint : v.toPoint? ⟨350, 300⟩ = some ⟨302400, -1 / 2⟩ := by decide +kernel
  have hoff : ¬ v.Plot ⟨701, 0⟩ := by
    rintro ⟨⟨-, hx⟩, -⟩
    exact absurd hx (by decide +kernel)
  refine ⟨hv, hpoint, hback _ ((hwindow _).mp ⟨_, hpoint⟩), ?_, hbackwards,
    ((plot_corresponds_to_window v).2 backwards hbackwards).toPixel _⟩
  exact Option.not_isSome_iff_eq_none.mp (mt (hsome _).mp hoff)

end Viewport

end MarketSketch
