import MarketSketch.Chart.Plane
import MarketSketch.Json.Value

/-!
The visible window of the chart: time in seconds along x, price growing upward along y.
`Viewport.toPixel?` and `Viewport.toPoint?` are the two directions of the mapping. Any finite point
has a pixel, off the plot too; only the plot itself has points.
-/

namespace MarketSketch

structure Point (α : Type) where
  time : α
  price : α
deriving DecidableEq, Repr

structure Viewport (α : Type) where
  startTime : α
  endTime : α
  minPrice : α
  maxPrice : α
  width : α
  height : α
deriving DecidableEq, Repr

abbrev ChartPoint := Point Float

abbrev ChartView := Viewport Float

namespace Point

variable {α : Type} [Scalar α]

def finite (p : Point α) : Bool := Scalar.finite p.time && Scalar.finite p.price

def translated (p : Point α) (dt dp : α) : Point α := ⟨p.time + dt, p.price + dp⟩

end Point

namespace Viewport

variable {α : Type} [Scalar α]

def sized (width height : Float) : ChartView :=
  ⟨Double.ofNat 0, Double.ofNat 0, Double.ofNat 0, Double.ofNat 100, width, height⟩

def initial : ChartView := sized (Double.ofNat 800) (Double.ofNat 600)

def timeRange (v : Viewport α) : α := v.endTime - v.startTime

def priceRange (v : Viewport α) : α := v.maxPrice - v.minPrice

def valid (v : Viewport α) : Bool :=
  [v.startTime, v.endTime, v.minPrice, v.maxPrice, v.width, v.height].all Scalar.finite &&
    Scalar.below 0 v.timeRange && Scalar.below 0 v.priceRange && Scalar.below 0 v.width &&
    Scalar.below 0 v.height

def xOfTime (v : Viewport α) (time : α) : α := (time - v.startTime) * (v.width / v.timeRange)

/-- Price to pixels: a higher price has a smaller `y`. -/
def yOfPrice (v : Viewport α) (price : α) : α := (v.maxPrice - price) * (v.height / v.priceRange)

def timeOfX (v : Viewport α) (x : α) : α := v.startTime + x * (v.timeRange / v.width)

def priceOfY (v : Viewport α) (y : α) : α := v.maxPrice - y * (v.priceRange / v.height)

def finite? (x : α) : Option α := if Scalar.finite x then some x else none

def onPlot (x extent : α) : Bool := Scalar.finite x && Scalar.within 0 extent x

def x? (v : Viewport α) (time : α) : Option α :=
  if v.valid && Scalar.finite time then finite? (v.xOfTime time) else none

def y? (v : Viewport α) (price : α) : Option α :=
  if v.valid && Scalar.finite price then finite? (v.yOfPrice price) else none

def time? (v : Viewport α) (x : α) : Option α :=
  if v.valid && onPlot x v.width then finite? (v.timeOfX x) else none

def price? (v : Viewport α) (y : α) : Option α :=
  if v.valid && onPlot y v.height then finite? (v.priceOfY y) else none

def toPixel? (v : Viewport α) (p : Point α) : Option (Pos α) :=
  match v.x? p.time, v.y? p.price with
  | some x, some y => some ⟨x, y⟩
  | _, _ => none

def toPoint? (v : Viewport α) (p : Pos α) : Option (Point α) :=
  match v.time? p.x, v.price? p.y with
  | some time, some price => some ⟨time, price⟩
  | _, _ => none

def toJson (v : ChartView) : Json.Value :=
  .object [("startTime", .real v.startTime), ("endTime", .real v.endTime),
    ("minPrice", .real v.minPrice), ("maxPrice", .real v.maxPrice), ("width", .real v.width),
    ("height", .real v.height)]

end Viewport

/-- A way from the chart to a plot: heights for prices, pixels for points, and the plot's extent. A
viewport is one. -/
structure Projection (α : Type) where
  y? : α → Option α
  toPixel? : Point α → Option (Pos α)
  width : α
  height : α

def Viewport.projection {α : Type} [Scalar α] (v : Viewport α) : Projection α :=
  ⟨v.y?, v.toPixel?, v.width, v.height⟩

instance {α : Type} [Scalar α] : Coe (Viewport α) (Projection α) := ⟨Viewport.projection⟩

@[simp] theorem Viewport.projection_toPixel? {α : Type} [Scalar α] (v : Viewport α) :
    v.projection.toPixel? = v.toPixel? := rfl

structure Bridge where
  viewport : ChartView := Viewport.initial
  revision : Nat := 0

namespace Bridge

def report (b : Bridge) (v : ChartView) : Bridge := ⟨v, b.revision + 1⟩

end Bridge

end MarketSketch
