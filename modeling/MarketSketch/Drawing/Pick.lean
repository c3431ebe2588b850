import MarketSketch.Drawing.Shape

/-!
Picking a shape under the pointer: a level or a trend line within the tolerance, a zone inside its
bounds. Of several the one created last is picked.
-/

namespace MarketSketch

def defaultTolerance : Float := Double.ofNat 8

namespace Projected

variable {α : Type} [Scalar α]

def hit (g : Projected α) (tolerance : α) (p : Pos α) : Bool :=
  match g with
  | line y => Scalar.reaches 0 (p.y - y) tolerance
  | segment s => p.near (s.foot p) tolerance
  | box r => r.contains p

end Projected

namespace Geometry

variable {α : Type} [Scalar α]

def hit (g : Geometry α) (v : Viewport α) (tolerance : α) (p : Pos α) : Bool :=
  match g.project? v with
  | some projected => projected.hit tolerance p
  | none => false

end Geometry

def topmost? (shapes : List Shape) (v : ChartView) (tolerance : Float) (p : Pixel) :
    Option Shape :=
  shapes.reverse.find? fun s => s.geometry.hit v tolerance p

end MarketSketch
