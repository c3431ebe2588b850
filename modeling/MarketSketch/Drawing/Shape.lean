import MarketSketch.Chart.Viewport

/-!
Shapes on the chart, anchored in time and price: horizontal levels, trend lines and zones. All that
depends on the kind of a shape goes through `Geometry.project?` and `Geometry.translated`.
-/

namespace MarketSketch

inductive ShapeKind where
  | level
  | trendline
  | zone
deriving DecidableEq, Repr

namespace ShapeKind

def all : List ShapeKind := [level, trendline, zone]

def name : ShapeKind → String
  | level => "level"
  | trendline => "trendline"
  | zone => "zone"

def ofName? (text : String) : Option ShapeKind := all.find? (·.name = text)

theorem ofName?_name (k : ShapeKind) : ofName? k.name = some k := by cases k <;> decide

end ShapeKind

/-- A level runs across the whole plot; the ends of a zone are two opposite corners. -/
inductive Geometry (α : Type) where
  | level (price : α)
  | trendline (a b : Point α)
  | zone (a b : Point α)
deriving DecidableEq, Repr

inductive Projected (α : Type) where
  | line (y : α)
  | segment (s : Segment α)
  | box (r : Rect α)
deriving DecidableEq, Repr

abbrev ChartGeometry := Geometry Float

namespace Geometry

variable {α : Type} [Scalar α]

def kind : Geometry α → ShapeKind
  | level _ => .level
  | trendline _ _ => .trendline
  | zone _ _ => .zone

def anchored (k : ShapeKind) (p : Point α) : Geometry α :=
  match k with
  | .level => level p.price
  | .trendline => trendline p p
  | .zone => zone p p

def finite : Geometry α → Bool
  | level price => Scalar.finite price
  | trendline a b | zone a b => a.finite && b.finite

def translated (g : Geometry α) (dt dp : α) : Geometry α :=
  match g with
  | level price => level (price + dp)
  | trendline a b => trendline (a.translated dt dp) (b.translated dt dp)
  | zone a b => zone (a.translated dt dp) (b.translated dt dp)

def withEnd (g : Geometry α) (p : Point α) : Geometry α :=
  match g with
  | level _ => level p.price
  | trendline a _ => trendline a p
  | zone a _ => zone a p

def project? (g : Geometry α) (v : Projection α) : Option (Projected α) :=
  match g with
  | level price => (v.y? price).map .line
  | trendline a b =>
    match v.toPixel? a, v.toPixel? b with
    | some a, some b => some (.segment ⟨a, b⟩)
    | _, _ => none
  | zone a b =>
    match v.toPixel? a, v.toPixel? b with
    | some a, some b => some (.box (Rect.ofCorners a b))
    | _, _ => none

end Geometry

/-- A shape with its identity; `createdAt` is in milliseconds. -/
structure Shape where
  id : String
  createdAt : Int
  label : Option String
  geometry : ChartGeometry
deriving DecidableEq

namespace Shape

def kind (s : Shape) : ShapeKind := s.geometry.kind

def translated (s : Shape) (dt dp : Float) : Shape :=
  { s with geometry := s.geometry.translated dt dp }

def withEnd (s : Shape) (p : ChartPoint) : Shape := { s with geometry := s.geometry.withEnd p }

end Shape

inductive Tone where
  | gold
  | green
deriving DecidableEq, Repr

namespace Tone

def name : Tone → String
  | gold => "gold"
  | green => "green"

def ofName? : String → Option Tone
  | "gold" => some gold
  | "green" => some green
  | _ => none

end Tone

structure EngineShape where
  shape : Shape
  tone : Tone
deriving DecidableEq

namespace EngineShape

def readOnly (_ : EngineShape) : Bool := true

end EngineShape

end MarketSketch
