import MarketSketch.Chart.Scalar

/-!
The pixel plane: positions, rectangles with sides in order, and the point of a segment that is
nearest to a position. Distances are the lengths of difference vectors.
-/

namespace MarketSketch

structure Pos (α : Type) where
  x : α
  y : α
deriving DecidableEq, Repr

structure Rect (α : Type) where
  left : α
  top : α
  right : α
  bottom : α
deriving DecidableEq, Repr

abbrev Pixel := Pos Float

abbrev PixelRect := Rect Float

variable {α : Type} [Scalar α]

namespace Rect

def ofCorners (a b : Pos α) : Rect α :=
  ⟨Scalar.lesser a.x b.x, Scalar.lesser a.y b.y, Scalar.greater a.x b.x, Scalar.greater a.y b.y⟩

def width (r : Rect α) : α := r.right - r.left

def height (r : Rect α) : α := r.bottom - r.top

def contains (r : Rect α) (p : Pos α) : Bool :=
  Scalar.within r.left r.right p.x && Scalar.within r.top r.bottom p.y

end Rect

structure Segment (α : Type) where
  a : Pos α
  b : Pos α
deriving DecidableEq, Repr

namespace Segment

def along (s : Segment α) (t : α) : Pos α :=
  ⟨s.a.x + t * (s.b.x - s.a.x), s.a.y + t * (s.b.y - s.a.y)⟩

def lengthSquared (s : Segment α) : α :=
  (s.b.x - s.a.x) * (s.b.x - s.a.x) + (s.b.y - s.a.y) * (s.b.y - s.a.y)

/-- How far along the segment the foot of `p` lies, kept between the ends. -/
def footPart (s : Segment α) (p : Pos α) : α :=
  Scalar.clamp 0 1
    (((p.x - s.a.x) * (s.b.x - s.a.x) + (p.y - s.a.y) * (s.b.y - s.a.y)) / s.lengthSquared)

def degenerate (s : Segment α) : Bool :=
  Scalar.atMost s.lengthSquared 0 && Scalar.atMost 0 s.lengthSquared

def foot (s : Segment α) (p : Pos α) : Pos α :=
  if s.degenerate then s.a else s.along (s.footPart p)

end Segment

namespace Pos

def near (p q : Pos α) (bound : α) : Bool := Scalar.reaches (p.x - q.x) (p.y - q.y) bound

def distanceSquared (p q : Pos α) : α := (p.x - q.x) * (p.x - q.x) + (p.y - q.y) * (p.y - q.y)

def distance (p q : Pixel) : Float := Double.length (p.x - q.x) (p.y - q.y)

def distanceToSegment (p : Pixel) (s : Segment Float) : Float := p.distance (s.foot p)

end Pos

end MarketSketch
