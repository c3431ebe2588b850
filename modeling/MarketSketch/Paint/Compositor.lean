import MarketSketch.Drawing.Shape
import MarketSketch.Failure
import MarketSketch.Paint.Style

/-!
A frame as a list of calls to a surface, back to front: the analysis shapes, the user's shapes, then
the dashed draft. `Frame.render` makes the calls one by one; a call that fails ends the frame, but
the dash of a draft is put back first.
-/

namespace MarketSketch

/-- What a surface can be asked to do. Setting the dash and writing text may fail. -/
inductive Call where
  | clear (width height : Float)
  | stroke (c : Color) (width : Float)
  | fill (c : Color)
  | dash (pattern : List Float)
  | line (a b : Pixel)
  | fillRect (r : PixelRect)
  | strokeRect (r : PixelRect)
  | text (text : String) (at_ : Pixel) (font : String)
deriving DecidableEq

structure Frame where
  engine : List EngineShape := []
  user : List Shape := []
  draft? : Option Shape := none
  selected : Option String := none
deriving DecidableEq

structure Paint where
  stroke : Color
  fill : Color
  width : Float
deriving DecidableEq

namespace Style

def enginePaint (s : Style) (tone : Tone) : Paint :=
  ⟨s.toneColor tone, (s.toneColor tone).withAlpha s.engineFillAlpha, s.lineWidth⟩

def userPaint (s : Style) : Paint :=
  ⟨s.userColor, s.userColor.withAlpha s.userFillAlpha, s.lineWidth⟩

def highlightPaint (s : Style) : Paint :=
  ⟨s.highlightColor, s.highlightColor.withAlpha s.userFillAlpha, s.highlightLineWidth⟩

end Style

def leastExtent : Float := Double.ofNat 1

def outline (g : Projected Float) (p : Paint) (plotWidth pad : Float) : List Call × Pixel :=
  match g with
  | .line y => ([.line ⟨Double.ofNat 0, y⟩ ⟨plotWidth, y⟩], ⟨pad, y - pad⟩)
  | .segment ⟨a, b⟩ =>
    let b := if a.distance b < leastExtent then ⟨a.x + leastExtent, a.y⟩ else b
    ([.line a b], ⟨b.x + pad, b.y - pad⟩)
  | .box r =>
    let r := { r with
      right := Double.greater r.right (r.left + leastExtent)
      bottom := Double.greater r.bottom (r.top + leastExtent) }
    ([.fill p.fill, .fillRect r, .strokeRect r], ⟨r.left + pad, r.top - pad⟩)

def labelCalls (label : Option String) (p : Paint) (at_ : Pixel) (font : String) : List Call :=
  match label with
  | some text => if text.isEmpty then [] else [.fill p.stroke, .text text at_ font]
  | none => []

def shapeCalls? (s : Style) (v : Projection Float) (p : Paint) (shape : Shape) :
    Option (List Call) :=
  (shape.geometry.project? v).map fun g =>
    let (calls, at_) := outline g p v.width s.labelPadding
    .stroke p.stroke p.width :: calls ++ labelCalls shape.label p at_ s.labelFont

/-- A surface: what it does on a call, and the failure, if any. -/
abbrev Surface (σ : Type) := Call → σ → σ × Option Failure

def perform {σ : Type} (surface : Surface σ) : List Call → σ → σ × Option Failure
  | [], s => (s, none)
  | c :: rest, s =>
    match surface c s with
    | (s, none) => perform surface rest s
    | (s, some f) => (s, some f)

namespace Frame

def paintOf (f : Frame) (s : Style) (shape : Shape) : Paint :=
  if f.selected = some shape.id then s.highlightPaint else s.userPaint

def shapes (f : Frame) (s : Style) (v : Projection Float) : List (List Call) :=
  f.engine.filterMap (fun e => shapeCalls? s v (s.enginePaint e.tone) e.shape) ++
    f.user.filterMap fun shape => shapeCalls? s v (f.paintOf s shape) shape

def background (f : Frame) (s : Style) (v : Projection Float) : List Call :=
  .clear v.width v.height :: .dash [] :: (f.shapes s v).flatten

def draftCalls? (f : Frame) (s : Style) (v : Projection Float) : Option (List Call) :=
  f.draft?.bind (shapeCalls? s v s.userPaint)

def count (f : Frame) (s : Style) (v : Projection Float) : Nat :=
  (f.shapes s v).length + (f.draftCalls? s v).toList.length

/-- All calls of the frame on a surface that never fails. -/
def script (f : Frame) (s : Style) (v : Projection Float) : List Call :=
  f.background s v ++
    if f.draft?.isSome then .dash s.draftDash :: (f.draftCalls? s v).getD [] ++ [.dash []] else []

/-- Draws the frame: how many shapes were drawn, or the failure that ended it. -/
def render {σ : Type} (f : Frame) (s : Style) (v : Projection Float) (surface : Surface σ)
    (start : σ) : σ × Except Failure Nat :=
  match perform surface (f.background s v) start with
  | (s₁, some e) => (s₁, .error e)
  | (s₁, none) =>
    if f.draft?.isNone then (s₁, .ok (f.count s v))
    else
      match perform surface [.dash s.draftDash] s₁ with
      | (s₂, some e) => (s₂, .error e)
      | (s₂, none) =>
        let (s₃, drew) := perform surface ((f.draftCalls? s v).getD []) s₂
        let (s₄, reset) := perform surface [.dash []] s₃
        match reset.or drew with
        | some e => (s₄, .error e)
        | none => (s₄, .ok (f.count s v))

end Frame

end MarketSketch
