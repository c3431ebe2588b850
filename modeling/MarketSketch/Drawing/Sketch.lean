import MarketSketch.Drawing.Pick
import MarketSketch.Drawing.Store
import MarketSketch.Drawing.Tool

/-!
The user's sketch: the stored shapes, the tool in hand, the selection and the gesture under way.
Pointer events come in pixels and are mapped through the viewport; one without a point of the chart
is ignored and leaves the gesture as it was.
-/

namespace MarketSketch

/-- A drag keeps the shape it started from; every move applies the whole distance to it. -/
inductive Gesture where
  | idle
  | drawing (anchor : ChartPoint) (draft : Shape)
  | dragging (id : String) (anchor : ChartPoint) (snapshot : Shape)
deriving DecidableEq

namespace Gesture

def isIdle : Gesture → Bool
  | idle => true
  | _ => false

def draft? : Gesture → Option Shape
  | drawing _ draft => some draft
  | _ => none

end Gesture

inductive Outcome where
  | ignored
  | created (id : String)
  | draftStarted
  | draftUpdated
  | committed (id : String)
  | dragStarted (id : String)
  | dragged (id : String)
  | dragEnded (id : String)
  | selectionCleared
deriving DecidableEq, Repr

namespace Outcome

def changed : Outcome → Bool
  | ignored => false
  | _ => true

def name : Outcome → String
  | ignored => "ignored"
  | created _ => "created"
  | draftStarted => "draft-started"
  | draftUpdated => "draft-updated"
  | committed _ => "committed"
  | dragStarted _ => "drag-started"
  | dragged _ => "dragged"
  | dragEnded _ => "drag-ended"
  | selectionCleared => "selection-cleared"

def id? : Outcome → Option String
  | created id | committed id | dragStarted id | dragged id | dragEnded id => some id
  | _ => none

def settled? : Outcome → Option String
  | committed id | dragEnded id => some id
  | _ => none

end Outcome

structure Sketch where
  store : Store
  tool : Tool := .select
  gesture : Gesture := .idle
  selected : Option String := none
  tolerance : Float
deriving DecidableEq

namespace Sketch

def isIdle (s : Sketch) : Bool := s.gesture.isIdle

def withStore (s : Sketch) (store : Store) : Sketch := { s with store := store }

def newShape (m : Moment) (g : ChartGeometry) : Shape := ⟨m.freshId, m.now, none, g⟩

def pruned (s : Sketch) : Sketch :=
  match s.selected with
  | some id => if s.store.contains id then s else { s with selected := none }
  | none => s

/-- Ends the gesture without its result: a draft is dropped, a drag put back where it started. -/
def cancel (s : Sketch) : Turn Sketch Bool :=
  match s.gesture with
  | .idle => ⟨s, false, []⟩
  | .drawing _ _ => ⟨{ s with gesture := .idle }, true, []⟩
  | .dragging _ _ snapshot =>
    let back := s.store.replace snapshot
    ⟨{ s with gesture := .idle, store := back.state }, true, back.effects⟩

def setTool (s : Sketch) (tool : Tool) : Turn Sketch Unit :=
  let c := s.cancel
  let selected := if tool = .select then c.state.selected else none
  ⟨{ c.state with tool := tool, selected := selected }, (), c.effects⟩

def placeLevel (s : Sketch) (m : Moment) (p : ChartPoint) : Turn Sketch Outcome :=
  let shape := newShape m (.level p.price)
  let added := s.store.add shape
  ⟨{ s with store := added.state, selected := some shape.id }, .created shape.id,
    .takeId :: added.effects⟩

def startDraft (s : Sketch) (m : Moment) (kind : ShapeKind) (p : ChartPoint) :
    Turn Sketch Outcome :=
  ⟨{ s with gesture := .drawing p (newShape m (Geometry.anchored kind p)) }, .draftStarted,
    [.takeId]⟩

/-- Selects the shape under the pointer and takes hold of it; beside all shapes nothing is
selected. -/
def grab (s : Sketch) (v : ChartView) (at_ : Pixel) (p : ChartPoint) : Turn Sketch Outcome :=
  match topmost? s.store.shapes v s.tolerance at_ with
  | some shape =>
    ⟨{ s with selected := some shape.id, gesture := .dragging shape.id p shape },
      .dragStarted shape.id, []⟩
  | none => ⟨{ s with selected := none }, .selectionCleared, []⟩

def pointerDown (s : Sketch) (m : Moment) (v : ChartView) (at_ : Pixel) : Turn Sketch Outcome :=
  if !s.isIdle then ⟨s, .ignored, []⟩
  else
    match v.toPoint? at_ with
    | none => ⟨s, .ignored, []⟩
    | some p =>
      match s.tool.creates? with
      | none => s.grab v at_ p
      | some .level => s.placeLevel m p
      | some kind => s.startDraft m kind p

def track (s : Sketch) (p : ChartPoint) : Turn Sketch Outcome :=
  match s.gesture with
  | .idle => ⟨s, .ignored, []⟩
  | .drawing anchor draft =>
    ⟨{ s with gesture := .drawing anchor (draft.withEnd p) }, .draftUpdated, []⟩
  | .dragging id anchor snapshot =>
    let moved := snapshot.translated (p.time - anchor.time) (p.price - anchor.price)
    let placed := s.store.replace moved
    ⟨{ s with store := placed.state }, .dragged id, placed.effects⟩

def pointerMove (s : Sketch) (v : ChartView) (at_ : Pixel) : Turn Sketch Outcome :=
  if s.isIdle then ⟨s, .ignored, []⟩
  else
    match v.toPoint? at_ with
    | none => ⟨s, .ignored, []⟩
    | some p => s.track p

/-- Ends the gesture with its result: a draft becomes a shape, a drag stays where it is. -/
def release (s : Sketch) : Turn Sketch Outcome :=
  match s.gesture with
  | .idle => ⟨s, .ignored, []⟩
  | .drawing _ draft =>
    let added := s.store.add draft
    ⟨{ s with gesture := .idle, store := added.state, selected := some draft.id },
      .committed draft.id, added.effects⟩
  | .dragging id _ _ => ⟨{ s with gesture := .idle }, .dragEnded id, []⟩

/-- A release off the plot ends the gesture where it was last. -/
def pointerUp (s : Sketch) (v : ChartView) (at_ : Pixel) : Turn Sketch Outcome :=
  match v.toPoint? at_ with
  | none => s.release
  | some p =>
    let tracked := s.track p
    tracked.state.release.after tracked.effects

def undo (s : Sketch) : Turn Sketch (Option Shape) :=
  let c := s.cancel
  let removed := c.state.store.undo
  ⟨(c.state.withStore removed.state).pruned, removed.reply, c.effects ++ removed.effects⟩

def clear (s : Sketch) : Turn Sketch Unit :=
  let c := s.cancel
  let emptied := c.state.store.clear
  ⟨(c.state.withStore emptied.state).pruned, (), c.effects ++ emptied.effects⟩

def select (s : Sketch) (id : String) : Turn Sketch Bool :=
  if s.store.contains id then ⟨{ s with selected := some id }, true, []⟩ else ⟨s, false, []⟩

def clearSelection (s : Sketch) : Sketch := { s with selected := none }

end Sketch

end MarketSketch
