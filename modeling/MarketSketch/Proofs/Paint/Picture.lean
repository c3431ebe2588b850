import MarketSketch.Paint.Recorder

/-! What a frame shows. The calls of a surface are read by a pen that keeps its colours and its dash
from one call to the next; the marks it leaves are those of a picture that knows of no pen. -/

namespace MarketSketch

structure Ink where
  color : Color
  width : Float
  dash : List Float
deriving DecidableEq

/-- What a surface keeps between two calls. -/
structure Pen where
  ink : Ink
  fill : Color
deriving DecidableEq

/-- What is seen of a call: a place, and the paint in force there. -/
inductive Mark where
  | cleared (width height : Float)
  | line (a b : Pixel) (ink : Ink)
  | filled (r : PixelRect) (fill : Color)
  | outlined (r : PixelRect) (ink : Ink)
  | written (text : String) (at_ : Pixel) (font : String) (fill : Color)
deriving DecidableEq

namespace Pen

def take (pen : Pen) : Call → Pen
  | .stroke c w => { pen with ink := { pen.ink with color := c, width := w } }
  | .fill c => { pen with fill := c }
  | .dash p => { pen with ink := { pen.ink with dash := p } }
  | .clear _ _ | .line _ _ | .fillRect _ | .strokeRect _ | .text _ _ _ => pen

def mark? (pen : Pen) : Call → Option Mark
  | .clear w h => some (.cleared w h)
  | .line a b => some (.line a b pen.ink)
  | .fillRect r => some (.filled r pen.fill)
  | .strokeRect r => some (.outlined r pen.ink)
  | .text t at_ font => some (.written t at_ font pen.fill)
  | .stroke _ _ | .fill _ | .dash _ => none

def after (pen : Pen) (calls : List Call) : Pen := calls.foldl take pen

def marks (pen : Pen) : List Call → List Mark
  | [] => []
  | c :: calls => (pen.mark? c).toList ++ (pen.take c).marks calls

variable (pen : Pen) (c : Call) (calls more : List Call)

@[simp] theorem after_nil : pen.after [] = pen := rfl

@[simp] theorem after_cons : pen.after (c :: calls) = (pen.take c).after calls := rfl

@[simp] theorem after_append : pen.after (calls ++ more) = (pen.after calls).after more :=
  List.foldl_append

@[simp] theorem marks_nil : pen.marks [] = [] := rfl

@[simp] theorem marks_cons :
    pen.marks (c :: calls) = (pen.mark? c).toList ++ (pen.take c).marks calls := rfl

@[simp] theorem marks_append :
    pen.marks (calls ++ more) = pen.marks calls ++ (pen.after calls).marks more := by
  induction calls generalizing pen with
  | nil => rfl
  | cons c calls ih => simp [ih]

end Pen

namespace Projected

def shown : Projected Float → Projected Float
  | line y => line y
  | segment ⟨a, b⟩ =>
    segment ⟨a, if a.distance b < leastExtent then ⟨a.x + leastExtent, a.y⟩ else b⟩
  | box r => box ⟨r.left, r.top, Double.greater r.right (r.left + leastExtent),
      Double.greater r.bottom (r.top + leastExtent)⟩

def labelPlace (pad : Float) : Projected Float → Pixel
  | line y => ⟨pad, y - pad⟩
  | segment ⟨_, b⟩ => ⟨b.x + pad, b.y - pad⟩
  | box r => ⟨r.left + pad, r.top - pad⟩

def body (plotWidth : Float) (ink : Ink) (fill : Color) : Projected Float → List Mark
  | line y => [.line ⟨Double.ofNat 0, y⟩ ⟨plotWidth, y⟩ ink]
  | segment ⟨a, b⟩ => [.line a b ink]
  | box r => [.filled r fill, .outlined r ink]

end Projected

/-- A shape with the paint and the dash that are its own. -/
structure Part where
  shape : Shape
  paint : Paint
  dash : List Float

namespace Part

def ink (a : Part) : Ink := ⟨a.paint.stroke, a.paint.width, a.dash⟩

def label (a : Part) (s : Style) (place : Pixel) : List Mark :=
  match a.shape.label with
  | some text =>
    if text.isEmpty then [] else [.written text place s.labelFont a.paint.stroke]
  | none => []

def marks? (a : Part) (s : Style) (v : Projection Float) : Option (List Mark) :=
  (a.shape.geometry.project? v).map fun g =>
    g.shown.body v.width a.ink a.paint.fill ++ a.label s (g.shown.labelPlace s.labelPadding)

end Part

namespace Frame

/-- Back to front: analysis in the colour of its tone, the user's shapes with the selected one
highlighted, and the draft in the user's colour. Only the draft is dashed. -/
def parts (f : Frame) (s : Style) : List Part :=
  let tone (e : EngineShape) : Part :=
    ⟨e.shape, ⟨s.toneColor e.tone, (s.toneColor e.tone).withAlpha s.engineFillAlpha,
      s.lineWidth⟩, []⟩
  let plain (dash : List Float) (u : Shape) : Part :=
    ⟨u, ⟨s.userColor, s.userColor.withAlpha s.userFillAlpha, s.lineWidth⟩, dash⟩
  let chosen (u : Shape) : Part :=
    ⟨u, ⟨s.highlightColor, s.highlightColor.withAlpha s.userFillAlpha,
      s.highlightLineWidth⟩, []⟩
  f.engine.map tone ++
    f.user.map (fun u => if f.selected = some u.id then chosen u else plain [] u) ++
    f.draft?.toList.map (plain s.draftDash)

def painted (f : Frame) (s : Style) (v : Projection Float) : List (List Mark) :=
  (f.parts s).filterMap (·.marks? s v)

/-- One clear, then the parts in order, each in its own paint. -/
def picture (f : Frame) (s : Style) (v : Projection Float) : List Mark :=
  .cleared v.width v.height :: (f.painted s v).flatten

end Frame

section Shape

variable {s : Style} {v : Projection Float}

theorem marks_labelCalls (pen : Pen) (a : Part) (place : Pixel) :
    pen.marks (labelCalls a.shape.label a.paint place s.labelFont) = a.label s place := by
  rcases h : a.shape.label with _ | text
  · simp [labelCalls, Part.label, h]
  · by_cases hempty : text.isEmpty <;>
      simp [labelCalls, Part.label, h, hempty, Pen.take, Pen.mark?]

theorem ink_after_labelCalls (pen : Pen) (label : Option String) (p : Paint) (place : Pixel)
    (font : String) : (pen.after (labelCalls label p place font)).ink = pen.ink := by
  rcases label with _ | text
  · rfl
  · by_cases hempty : text.isEmpty <;> simp [labelCalls, hempty, Pen.take]

theorem outline_marks (g : Projected Float) (pen : Pen) (p : Paint) (width pad : Float) :
    pen.marks (outline g p width pad).1 = g.shown.body width pen.ink p.fill ∧
      (pen.after (outline g p width pad).1).ink = pen.ink ∧
      (outline g p width pad).2 = g.shown.labelPlace pad := by
  cases g with
  | line y => exact ⟨rfl, rfl, rfl⟩
  | segment s => exact ⟨rfl, rfl, rfl⟩
  | box r => exact ⟨rfl, rfl, rfl⟩

theorem shapeCalls_marks (pen : Pen) (p : Paint) (shape : Shape) :
    (shapeCalls? s v p shape).map pen.marks = (Part.mk shape p pen.ink.dash).marks? s v ∧
      ∀ calls ∈ shapeCalls? s v p shape, (pen.after calls).ink.dash = pen.ink.dash := by
  let a : Part := ⟨shape, p, pen.ink.dash⟩
  let inked : Pen := ⟨a.ink, pen.fill⟩
  rcases hg : shape.geometry.project? v with _ | g
  · simp [shapeCalls?, Part.marks?, hg]
  obtain ⟨hbody, hink, hplace⟩ := outline_marks g inked p v.width s.labelPadding
  let drawn := (outline g p v.width s.labelPadding).1
  let named := labelCalls shape.label p (outline g p v.width s.labelPadding).2 s.labelFont
  have hcalls : shapeCalls? s v p shape =
      some (.stroke p.stroke p.width :: drawn ++ named) := by
    simp [shapeCalls?, hg, drawn, named]
  have htake : pen.take (.stroke p.stroke p.width) = inked := rfl
  constructor
  · have hnamed : (inked.after drawn).marks named =
        a.label s (g.shown.labelPlace s.labelPadding) := by
      rw [← hplace]
      exact marks_labelCalls (inked.after drawn) a _
    simp only [hcalls, Option.map_some, List.cons_append, Pen.marks_cons, htake, Pen.mark?,
      Option.toList_none, List.nil_append, Pen.marks_append, hnamed, Part.marks?, hg]
    rw [hbody]
  · intro calls h
    obtain rfl := Option.some.inj (hcalls.symm.trans h)
    have hafter : ((inked.after drawn).after named).ink = a.ink := by
      rw [ink_after_labelCalls, hink]
    simp only [List.cons_append, Pen.after_cons, htake, Pen.after_append, hafter]
    rfl

theorem layer_marks {α : Type} (shape : α → Shape) (paint : α → Paint) (xs : List α) (pen : Pen) :
    let calls := (xs.filterMap fun a => shapeCalls? s v (paint a) (shape a)).flatten
    pen.marks calls =
        (xs.filterMap fun a =>
          (Part.mk (shape a) (paint a) pen.ink.dash).marks? s v).flatten ∧
      (pen.after calls).ink.dash = pen.ink.dash := by
  induction xs generalizing pen with
  | nil => exact ⟨rfl, rfl⟩
  | cons a xs ih =>
    obtain ⟨hmarks, hdash⟩ := shapeCalls_marks (s := s) (v := v) pen (paint a) (shape a)
    rcases hcalls : shapeCalls? s v (paint a) (shape a) with _ | calls
    · rw [hcalls, Option.map_none] at hmarks
      simpa [List.filterMap_cons, hcalls, ← hmarks] using ih pen
    · have hkept : (pen.after calls).ink.dash = pen.ink.dash := hdash calls hcalls
      rw [hcalls, Option.map_some] at hmarks
      obtain ⟨hrest, hend⟩ := ih (pen.after calls)
      rw [hkept] at hrest hend
      simp only [List.filterMap_cons, hcalls, ← hmarks, List.flatten_cons, Pen.marks_append,
        Pen.after_append]
      exact ⟨congrArg _ hrest, hend⟩

end Shape

namespace Frame

variable (f : Frame) (s : Style) (v : Projection Float)

theorem background_marks (pen : Pen) :
    pen.marks (f.background s v) =
        .cleared v.width v.height ::
          ((f.engine.filterMap fun e =>
              (Part.mk e.shape (s.enginePaint e.tone) []).marks? s v).flatten ++
            (f.user.filterMap fun u => (Part.mk u (f.paintOf s u) []).marks? s v).flatten) ∧
      (pen.after (f.background s v)).ink.dash = [] := by
  let solid := pen.take (.dash [])
  obtain ⟨hengine, hsolid⟩ := layer_marks (s := s) (v := v) EngineShape.shape
    (fun e => s.enginePaint e.tone) f.engine solid
  obtain ⟨huser, hend⟩ := layer_marks (s := s) (v := v) id (f.paintOf s) f.user
    (solid.after (f.engine.filterMap fun e =>
      shapeCalls? s v (s.enginePaint e.tone) e.shape).flatten)
  rw [hsolid] at huser hend
  simp only [id_eq] at huser hend
  have hclear : (pen.take (.clear v.width v.height)).take (.dash []) = solid := rfl
  simp only [background, shapes, Pen.marks_cons, Pen.after_cons, hclear, List.flatten_append,
    Pen.marks_append, Pen.after_append, hengine, huser]
  exact ⟨rfl, hend⟩

end Frame

def Surface.recorded {σ : Type} (surface : Surface σ) : Surface (σ × List Call) := fun c x =>
  (((surface c x.1).1, x.2 ++ [c]), (surface c x.1).2)

section Surface

variable {σ : Type} {surface : Surface σ}

theorem perform_append (first more : List Call) (x : σ) :
    perform surface (first ++ more) x =
      match perform surface first x with
      | (y, none) => perform surface more y
      | (y, some e) => (y, some e) := by
  induction first generalizing x with
  | nil => rfl
  | cons c first ih =>
    simp only [List.cons_append, perform]
    rcases surface c x with ⟨y, _ | e⟩
    · exact ih y
    · rfl

theorem perform_recorded (surface : Surface σ) (calls : List Call) (x : σ) (past : List Call) :
    let r := perform surface.recorded calls (x, past)
    (r.1.1, r.2) = perform surface calls x ∧ (r.2 = none → r.1.2 = past ++ calls) := by
  induction calls generalizing x past with
  | nil => exact ⟨rfl, fun _ => (List.append_nil past).symm⟩
  | cons c calls ih =>
    rcases hc : surface c x with ⟨y, _ | e⟩
    · simpa [perform, Surface.recorded, hc] using ih y (past ++ [c])
    · simp [perform, Surface.recorded, hc]

theorem perform_of_willing (h : ∀ c x, (surface c x).2 = none) (calls : List Call) (x : σ) :
    (perform surface calls x).2 = none := by
  induction calls generalizing x with
  | nil => rfl
  | cons c calls ih =>
    have hc := h c x
    rcases hs : surface c x with ⟨y, e⟩
    obtain rfl : e = none := by simpa [hs] using hc
    simpa [perform, hs] using ih y

namespace Frame

variable (f : Frame) (s : Style) (v : Projection Float)

theorem render_eq_ok_iff {x y : σ} {n : Nat} :
    f.render s v surface x = (y, .ok n) ↔
      perform surface (f.script s v) x = (y, none) ∧ n = f.count s v := by
  rcases hback : perform surface (f.background s v) x with ⟨x₁, _ | e⟩
  case some => simp [render, script, perform_append, hback]
  rcases hd : f.draft? with _ | d
  · simp [render, script, hback, hd, eq_comm]
  rcases hdash : surface (.dash s.draftDash) x₁ with ⟨x₂, _ | e⟩
  case some => simp [render, script, perform_append, perform, hback, hd, hdash]
  rcases hdraw : perform surface ((f.draftCalls? s v).getD []) x₂ with ⟨x₃, drew⟩
  rcases hreset : surface (.dash []) x₃ with ⟨x₄, reset⟩
  rcases drew with _ | e <;> rcases reset with _ | e' <;>
    simp [render, script, perform_append, perform, hback, hd, hdash, hdraw, hreset, eq_comm]

end Frame

end Surface

end MarketSketch
