import MarketSketch.Json.Row
import MarketSketch.Paint.Compositor

/-!
A surface that records its calls, and may fail one call of a kind by its number.
-/

namespace MarketSketch

namespace Pos

def toJson (p : Pixel) : Json.Value := .array [.ofFloat p.x, .ofFloat p.y]

end Pos

namespace Rect

def sides (r : PixelRect) : List Float := [r.left, r.top, r.right, r.bottom]

end Rect

def Call.row : Call → Json.Value
  | .clear w h => .numbers "clear" [w, h]
  | .stroke c w => .row "stroke" [.string c.css, .ofFloat w]
  | .fill c => .word "fill" c.css
  | .dash p => .row "dash" [.array (p.map .ofFloat)]
  | .line a b => .row "line" [a.toJson, b.toJson]
  | .fillRect r => .numbers "fill_rect" r.sides
  | .strokeRect r => .numbers "stroke_rect" r.sides
  | .text t p font => .row "text" [.string t, p.toJson, .string font]

inductive FragileCall where
  | dash
  | text
deriving DecidableEq, Repr

namespace FragileCall

def of? : Call → Option FragileCall
  | .dash _ => some dash
  | .text _ _ _ => some text
  | _ => none

def name : FragileCall → String
  | dash => "dash"
  | text => "text"

def ofName? : String → Option FragileCall
  | "dash" => some dash
  | "text" => some text
  | _ => none

end FragileCall

structure Fault where
  call : FragileCall
  at_ : Nat
deriving DecidableEq, Repr

structure Recorder where
  fault? : Option Fault := none
  calls : List Call := []

namespace Recorder

def made (r : Recorder) (k : FragileCall) : Nat := r.calls.countP (FragileCall.of? · = some k)

def surface : Surface Recorder := fun c r =>
  let after := { r with calls := c :: r.calls }
  match FragileCall.of? c with
  | none => (after, none)
  | some k =>
    if r.fault? = some ⟨k, r.made k⟩ then (after, some (.rendering (k.name ++ " failed")))
    else (after, none)

end Recorder

end MarketSketch
