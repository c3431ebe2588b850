import MarketSketch.Page.Host
import MarketSketch.Paint.Recorder

/-!
A canvas as a surface: every call of the compositor becomes property settings and method calls of a
drawing context, which the canvas records.
-/

namespace MarketSketch

inductive ContextCall where
  | textBaseline (value : String)
  | clearRect (x y width height : Float)
  | strokeStyle (css : String)
  | fillStyle (css : String)
  | lineWidth (value : Float)
  | setLineDash (pattern : List Float)
  | beginPath
  | moveTo (x y : Float)
  | lineTo (x y : Float)
  | stroke
  | fillRect (x y width height : Float)
  | strokeRect (x y width height : Float)
  | font (value : String)
  | fillText (text : String) (x y : Float)
deriving DecidableEq

def ContextCall.row : ContextCall → Json.Value
  | .textBaseline v => .word "textBaseline" v
  | .clearRect x y w h => .numbers "clearRect" [x, y, w, h]
  | .strokeStyle css => .word "strokeStyle" css
  | .fillStyle css => .word "fillStyle" css
  | .lineWidth w => .numbers "lineWidth" [w]
  | .setLineDash p => .row "setLineDash" [.array (p.map .ofFloat)]
  | .beginPath => .row "beginPath" []
  | .moveTo x y => .numbers "moveTo" [x, y]
  | .lineTo x y => .numbers "lineTo" [x, y]
  | .stroke => .row "stroke" []
  | .fillRect x y w h => .numbers "fillRect" [x, y, w, h]
  | .strokeRect x y w h => .numbers "strokeRect" [x, y, w, h]
  | .font v => .word "font" v
  | .fillText t x y => .row "fillText" [.string t, .ofFloat x, .ofFloat y]

namespace Call

def inContext : Call → List ContextCall
  | .clear w h => [.clearRect (Double.ofNat 0) (Double.ofNat 0) w h]
  | .stroke c w => [.strokeStyle c.css, .lineWidth w]
  | .fill c => [.fillStyle c.css]
  | .dash p => [.setLineDash p]
  | .line a b => [.beginPath, .moveTo a.x a.y, .lineTo b.x b.y, .stroke]
  | .fillRect r => [.fillRect r.left r.top r.width r.height]
  | .strokeRect r => [.strokeRect r.left r.top r.width r.height]
  | .text t p f => [.font f, .fillText t p.x p.y]

end Call

def FragileCall.method : FragileCall → String
  | dash => "setLineDash"
  | text => "fillText"

structure Canvas where
  calls : List ContextCall := []
  dashes : Nat := 0
  texts : Nat := 0

namespace Canvas

def made (c : Canvas) : FragileCall → Nat
  | .dash => c.dashes
  | .text => c.texts

def counted (c : Canvas) : FragileCall → Canvas
  | .dash => { c with dashes := c.dashes + 1 }
  | .text => { c with texts := c.texts + 1 }

def record (c : Canvas) (calls : List ContextCall) : Canvas :=
  { c with calls := calls.reverse ++ c.calls }

def surface (fault? : Option Fault) : Surface Canvas := fun call c =>
  let after := c.record call.inContext
  match FragileCall.of? call with
  | none => (after, none)
  | some k =>
    let failed := fault? = some ⟨k, c.made k⟩
    (after.counted k, if failed then some (.rendering (thrown (k.method ++ " failed"))) else none)

def taken (c : Canvas) : Canvas := c.record [.textBaseline "bottom"]

end Canvas

end MarketSketch
