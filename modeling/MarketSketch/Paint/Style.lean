import MarketSketch.Chart.Color
import MarketSketch.Drawing.Shape
import MarketSketch.Json.Record
import MarketSketch.Json.Text

/-!
How the overlay looks, as a record of settings that each have a value of their own.
-/

namespace MarketSketch

open Json

structure Style where
  userColor : Color := Color.ofHex 0x9AA4B2
  highlightColor : Color := Color.ofHex 0x4DA3FF
  gold : Color := Color.ofHex 0xFFD700
  green : Color := Color.ofHex 0x26A69A
  engineFillAlpha : Float32 := Single.ofDecimal false ⟨15, -2⟩
  userFillAlpha : Float32 := Single.ofDecimal false ⟨2, -1⟩
  lineWidth : Float := Double.ofNat 1
  highlightLineWidth : Float := Double.ofNat 2
  draftDash : List Float := [Double.ofNat 6, Double.ofNat 4]
  labelFont : String := "12px sans-serif"
  labelPadding : Float := Double.ofNat 4
deriving DecidableEq

def Color.ofDocument? {δ : Type} [Document δ] (d : δ) : Option Color :=
  (text? d).bind Color.ofText?

namespace Style

def toneColor (s : Style) : Tone → Color
  | .gold => s.gold
  | .green => s.green

def fieldNames : List String :=
  ["user_color", "highlight_color", "gold", "green", "engine_fill_alpha", "user_fill_alpha",
    "line_width", "highlight_line_width", "draft_dash", "label_font", "label_padding"]

def ofDocument? {δ : Type} [Document δ] (d : δ) : Option Style := do
  let base : Style := {}
  match ← fields? fieldNames d with
  | [user, highlight, gold, green, engineAlpha, userAlpha, width, wide, dash, font, padding] =>
    let user ← defaulted? base.userColor Color.ofDocument? user
    let highlight ← defaulted? base.highlightColor Color.ofDocument? highlight
    let gold ← defaulted? base.gold Color.ofDocument? gold
    let green ← defaulted? base.green Color.ofDocument? green
    let engineAlpha ← defaulted? base.engineFillAlpha single? engineAlpha
    let userAlpha ← defaulted? base.userFillAlpha single? userAlpha
    let width ← defaulted? base.lineWidth real? width
    let wide ← defaulted? base.highlightLineWidth real? wide
    let dash ← defaulted? base.draftDash (list? real?) dash
    let font ← defaulted? base.labelFont text? font
    let padding ← defaulted? base.labelPadding real? padding
    pure ⟨user, highlight, gold, green, engineAlpha, userAlpha, width, wide, dash, font, padding⟩
  | _ => none

def toJson (s : Style) : Value :=
  .object [("user_color", .string s.userColor.text),
    ("highlight_color", .string s.highlightColor.text), ("gold", .string s.gold.text),
    ("green", .string s.green.text), ("engine_fill_alpha", .number (.narrow s.engineFillAlpha)),
    ("user_fill_alpha", .number (.narrow s.userFillAlpha)), ("line_width", .real s.lineWidth),
    ("highlight_line_width", .real s.highlightLineWidth),
    ("draft_dash", .array (s.draftDash.map .real)), ("label_font", .string s.labelFont),
    ("label_padding", .real s.labelPadding)]

end Style

end MarketSketch
