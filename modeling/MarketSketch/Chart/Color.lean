import MarketSketch.Number.Figures
import MarketSketch.Text.Blank

/-!
Colours with four channels between 0 and 1. `Color.ofText?` reads `#rrggbb` and `#rrggbbaa`;
`Color.text` writes them and `Color.css` writes what a canvas understands.
-/

namespace MarketSketch

structure Color where
  red : Float32
  green : Float32
  blue : Float32
  alpha : Float32
deriving DecidableEq

namespace Color

def full : Float32 := Single.ofNat 255

def solid (red green blue : Float32) : Color := ⟨red, green, blue, Single.ofNat 1⟩

def share (byte : Nat) : Float32 := Single.ofNat byte / full

def byteAt (n k : Nat) : Nat := n / Nat.pow 256 k % 256

def ofHex (hex : Nat) : Color :=
  solid (share (byteAt hex 2)) (share (byteAt hex 1)) (share (byteAt hex 0))

def channel (x : Float32) : Nat := Single.rounded (Single.clamped x * full)

def toHex (c : Color) : Nat :=
  channel c.red * 65536 + channel c.green * 256 + channel c.blue

def withAlpha (c : Color) (alpha : Float32) : Color := { c with alpha := alpha }

def css (c : Color) : String :=
  "rgba(" ++ toString (channel c.red) ++ ", " ++ toString (channel c.green) ++ ", " ++
    toString (channel c.blue) ++ ", " ++ Single.plain c.alpha ++ ")"

/-- Hexadecimal digits with a sign that may stand before them, up to 32 bits. -/
def hexNumber? (cs : List Char) : Option Nat :=
  let digits := match cs with
    | '+' :: rest => rest
    | _ => cs
  if digits.isEmpty then none
  else
    (digits.mapM hexValue?).bind fun values =>
      let n := values.foldl (fun n v => 16 * n + v) 0
      if n < 0x100000000 then some n else none

def bareDigits (text : String) : List Char :=
  (Text.trimChars text.toList).dropWhile (· = '#')

/-- Reads six or eight hexadecimal digits, counted in bytes; the last two of eight are the alpha. -/
def ofText? (text : String) : Option Color :=
  let digits := bareDigits text
  let size := (String.ofList digits).utf8ByteSize
  if size = 6 then (hexNumber? digits).map ofHex
  else if size = 8 then
    (hexNumber? digits).map fun n => (ofHex (n / 256)).withAlpha (share (n % 256))
  else none

def complaint (text : String) : String := "invalid color '" ++ text ++ "'"

def hexPadded (width n : Nat) : List Char :=
  let digits := Nat.toDigits 16 n
  List.replicate (width - digits.length) '0' ++ digits

/-- The spelling with a number sign; only a colour that is not opaque shows its alpha. -/
def text (c : Color) : String :=
  let base := '#' :: hexPadded 6 c.toHex
  if Single.ofNat 1 ≤ c.alpha then String.ofList base
  else String.ofList (base ++ hexPadded 2 (channel c.alpha))

end Color

end MarketSketch
