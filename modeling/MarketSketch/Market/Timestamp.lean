import MarketSketch.Market.Calendar
import MarketSketch.Number.Figures
import MarketSketch.Text.Quoted

/-!
Times of bars in whole seconds, from numbers of seconds or milliseconds and from texts.
-/

namespace MarketSketch

abbrev Timestamp := Int

def leastWord : Int := -0x8000000000000000

def greatestWord : Int := 0x7FFFFFFFFFFFFFFF

def saturated (n : Int) : Int := max leastWord (min greatestWord n)

namespace Timestamp

/-- Numbers above this are milliseconds. -/
def millisecondsFrom : Float := Double.ofNat 2000000000

def ofNumber? (x : Float) : Option Timestamp :=
  if x.isFinite then
    let seconds := if millisecondsFrom < x then x / Double.ofNat 1000 else x
    some (saturated (Double.floor seconds))
  else none

/-- A number is read as such; else an instant with an offset or without one is taken. -/
def ofText? (text : String) : Option Timestamp :=
  let trimmed := Text.trim text
  if trimmed.isEmpty then none
  else
    match Double.read? trimmed with
    | some x => ofNumber? x
    | none =>
      let cs := trimmed.toList
      (offsetInstant? cs).or ((plainInstant? .letter cs).or (plainInstant? .blanks cs))

def toFloat (t : Timestamp) : Float := Double.ofInt t

end Timestamp

inductive RawTime where
  | number (x : Float)
  | text (s : String)
deriving DecidableEq

namespace RawTime

def timestamp? : RawTime → Option Timestamp
  | number x => Timestamp.ofNumber? x
  | text s => Timestamp.ofText? s

def shown : RawTime → String
  | number x => "Numeric(" ++ (Double.name? x).getD (Double.plain x) ++ ")"
  | text s => "Text(" ++ Text.quoted s ++ ")"

end RawTime

end MarketSketch
