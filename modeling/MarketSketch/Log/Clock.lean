import MarketSketch.Number.Figures

/-!
The clock of a page: milliseconds as a count, and as a time of day in universal time.
-/

namespace MarketSketch.Log

def clockReading (x : Float) : Nat :=
  if x.isNaN || Double.isNegative x then 0
  else if x.isInf then 0xFFFFFFFFFFFFFFFF
  else min 0xFFFFFFFFFFFFFFFF (Double.wholePart x)

def lastDate : Nat := 8640000000000000

def timeOfDay (ms : Nat) : String :=
  let ms := if ms ≤ lastDate then ms else 0
  paddedTo 2 (ms / 3600000 % 24) ++ ":" ++ paddedTo 2 (ms / 60000 % 60) ++ ":" ++
    paddedTo 2 (ms / 1000 % 60) ++ "." ++ paddedTo 3 (ms % 1000)

end MarketSketch.Log
