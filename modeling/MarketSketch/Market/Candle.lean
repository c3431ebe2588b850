import MarketSketch.Market.Timestamp

/-!
Candles, and the buffer of a chart: ascending times, each once. `CandleBuffer.load` takes a whole
history in any order, `CandleBuffer.update` one streamed bar.
-/

namespace MarketSketch

structure Candle where
  time : Timestamp
  opening : Float
  high : Float
  low : Float
  closing : Float
deriving DecidableEq

namespace Candle

def prices (c : Candle) : List Float := [c.opening, c.high, c.low, c.closing]

def finite (c : Candle) : Bool := c.prices.all Float.isFinite

end Candle

def lastOf {α : Type} (n : Nat) (xs : List α) : List α := xs.drop (xs.length - n)

def lastOfEachTime : List Candle → List Candle
  | [] => []
  | [c] => [c]
  | c :: d :: rest =>
    if c.time = d.time then lastOfEachTime (d :: rest) else c :: lastOfEachTime (d :: rest)

inductive FeedUpdate where
  | replaced
  | appended
  | rejected
deriving DecidableEq, Repr

namespace FeedUpdate

def name : FeedUpdate → String
  | replaced => "replaced"
  | appended => "appended"
  | rejected => "rejected"

def applied : FeedUpdate → Bool
  | rejected => false
  | _ => true

end FeedUpdate

/-- The candles of a chart. `load` and `update` leave their times strictly ascending. -/
structure CandleBuffer where
  candles : List Candle := []
deriving DecidableEq

namespace CandleBuffer

/-- The buffer of a history: finite candles by time, the later of equal times, the last `limit`. -/
def load (candles : List Candle) (limit : Nat) : CandleBuffer :=
  let sorted := (candles.filter Candle.finite).mergeSort fun c d => c.time ≤ d.time
  ⟨lastOf limit (lastOfEachTime sorted)⟩

def first? (b : CandleBuffer) : Option Candle := b.candles.head?

def last? (b : CandleBuffer) : Option Candle := b.candles.getLast?

def span? (b : CandleBuffer) : Option (Timestamp × Timestamp) :=
  match b.first?, b.last? with
  | some c, some d => some (c.time, d.time)
  | _, _ => none

/-- A bar of the last time overwrites it, a later one is appended and may push out the oldest. -/
def update (b : CandleBuffer) (c : Candle) (limit : Nat) : CandleBuffer × FeedUpdate :=
  if !c.finite then (b, .rejected)
  else
    match b.last? with
    | some last =>
      if last.time = c.time then (⟨b.candles.dropLast ++ [c]⟩, .replaced)
      else if c.time < last.time then (b, .rejected)
      else (⟨lastOf limit (b.candles ++ [c])⟩, .appended)
    | none => (⟨lastOf limit [c]⟩, .appended)

end CandleBuffer

end MarketSketch
