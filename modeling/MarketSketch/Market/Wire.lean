import MarketSketch.Failure
import MarketSketch.Json.Record
import MarketSketch.Json.Text
import MarketSketch.Market.Candle

/-!
Candles on the wire, in one form for the history endpoint and the stream. A bar is unusable when its
time names no instant or a price is not finite.
-/

namespace MarketSketch

structure WireCandle where
  time : RawTime
  opening : Float
  high : Float
  low : Float
  closing : Float
deriving DecidableEq

def RawTime.ofDocument? {δ : Type} [Json.Document δ] (d : δ) : Option RawTime :=
  match Json.Document.view d with
  | .number r => r.real?.map .number
  | .string s => s.map .text
  | _ => none

namespace WireCandle

def fieldNames : List String := ["time", "open", "high", "low", "close"]

def ofDocument? {δ : Type} [Json.Document δ] (d : δ) : Option WireCandle := do
  match ← Json.fields? fieldNames d with
  | [time, opening, high, low, closing] =>
    let time ← Json.required? RawTime.ofDocument? time
    let opening ← Json.required? Json.real? opening
    let high ← Json.required? Json.real? high
    let low ← Json.required? Json.real? low
    let closing ← Json.required? Json.real? closing
    pure ⟨time, opening, high, low, closing⟩
  | _ => none

def candle (w : WireCandle) : Except Failure Candle :=
  match w.time.timestamp? with
  | none => .error (.parse (.candleTime w.time.shown))
  | some time =>
    let c : Candle := ⟨time, w.opening, w.high, w.low, w.closing⟩
    if c.finite then .ok c else .error (.validation "non-finite candle prices")

def ofCandle (c : Candle) : WireCandle :=
  ⟨.number (Timestamp.toFloat c.time), c.opening, c.high, c.low, c.closing⟩

def toJson (w : WireCandle) : Json.Value :=
  let time := match w.time with
    | .number x => Json.Value.real x
    | .text s => .string s
  .object [("time", time), ("open", .real w.opening), ("high", .real w.high),
    ("low", .real w.low), ("close", .real w.closing)]

end WireCandle

def candleOfMessage (text : String) : Except Failure Candle :=
  match (Json.Literal.ofText? text).bind WireCandle.ofDocument? with
  | none => .error (.parse .text)
  | some w => w.candle

def candleOfEntry? (entry : Json.Value) : Option Candle :=
  (WireCandle.ofDocument? entry).bind fun w => w.candle.toOption

def historyEntries? (document : Json.Value) : Option (List Json.Value) :=
  document.asArray?.or ((document.get? "candles").bind (·.asArray?))

def candlesOfHistory (document : Json.Value) : Except Failure (List Candle) :=
  match historyEntries? document with
  | none => .error (.parse .history)
  | some entries => .ok (entries.filterMap candleOfEntry?)

end MarketSketch
