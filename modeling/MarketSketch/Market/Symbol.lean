import MarketSketch.Text.Blank
import MarketSketch.Text.Upper

/-!
Trading symbols, in upper case, and the timeframes of the history endpoint.
-/

namespace MarketSketch

structure Symbol where
  name : String
deriving DecidableEq, Repr

namespace Symbol

def ofText (text : String) : Symbol := ⟨Text.upper (Text.trim text)⟩

def emptyComplaint : String := "Symbol cannot be empty"

def entered (text : String) : Except String Symbol :=
  if (Text.trim text).isEmpty then .error emptyComplaint else .ok (ofText text)

end Symbol

inductive Timeframe where
  | m5
  | m15
  | h1
  | h4
  | d1
deriving DecidableEq, Repr

namespace Timeframe

def all : List Timeframe := [m5, m15, h1, h4, d1]

def name : Timeframe → String
  | m5 => "M5"
  | m15 => "M15"
  | h1 => "H1"
  | h4 => "H4"
  | d1 => "D1"

def ofName? (text : String) : Option Timeframe := all.find? (·.name = text)

theorem ofName?_name (t : Timeframe) : ofName? t.name = some t := by cases t <;> decide

end Timeframe

end MarketSketch
