import MarketSketch.Drawing.Shape

/-!
The tools of the drawing layer.
-/

namespace MarketSketch

inductive Tool where
  | select
  | level
  | trendline
  | zone
deriving DecidableEq, Repr

namespace Tool

def all : List Tool := [select, level, trendline, zone]

def name : Tool → String
  | select => "select"
  | level => "level"
  | trendline => "trendline"
  | zone => "zone"

def ofName? (text : String) : Option Tool := all.find? (·.name = text)

theorem ofName?_name (t : Tool) : ofName? t.name = some t := by cases t <;> decide

def creates? : Tool → Option ShapeKind
  | select => none
  | level => some .level
  | trendline => some .trendline
  | zone => some .zone

end Tool

end MarketSketch
