import MarketSketch.Drawing.Analysis
import MarketSketch.Number.Figures
import MarketSketch.Text.Upper

/-!
Trade setups of the signal detector, and the analysis drawn from one: levels for entry, stop and
take-profit, and zones for the entry, the risk and the target.
-/

namespace MarketSketch

open Json

structure Setup where
  direction : String := ""
  entry : Option Float := none
  stop : Option Float := none
  target : Option Float := none
  reward : Option Float := none
  entryZone : Option Value := none

namespace Setup

/-- A finite number, or a text that spells one. -/
def number? (v : Option Value) : Option Float :=
  (match v with
    | some (.number n) => some n.toFloat
    | some (.string s) => Double.read? (Text.trim s)
    | _ => none).filter (·.isFinite)

def zonePlace? (v : Value) : Option Value :=
  (v.get? "entryZone").or
    ((v.get? "entry_zone").or ((v.get? "evidence").bind (·.get? "entry_zone")))

/-- A lenient reading of a signal document. -/
def ofJson (v : Value) : Setup :=
  { direction := ((v.get? "direction").bind (·.asString?)).getD ""
    entry := number? (v.get? "entry")
    stop := number? (v.get? "sl")
    target := number? (v.get? "tp")
    reward := number? (v.get? "rr")
    entryZone := (zonePlace? v).filter (·.isObject) }

def firstNumber? (v : Value) (names : List String) : Option Float :=
  names.findSome? fun name => (number? (v.get? name)).filter (· != Double.ofNat 0)

def box? (a b : Option Float) (label : String) : Option AnalysisZone :=
  match a, b with
  | some a, some b =>
    let low := Double.lesser a b
    let high := Double.greater a b
    if low != high then some ⟨low, high, some label⟩ else none
  | _, _ => none

def entryLabel (s : Setup) : String :=
  Text.trim ("ENTRY " ++ Text.upper (Text.trim s.direction))

def targetLabel (s : Setup) : String :=
  match s.reward with
  | some r => "TP (RR " ++ Double.fixed 2 r ++ ")"
  | none => "TP"

def levels (s : Setup) : List AnalysisLevel :=
  (s.entry.map fun p => ⟨p, some s.entryLabel⟩).toList ++
    (s.stop.map fun p => ⟨p, some "SL"⟩).toList ++
    (s.target.map fun p => ⟨p, some s.targetLabel⟩).toList

def entryBox? (s : Setup) : Option AnalysisZone :=
  s.entryZone.bind fun zone =>
    box? (firstNumber? zone ["price_from", "priceFrom", "from", "low"])
      (firstNumber? zone ["price_to", "priceTo", "to", "high"]) "Entry zone"

def analysis (s : Setup) : Analysis := { levels := s.levels, zones := s.entryBox?.toList }

def drawings (s : Setup) : Analysis :=
  { s.analysis with
    zones := s.analysis.zones ++ (box? s.entry s.stop "Risk").toList ++
      (box? s.entry s.target "Target").toList }

end Setup

end MarketSketch
