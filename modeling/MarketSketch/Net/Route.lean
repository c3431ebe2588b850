import MarketSketch.Market.Symbol

/-!
Addresses of the market endpoints and of the candle stream.
-/

namespace MarketSketch.Route

def historyMaximum : Nat := 5000

def clampLimit (limit : Nat) : Nat := max 1 (min historyMaximum limit)

def trimBase (base : String) : String :=
  String.ofList (base.toList.reverse.dropWhile (· = '/')).reverse

def candles (base : String) (s : Symbol) (t : Timeframe) (limit : Nat) : String :=
  trimBase base ++ "/api/markets/" ++ s.name ++ "/candles?tf=" ++ t.name ++ "&limit=" ++
    toString (clampLimit limit)

def annotations (base : String) (s : Symbol) : String :=
  trimBase base ++ "/api/markets/" ++ s.name ++ "/annotations"

def replaced (pattern value : List Char) : List Char → List Char
  | [] => []
  | c :: rest =>
    if pattern.isPrefixOf (c :: rest) then
      value ++ replaced pattern value (rest.drop (pattern.length - 1))
    else c :: replaced pattern value rest
termination_by cs => cs.length
decreasing_by
  all_goals simp only [List.length_drop, List.length_cons]
  all_goals omega

def placeholder : String := "\x7bsymbol\x7d"

def stream (template : String) (s : Symbol) : String :=
  String.ofList (replaced placeholder.toList s.name.toList template.toList)

end MarketSketch.Route
