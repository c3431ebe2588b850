import MarketSketch.Json.Value
import MarketSketch.Number.Figures

/-!
Rows: a word and its arguments in one array, the form in which recorded calls are written down.
-/

namespace MarketSketch.Json.Value

def ofFloat (x : Float) : Value :=
  match Double.name? x with
  | some name => .string name
  | none => .real x

def row (word : String) (args : List Value) : Value := .array (.string word :: args)

def numbers (word : String) (xs : List Float) : Value := row word (xs.map ofFloat)

def word (word text : String) : Value := row word [.string text]

end MarketSketch.Json.Value
