import MarketSketch.Number.Double

/-!
Numbers read from free text: a sign, digits with an optional point and exponent, or one of the
names of infinity and of no number in any case of letters. Nothing may stand before or after.
-/

namespace MarketSketch

def digitRun (cs : List Char) : List Char × List Char := cs.span isDigit

def decimalOf (whole fraction : List Char) (exponent : Int) : Decimal :=
  (Decimal.mk (spelled (whole ++ fraction)) (exponent - fraction.length)).trimmed

def signRun : List Char → Bool × List Char
  | '-' :: rest => (true, rest)
  | '+' :: rest => (false, rest)
  | rest => (false, rest)

def exponentTail? : List Char → Option Int
  | [] => some 0
  | mark :: rest =>
    if mark = 'e' ∨ mark = 'E' then
      let (negative, rest) := signRun rest
      match digitRun rest with
      | (digits@(_ :: _), []) => some (if negative then -(spelled digits : Int) else spelled digits)
      | _ => none
    else none

def decimalText? (cs : List Char) : Option Decimal :=
  let (whole, rest) := digitRun cs
  let (fraction, rest) := match rest with
    | '.' :: after => digitRun after
    | _ => ([], rest)
  if whole.isEmpty && fraction.isEmpty then none
  else (exponentTail? rest).map (decimalOf whole fraction)

def Double.read? (text : String) : Option Float :=
  let (negative, body) := signRun text.toList
  let lower := body.map Char.toLower
  if lower = "nan".toList then some Double.nan
  else if lower = "inf".toList ∨ lower = "infinity".toList then
    some (Double.ofMagnitude negative Binary.double.infinity)
  else (decimalText? body).map (Double.ofDecimal negative)

end MarketSketch
