import MarketSketch.Number.Double
import MarketSketch.Number.Shortest

/-!
Written numbers. A `FigureStyle` says when the plain positional form ends and how its parts are
spelled; `documentDouble` and `documentSingle` are the styles of documents, `plainStyle` that of
style sheets and attributes. Fixed places and scientific digits round the exact value.
-/

namespace MarketSketch

/-- Positional between the two powers of ten of the first digit, with an exponent outside; a whole
number keeps a final `.0` if `point`; a decimal half way between two shortest ones goes up if
`tieUp`, else to the even one. -/
structure FigureStyle where
  lowest : Option Int
  highest : Option Int
  point : Bool
  tieUp : Bool
deriving DecidableEq, Repr

def documentDouble : FigureStyle := ⟨some (-5), some 15, true, false⟩

def documentSingle : FigureStyle := ⟨some (-6), some 12, true, false⟩

def plainStyle : FigureStyle := ⟨none, none, false, true⟩

namespace FigureStyle

def isPositional (style : FigureStyle) (leading : Int) : Bool :=
  style.lowest.all (· ≤ leading) && style.highest.all (leading ≤ ·)

def positional (style : FigureStyle) (digits : List Char) (leading : Int) : List Char :=
  if leading < 0 then '0' :: '.' :: (List.replicate (-leading - 1).toNat '0' ++ digits)
  else
    let whole := leading.toNat + 1
    let filled := digits.take whole ++ List.replicate (whole - digits.length) '0'
    match digits.drop whole with
    | [] => if style.point then filled ++ ['.', '0'] else filled
    | rest => filled ++ '.' :: rest

def scientific (digits : List Char) (leading : Int) : List Char :=
  let tail := match digits with
    | [] => []
    | [c] => [c]
    | c :: rest => c :: '.' :: rest
  tail ++ 'e' :: (if leading < 0 then '-' else '+') :: Nat.toDigits 10 leading.natAbs

def spell (style : FigureStyle) (negative : Bool) (d : Decimal) : List Char :=
  let body := if style.isPositional d.leading then style.positional d.digits d.leading
    else scientific d.digits d.leading
  if negative then '-' :: body else body

end FigureStyle

namespace Double

/-- The shortest text that reads back, for a finite `x`. -/
def figures (style : FigureStyle) (x : Float) : List Char :=
  style.spell (isNegative x) (Binary.double.shortest style.tieUp (magnitude x))

def name? (x : Float) : Option String :=
  if x.isNaN then some "NaN"
  else if x.isInf then some (if isNegative x then "-inf" else "inf")
  else none

def plain (x : Float) : String :=
  (name? x).getD (String.ofList (figures plainStyle x))

def placed (n d places : Nat) : List Char :=
  let digits := Nat.toDigits 10 (roundedQuotient (n * Nat.pow 10 places) d)
  let padded := List.replicate (places + 1 - digits.length) '0' ++ digits
  let whole := padded.length - places
  if places = 0 then padded else padded.take whole ++ '.' :: padded.drop whole

def fixed (places : Nat) (x : Float) : String :=
  let (m, q) := unpack x
  let (n, d) := Binary.ratio m q
  let body := placed n d places
  String.ofList (if isNegative x then '-' :: body else body)

def scientific (places : Nat) (x : Float) : String :=
  match name? x with
  | some text => text
  | none =>
    let (m, q) := unpack x
    let (n, d) := Binary.ratio m q
    let sign := if isNegative x then ['-'] else []
    if n = 0 then String.ofList (sign ++ '0' :: '.' :: List.replicate places '0' ++ ['e', '0'])
    else
      let top := Binary.leadingPower n d
      let step : Int := top - places
      let rounded := if 0 ≤ step then roundedQuotient n (d * Nat.pow 10 step.toNat)
        else roundedQuotient (n * Nat.pow 10 (-step).toNat) d
      let (digits, top) := match Nat.toDigits 10 rounded with
        | all => if all.length = places + 1 then (all, top) else (all.take (places + 1), top + 1)
      let exponent := (if top < 0 then ['-'] else []) ++ Nat.toDigits 10 top.natAbs
      String.ofList (sign ++ digits.take 1 ++ '.' :: digits.drop 1 ++ 'e' :: exponent)

end Double

namespace Single

def figures (style : FigureStyle) (x : Float32) : List Char :=
  style.spell (isNegative x) (Binary.single.shortest style.tieUp (magnitude x))

def name? (x : Float32) : Option String :=
  if x.isNaN then some "NaN"
  else if x.isInf then some (if isNegative x then "-inf" else "inf")
  else none

def plain (x : Float32) : String :=
  (name? x).getD (String.ofList (figures plainStyle x))

end Single

def paddedTo (width n : Nat) : String :=
  let digits := Nat.toDigits 10 n
  String.ofList (List.replicate (width - digits.length) '0' ++ digits)

end MarketSketch
