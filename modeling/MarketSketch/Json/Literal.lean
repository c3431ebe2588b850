import MarketSketch.Json.Value
import MarketSketch.Number.Reading

/-!
A JSON text as it is written: numbers as decimals, members in order with repeated keys, strings
without a value where an escape names half of a surrogate pair. `Literal.ofText?` checks the
grammar; `Literal.toValue?` gives the value, with the limits on numbers, strings and nesting.
-/

namespace MarketSketch.Json

/-- A number as written; `whole` tells a run of digits from one with a point or an exponent. -/
structure Numeral where
  negative : Bool
  whole : Bool
  decimal : Decimal
deriving DecidableEq, Repr

/-- A text that keeps the grammar. A string or key without a value is one that names half a pair. -/
inductive Literal where
  | null
  | bool (b : Bool)
  | number (n : Numeral)
  | string (s : Option String)
  | array (xs : List Literal)
  | object (members : List (Option String × Literal))

namespace Numeral

def wholeNat (n : Numeral) : Nat := n.decimal.coefficient * Nat.pow 10 n.decimal.exponent.toNat

/-- Whole numbers of 64 bits stay whole; minus zero does not. -/
def toInt? (n : Numeral) : Option Int :=
  if !n.whole || 20 < n.decimal.leading then none
  else if n.negative then
    if n.wholeNat ≠ 0 ∧ n.wholeNat ≤ 0x8000000000000000 then some (-(n.wholeNat : Int)) else none
  else if n.wholeNat < 0x10000000000000000 then some n.wholeNat else none

def toFloat? (n : Numeral) : Option Float :=
  let x := Double.ofDecimal n.negative n.decimal
  if x.isFinite then some x else none

def toSingle? (n : Numeral) : Option Float32 :=
  let x := Single.ofDecimal n.negative n.decimal
  if x.isFinite then some x else none

def toNumber? (n : Numeral) : Option Number :=
  match n.toInt? with
  | some k => some (.whole k)
  | none => n.toFloat?.map .wide

end Numeral

def isSpace (c : Char) : Bool := c = ' ' || c = '\n' || c = '\t' || c = '\r'

def skipSpace (cs : List Char) : List Char := cs.dropWhile isSpace

def hexQuad? (a b c d : Char) : Option Nat := do
  let a ← hexValue? a
  let b ← hexValue? b
  let c ← hexValue? c
  let d ← hexValue? d
  pure (((a * 16 + b) * 16 + c) * 16 + d)

def isHighHalf (n : Nat) : Bool := 0xD800 ≤ n && n ≤ 0xDBFF

def isLowHalf (n : Nat) : Bool := 0xDC00 ≤ n && n ≤ 0xDFFF

def simpleEscape? (c : Char) : Option Char :=
  if c = '"' ∨ c = '\\' ∨ c = '/' then some c
  else if c = 'b' then some (Char.ofNat 8)
  else if c = 'f' then some (Char.ofNat 12)
  else if c = 'n' then some '\n'
  else if c = 'r' then some '\r'
  else if c = 't' then some '\t'
  else none

/-- Reads a string after its opening quote; `acc` holds what was read, last character first, and
`sound` is off once an escape named half of a pair. -/
def stringTail? (acc : List Char) (sound : Bool) :
    List Char → Option (Option String × List Char)
  | [] => none
  | '"' :: rest => some (if sound then some (String.ofList acc.reverse) else none, rest)
  | '\\' :: 'u' :: a :: b :: c :: d :: '\\' :: 'u' :: a' :: b' :: c' :: d' :: rest =>
    match hexQuad? a b c d with
    | none => none
    | some n =>
      if isLowHalf n then
        stringTail? acc false ('\\' :: 'u' :: a' :: b' :: c' :: d' :: rest)
      else if isHighHalf n then
        match hexQuad? a' b' c' d' with
        | none => none
        | some m =>
          if isLowHalf m then
            let c := Char.ofNat (0x10000 + (n - 0xD800) * 0x400 + (m - 0xDC00))
            stringTail? (c :: acc) sound rest
          else stringTail? acc false ('\\' :: 'u' :: a' :: b' :: c' :: d' :: rest)
      else stringTail? (Char.ofNat n :: acc) sound ('\\' :: 'u' :: a' :: b' :: c' :: d' :: rest)
  | '\\' :: 'u' :: a :: b :: c :: d :: rest =>
    match hexQuad? a b c d with
    | none => none
    | some n =>
      if isLowHalf n || isHighHalf n then stringTail? acc false rest
      else stringTail? (Char.ofNat n :: acc) sound rest
  | '\\' :: c :: rest =>
    match simpleEscape? c with
    | none => none
    | some e => stringTail? (e :: acc) sound rest
  | c :: rest => if c.toNat < 0x20 || c = '\\' then none else stringTail? (c :: acc) sound rest
termination_by cs => cs.length

def fractionRun? : List Char → Option (List Char × List Char)
  | '.' :: rest =>
    match digitRun rest with
    | ([], _) => none
    | run => some run
  | rest => some ([], rest)

def exponentRun? : List Char → Option (Option Int × List Char)
  | [] => some (none, [])
  | mark :: rest =>
    if mark = 'e' ∨ mark = 'E' then
      let (negative, rest) := signRun rest
      match digitRun rest with
      | ([], _) => none
      | (digits, rest) =>
        some (some (if negative then -(spelled digits : Int) else spelled digits), rest)
    else some (none, mark :: rest)

def numeral? (cs : List Char) : Option (Numeral × List Char) := do
  let (negative, cs) := match cs with
    | '-' :: rest => (true, rest)
    | _ => (false, cs)
  let (whole, cs) := digitRun cs
  if whole.isEmpty || (whole.head? == some '0' && 1 < whole.length) then none
  let (fraction, cs') ← fractionRun? cs
  let (exponent, cs'') ← exponentRun? cs'
  let plain := fraction.isEmpty && exponent.isNone
  pure (⟨negative, plain, decimalOf whole fraction (exponent.getD 0)⟩, cs'')

def word? (word cs : List Char) : Option (List Char) :=
  if word.isPrefixOf cs then some (cs.drop word.length) else none

mutual

/-- Reads a literal after white space. The fuel bounds the nesting and the length of lists. -/
def literal? : Nat → List Char → Option (Literal × List Char)
  | 0, _ => none
  | fuel + 1, cs =>
    match skipSpace cs with
    | [] => none
    | c :: rest =>
      if c = '"' then (stringTail? [] true rest).map fun (s, rest) => (.string s, rest)
      else if c = '[' then
        match skipSpace rest with
        | ']' :: rest => some (.array [], rest)
        | _ => (elements? fuel rest).map fun (xs, rest) => (.array xs, rest)
      else if c.toNat = 0x7B then
        match skipSpace rest with
        | [] => none
        | d :: rest' =>
          if d.toNat = 0x7D then some (.object [], rest')
          else (members? fuel (d :: rest')).map fun (ms, rest) => (.object ms, rest)
      else if c = 'n' then (word? "ull".toList rest).map (.null, ·)
      else if c = 't' then (word? "rue".toList rest).map (.bool true, ·)
      else if c = 'f' then (word? "alse".toList rest).map (.bool false, ·)
      else (numeral? (c :: rest)).map fun (n, rest) => (.number n, rest)

def elements? : Nat → List Char → Option (List Literal × List Char)
  | 0, _ => none
  | fuel + 1, cs =>
    match literal? fuel cs with
    | none => none
    | some (x, rest) =>
      match skipSpace rest with
      | ',' :: rest => (elements? fuel rest).map fun (xs, rest) => (x :: xs, rest)
      | ']' :: rest => some ([x], rest)
      | _ => none

def members? : Nat → List Char → Option (List (Option String × Literal) × List Char)
  | 0, _ => none
  | fuel + 1, cs =>
    match skipSpace cs with
    | '"' :: rest =>
      match stringTail? [] true rest with
      | none => none
      | some (key, rest) =>
        match skipSpace rest with
        | ':' :: rest =>
          match literal? fuel rest with
          | none => none
          | some (v, rest) =>
            match skipSpace rest with
            | [] => none
            | d :: rest =>
              if d = ',' then (members? fuel rest).map fun (ms, rest) => ((key, v) :: ms, rest)
              else if d.toNat = 0x7D then some ([(key, v)], rest)
              else none
        | _ => none
    | _ => none

end

namespace Literal

def ofText? (text : String) : Option Literal :=
  let cs := text.toList
  match literal? (cs.length + 1) cs with
  | some (v, rest) => if (skipSpace rest).isEmpty then some v else none
  | none => none

mutual

def toValue? : Literal → Nat → Option Value
  | .null, _ => some .null
  | .bool b, _ => some (.bool b)
  | .number n, _ => n.toNumber?.map .number
  | .string s, _ => s.map .string
  | .array _, 0 => none
  | .array xs, depth + 1 => (elementValues? xs depth).map .array
  | .object _, 0 => none
  | .object ms, depth + 1 => (memberValues? ms depth).map fun ms => .object (sortedMembers ms)

def elementValues? : List Literal → Nat → Option (List Value)
  | [], _ => some []
  | x :: xs, depth => do
    let v ← toValue? x depth
    let vs ← elementValues? xs depth
    pure (v :: vs)

def memberValues? : List (Option String × Literal) → Nat → Option (List (String × Value))
  | [], _ => some []
  | (k, x) :: ms, depth => do
    let k ← k
    let v ← toValue? x depth
    let vs ← memberValues? ms depth
    pure ((k, v) :: vs)

end

end Literal

def nestingLimit : Nat := 127

def Value.ofText? (text : String) : Option Value :=
  (Literal.ofText? text).bind (·.toValue? nestingLimit)

end MarketSketch.Json
