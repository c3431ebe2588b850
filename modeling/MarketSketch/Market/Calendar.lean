import MarketSketch.Number.Reading
import MarketSketch.Text.Blank

/-!
Dates and times of day in the Gregorian calendar, and the texts that name an instant: with an offset
from universal time, or without one and then in universal time.
-/

namespace MarketSketch

def isLeapYear (y : Int) : Bool := y % 4 = 0 && (y % 100 ≠ 0 || y % 400 = 0)

def daysBeforeYear (y : Int) : Int :=
  let p := y - 1
  365 * p + p / 4 - p / 100 + p / 400

def daysInMonth (y : Int) (m : Nat) : Nat :=
  match m with
  | 2 => if isLeapYear y then 29 else 28
  | 4 | 6 | 9 | 11 => 30
  | _ => 31

def daysBeforeMonth (y : Int) (m : Nat) : Nat :=
  ((List.range (m - 1)).map fun i => daysInMonth y (i + 1)).foldl (· + ·) 0

def epochDay : Int := 719162

/-- A date and a time of day; second 60 is a leap second. -/
structure DateTime where
  year : Int
  month : Nat
  day : Nat
  hour : Nat
  minute : Nat
  second : Nat
deriving DecidableEq, Repr

namespace DateTime

def valid (t : DateTime) : Bool :=
  (-262143 ≤ t.year && t.year ≤ 262142) && (1 ≤ t.month && t.month ≤ 12) &&
    (1 ≤ t.day && t.day ≤ daysInMonth t.year t.month) && t.hour ≤ 23 && t.minute ≤ 59 &&
    t.second ≤ 60

/-- Seconds since 1970 in universal time; a leap second counts as the second before it. -/
def seconds (t : DateTime) : Int :=
  (daysBeforeYear t.year + daysBeforeMonth t.year t.month + t.day - 1 - epochDay) * 86400 +
    (t.hour * 3600 + t.minute * 60 + min t.second 59 : Nat)

end DateTime

def digitField? (least most : Nat) (cs : List Char) : Option (Nat × List Char) :=
  let digits := (cs.take most).takeWhile isDigit
  if digits.length < least then none else some (spelled digits, cs.drop digits.length)

def char? (c : Char) : List Char → Option (List Char)
  | d :: rest => if c = d then some rest else none
  | [] => none

def fractionOfSecond? : List Char → Option (List Char)
  | '.' :: rest => if (rest.takeWhile isDigit).isEmpty then none else some (rest.dropWhile isDigit)
  | rest => some rest

def minusSign : Char := Char.ofNat 0x2212

/-- An offset in seconds east: `Z`, or a sign, two digits, a colon and two digits. -/
def offset? (cs : List Char) : Option (Int × List Char) :=
  match cs with
  | [] => none
  | sign :: rest =>
    if sign = 'Z' ∨ sign = 'z' then some (0, rest)
    else if sign = '+' ∨ sign = '-' ∨ sign = minusSign then do
      let (hours, rest) ← digitField? 2 2 rest
      let rest ← char? ':' rest
      let (minutes, rest) ← digitField? 2 2 rest
      if 59 < minutes || 23 < hours then none
      let east : Int := (hours * 60 + minutes) * 60
      pure (if sign = '+' then east else -east, rest)
    else none

def offsetInstant? (cs : List Char) : Option Int := do
  let (year, cs) ← digitField? 4 4 cs
  let cs ← char? '-' cs
  let (month, cs) ← digitField? 2 2 cs
  let cs ← char? '-' cs
  let (day, cs) ← digitField? 2 2 cs
  let cs ← match cs with
    | c :: rest => if c = 'T' ∨ c = 't' ∨ c = ' ' then some rest else none
    | [] => none
  let (hour, cs) ← digitField? 2 2 cs
  let cs ← char? ':' cs
  let (minute, cs) ← digitField? 2 2 cs
  let cs ← char? ':' cs
  let (second, cs) ← digitField? 2 2 cs
  let cs ← fractionOfSecond? cs
  let (offset, cs) ← offset? cs
  let t : DateTime := ⟨year, month, day, hour, minute, second⟩
  if t.valid && cs.isEmpty then some (t.seconds - offset) else none

/-- A year: up to four digits, or any number of them after a sign. -/
def year? (cs : List Char) : Option (Int × List Char) :=
  match Text.trimStart cs with
  | '-' :: rest => (digitField? 1 rest.length rest).map fun (n, rest) => (-(n : Int), rest)
  | '+' :: rest => (digitField? 1 rest.length rest).map fun (n, rest) => ((n : Int), rest)
  | rest => (digitField? 1 4 rest).map fun (n, rest) => ((n : Int), rest)

def shortField? (cs : List Char) : Option (Nat × List Char) := digitField? 1 2 (Text.trimStart cs)

inductive DateSeparator where
  | letter
  | blanks

def DateSeparator.skip? : DateSeparator → List Char → Option (List Char)
  | letter, cs => char? 'T' cs
  | blanks, cs => some (Text.trimStart cs)

def plainInstant? (separator : DateSeparator) (cs : List Char) : Option Int := do
  let (year, cs) ← year? cs
  let cs ← char? '-' cs
  let (month, cs) ← shortField? cs
  let cs ← char? '-' cs
  let (day, cs) ← shortField? cs
  let cs ← separator.skip? cs
  let (hour, cs) ← shortField? cs
  let cs ← char? ':' cs
  let (minute, cs) ← shortField? cs
  let cs ← char? ':' cs
  let (second, cs) ← shortField? cs
  let cs ← fractionOfSecond? cs
  let t : DateTime := ⟨year, month, day, hour, minute, second⟩
  if t.valid && cs.isEmpty then some t.seconds else none

end MarketSketch
