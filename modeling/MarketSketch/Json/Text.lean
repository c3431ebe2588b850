import MarketSketch.Json.Value
import MarketSketch.Number.Figures

/-!
The text of a value: no blanks, members in their order, numbers by their shortest figures, and the
escapes that a string needs. Numbers that are not finite have no text and are written `null`.
-/

namespace MarketSketch.Json

def hexPair (n : Nat) : List Char :=
  [Nat.digitChar (n / 16 % 16), Nat.digitChar (n % 16)]

def escapedChar (c : Char) : List Char :=
  if c = '"' then ['\\', '"']
  else if c = '\\' then ['\\', '\\']
  else if c.toNat < 0x20 then
    if c.toNat = 8 then ['\\', 'b']
    else if c.toNat = 9 then ['\\', 't']
    else if c.toNat = 10 then ['\\', 'n']
    else if c.toNat = 12 then ['\\', 'f']
    else if c.toNat = 13 then ['\\', 'r']
    else ['\\', 'u', '0', '0'] ++ hexPair c.toNat
  else [c]

def stringChars (s : String) : List Char := '"' :: (s.toList.flatMap escapedChar ++ ['"'])

def intChars (n : Int) : List Char :=
  if n < 0 then '-' :: Nat.toDigits 10 n.natAbs else Nat.toDigits 10 n.natAbs

/-- A number that is not finite is written as null. -/
def Number.chars : Number → List Char
  | .whole n => intChars n
  | .wide x => if x.isFinite then Double.figures documentDouble x else "null".toList
  | .narrow x => if x.isFinite then Single.figures documentSingle x else "null".toList

mutual

def Value.chars : Value → List Char
  | .null => "null".toList
  | .bool true => "true".toList
  | .bool false => "false".toList
  | .number n => n.chars
  | .string s => stringChars s
  | .array [] => "[]".toList
  | .array (x :: xs) => '[' :: (x.chars ++ elementChars xs)
  | .object [] => [Char.ofNat 0x7B, Char.ofNat 0x7D]
  | .object ((k, v) :: ms) =>
    Char.ofNat 0x7B :: (stringChars k ++ ':' :: (v.chars ++ memberChars ms))

def elementChars : List Value → List Char
  | [] => [']']
  | x :: xs => ',' :: (x.chars ++ elementChars xs)

def memberChars : List (String × Value) → List Char
  | [] => [Char.ofNat 0x7D]
  | (k, v) :: ms => ',' :: (stringChars k ++ ':' :: (v.chars ++ memberChars ms))

end

def Value.text (v : Value) : String := String.ofList v.chars

end MarketSketch.Json
