/-!
Text from bytes: each longest beginning of a malformed sequence reads as one replacement character.
-/

namespace MarketSketch.Text

def replacement : Char := Char.ofNat 0xFFFD

def leadingByte? (b : Nat) : Option (Nat × Nat × Nat × Nat) :=
  if 0xC2 ≤ b ∧ b ≤ 0xDF then some (1, b - 0xC0, 0x80, 0xBF)
  else if b = 0xE0 then some (2, 0, 0xA0, 0xBF)
  else if b = 0xED then some (2, 0xD, 0x80, 0x9F)
  else if 0xE1 ≤ b ∧ b ≤ 0xEF then some (2, b - 0xE0, 0x80, 0xBF)
  else if b = 0xF0 then some (3, 0, 0x90, 0xBF)
  else if 0xF1 ≤ b ∧ b ≤ 0xF3 then some (3, b - 0xF0, 0x80, 0xBF)
  else if b = 0xF4 then some (3, 4, 0x80, 0x8F)
  else none

structure Partial where
  missing : Nat
  bits : Nat
  low : Nat
  high : Nat

def Partial.next (p : Partial) (b : Nat) : Partial :=
  ⟨p.missing - 1, p.bits * 64 + (b - 0x80), 0x80, 0xBF⟩

def opening (b : Nat) : Option Partial × List Char :=
  if b < 0x80 then (none, [Char.ofNat b])
  else match leadingByte? b with
    | some (missing, bits, low, high) => (some ⟨missing, bits, low, high⟩, [])
    | none => (none, [replacement])

def decodeFrom : Option Partial → List Nat → List Char
  | none, [] => []
  | some _, [] => [replacement]
  | none, b :: rest =>
    let (p, cs) := opening b
    cs ++ decodeFrom p rest
  | some p, b :: rest =>
    if p.low ≤ b ∧ b ≤ p.high then
      let p := p.next b
      if p.missing = 0 then Char.ofNat p.bits :: decodeFrom none rest
      else decodeFrom (some p) rest
    else
      let (q, cs) := opening b
      replacement :: cs ++ decodeFrom q rest

def ofBytes (bytes : List Nat) : String := String.ofList (decodeFrom none bytes)

def toBytes (s : String) : List Nat := s.toUTF8.toList.map UInt8.toNat

end MarketSketch.Text
