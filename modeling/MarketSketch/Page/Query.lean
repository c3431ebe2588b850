import MarketSketch.Number.Decimal
import MarketSketch.Page.Host
import MarketSketch.Text.Bytes

/-!
The query of a page's address as names and values in the form encoding: pieces between ampersands,
a name up to the first equals sign, plus signs for blanks and bytes as a percent sign with two
hexadecimal digits.
-/

namespace MarketSketch.Query

def split (sep : Nat) : List Nat → List (List Nat)
  | [] => [[]]
  | b :: rest =>
    if b = sep then [] :: split sep rest
    else
      match split sep rest with
      | [] => [[b]]
      | piece :: pieces => (b :: piece) :: pieces

def hexByte? (b : Nat) : Option Nat := if b < 128 then hexValue? (Char.ofNat b) else none

def unescaped : List Nat → List Nat
  | [] => []
  | 0x25 :: a :: b :: rest =>
    match hexByte? a, hexByte? b with
    | some h, some l => (h * 16 + l) :: unescaped rest
    | _, _ => 0x25 :: unescaped (a :: b :: rest)
  | b :: rest => (if b = 0x2B then 0x20 else b) :: unescaped rest
termination_by bs => bs.length

def pair (piece : List Nat) : String × String :=
  let (name, rest) := piece.span (· ≠ 0x3D)
  (Text.ofBytes (unescaped name), Text.ofBytes (unescaped (rest.drop 1)))

def pairs (search : String) : List (String × String) :=
  let bytes := match Text.toBytes search with
    | 0x3F :: rest => rest
    | bytes => bytes
  ((split 0x26 bytes).filter (!·.isEmpty)).map pair

def first? (search name : String) : Option String := (pairs search).lookup name

end MarketSketch.Query

namespace MarketSketch.Host

def parameter? (h : Host) (name : String) : Option String :=
  if h.window && !h.searchThrows then Query.first? h.search name else none

end MarketSketch.Host
