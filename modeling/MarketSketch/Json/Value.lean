import MarketSketch.Number.Double

/-!
JSON values. Whole numbers of 64 bits are kept apart from other numbers, and the members of an
object that was read stand in the order of their keys, each key once.
-/

namespace MarketSketch.Json

/-- A number: whole, wide or narrow. Narrow numbers are only written, never read. -/
inductive Number where
  | whole (n : Int)
  | wide (x : Float)
  | narrow (x : Float32)
deriving DecidableEq

inductive Value where
  | null
  | bool (b : Bool)
  | number (n : Number)
  | string (s : String)
  | array (xs : List Value)
  | object (members : List (String × Value))

namespace Number

def toFloat : Number → Float
  | .whole n => Double.ofInt n
  | .wide x => x
  | .narrow x => x.toFloat

def toSingle : Number → Float32
  | .whole n => Single.ofInt n
  | .wide x => Single.ofDouble x
  | .narrow x => x

def toInt? : Number → Option Int
  | .whole n => some n
  | _ => none

end Number

/-- Puts a member in its place; a key that is there already takes the new value. -/
def insertMember (key : String) (v : Value) : List (String × Value) → List (String × Value)
  | [] => [(key, v)]
  | (k, w) :: rest =>
    if key < k then (key, v) :: (k, w) :: rest
    else if key = k then (key, v) :: rest
    else (k, w) :: insertMember key v rest

def sortedMembers (members : List (String × Value)) : List (String × Value) :=
  members.foldl (fun sorted (k, v) => insertMember k v sorted) []

namespace Value

def get? (v : Value) (key : String) : Option Value :=
  match v with
  | .object members => members.lookup key
  | _ => none

def asArray? : Value → Option (List Value)
  | .array xs => some xs
  | _ => none

def asString? : Value → Option String
  | .string s => some s
  | _ => none

def asFloat? : Value → Option Float
  | .number n => some n.toFloat
  | _ => none

def asInt? : Value → Option Int
  | .number n => n.toInt?
  | _ => none

def isObject : Value → Bool
  | .object _ => true
  | _ => false

def int (n : Int) : Value := .number (.whole n)

def nat (n : Nat) : Value := .number (.whole n)

def real (x : Float) : Value := .number (.wide x)

def ofOption {α : Type} (f : α → Value) : Option α → Value
  | none => .null
  | some a => f a

def optional {α : Type} (key : String) (f : α → Value) : Option α → List (String × Value)
  | none => []
  | some a => [(key, f a)]

end Value

end MarketSketch.Json
