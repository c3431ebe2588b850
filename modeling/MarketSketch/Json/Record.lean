import MarketSketch.Json.Literal

/-!
Records read from a value or from a text as written. A record is an object, or an array of its
fields in order; unknown members are passed over and a known one may stand once. `Document` is what
both kinds of source show of themselves.
-/

namespace MarketSketch.Json

structure Reading where
  int? : Option Int
  real? : Option Float
  single? : Option Float32

inductive View (δ : Type) where
  | null
  | bool (b : Bool)
  | number (r : Reading)
  | string (s : Option String)
  | array (xs : List δ)
  | object (members : List (Option String × δ))

/-- What can be read as a record. -/
class Document (δ : Type) where
  view : δ → View δ

instance : Document Value where
  view
    | .null => .null
    | .bool b => .bool b
    | .number n => .number ⟨n.toInt?, some n.toFloat, some n.toSingle⟩
    | .string s => .string (some s)
    | .array xs => .array xs
    | .object ms => .object (ms.map fun (k, v) => (some k, v))

instance : Document Literal where
  view
    | .null => .null
    | .bool b => .bool b
    | .number n => .number ⟨n.toInt?, n.toFloat?, n.toSingle?⟩
    | .string s => .string s
    | .array xs => .array xs
    | .object ms => .object ms

variable {δ : Type} [Document δ]

open Document

def text? (d : δ) : Option String :=
  match view d with
  | .string s => s
  | _ => none

def real? (d : δ) : Option Float :=
  match view d with
  | .number r => r.real?
  | _ => none

def single? (d : δ) : Option Float32 :=
  match view d with
  | .number r => r.single?
  | _ => none

def int? (d : δ) : Option Int :=
  match view d with
  | .number r => r.int?
  | _ => none

def intBetween? (low high : Int) (d : δ) : Option Int :=
  (int? d).filter fun n => low ≤ n ∧ n ≤ high

def array? (d : δ) : Option (List δ) :=
  match view d with
  | .array xs => some xs
  | _ => none

def list? {α : Type} (read : δ → Option α) (d : δ) : Option (List α) :=
  (array? d).bind (·.mapM read)

def member? (members : List (Option String × δ)) (name : String) : Option (Option δ) :=
  match members.filter (·.1 = some name) with
  | [] => some none
  | [(_, d)] => some (some d)
  | _ => none

/-- The named fields of a record, in the order of the names. -/
def fields? (names : List String) (d : δ) : Option (List (Option δ)) :=
  match view d with
  | .object ms =>
    if ms.any (·.1.isNone) then none else names.mapM (member? ms)
  | .array xs =>
    if names.length < xs.length then none
    else some (xs.map some ++ List.replicate (names.length - xs.length) none)
  | _ => none

def required? {α : Type} (read : δ → Option α) (field : Option δ) : Option α := field.bind read

def defaulted? {α : Type} (value : α) (read : δ → Option α) : Option δ → Option α
  | none => some value
  | some d => read d

/-- A field that may be left out or be null. -/
def nullable? {α : Type} (read : δ → Option α) : Option δ → Option (Option α)
  | none => some none
  | some d =>
    match view d with
    | .null => some none
    | _ => (read d).map some

end MarketSketch.Json
