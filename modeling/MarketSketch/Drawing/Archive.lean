import MarketSketch.Drawing.Shape
import MarketSketch.Json.Record
import MarketSketch.Json.Text
import MarketSketch.Log.Entry
import MarketSketch.Text.Blank

/-!
Stored drawings: an envelope with a version, the time of saving and one record per shape.
`Archive.shapes` reads any text: what is unreadable reads as nothing, malformed records are dropped
one by one, and of records with one id the first is kept.
-/

namespace MarketSketch.Archive

open MarketSketch.Json

def version : Nat := 1

def pointJson (p : ChartPoint) : Value :=
  .object [("time", .real p.time), ("price", .real p.price)]

def geometryMembers : ChartGeometry → List (String × Value)
  | .level price => [("price", .real price)]
  | .trendline a b | .zone a b => [("a", pointJson a), ("b", pointJson b)]

def shapeJson (s : Shape) : Value :=
  .object (("kind", .string s.kind.name) :: ("id", .string s.id) ::
    ("createdAt", .int s.createdAt) :: (Value.optional "label" .string s.label ++
      geometryMembers s.geometry))

def envelope (shapes : List Shape) (savedAt : Int) : Value :=
  .object [("version", .nat version), ("savedAt", .int savedAt),
    ("shapes", .array (shapes.map shapeJson))]

def encode (shapes : List Shape) (savedAt : Int) : String := (envelope shapes savedAt).text

def readPoint? (v : Value) : Option ChartPoint := do
  match ← fields? ["time", "price"] v with
  | [time, price] =>
    let time ← required? real? time
    let price ← required? real? price
    pure ⟨time, price⟩
  | _ => none

def readTime? (v : Value) : Option Int := 
  intBetween? (-0x8000000000000000) 0x7FFFFFFFFFFFFFFF v

/-- The kind of a record and the rest of it: a member of that name, or the first element. -/
def tagged? (v : Value) : Option (ShapeKind × Value) :=
  match v with
  | .object _ => ((v.get? "kind").bind (·.asString?)).bind ShapeKind.ofName? |>.map (·, v)
  | .array (tag :: rest) => (tag.asString?.bind ShapeKind.ofName?).map (·, .array rest)
  | _ => none

def readShape? (v : Value) : Option Shape := do
  match ← tagged? v with
  | (.level, record) =>
    match ← fields? ["id", "createdAt", "label", "price"] record with
    | [id, createdAt, label, price] =>
      let id ← required? text? id
      let createdAt ← required? readTime? createdAt
      let label ← nullable? text? label
      let price ← required? real? price
      pure ⟨id, createdAt, label, .level price⟩
    | _ => none
  | (kind, record) =>
    match ← fields? ["id", "createdAt", "label", "a", "b"] record with
    | [id, createdAt, label, a, b] =>
      let id ← required? text? id
      let createdAt ← required? readTime? createdAt
      let label ← nullable? text? label
      let a ← required? readPoint? a
      let b ← required? readPoint? b
      pure ⟨id, createdAt, label, if kind = .trendline then .trendline a b else .zone a b⟩
    | _ => none

/-- A record that stands for a shape: readable, with an id that shows and finite ends. -/
def validShape? (v : Value) : Option Shape :=
  (readShape? v).filter fun s => !Text.isBlankText s.id && s.geometry.finite

inductive Verdict where
  | kept (s : Shape)
  | duplicate (id : String)
  | malformed (index : Nat)

namespace Verdict

def shape? : Verdict → Option Shape
  | kept s => some s
  | _ => none

def note? : Verdict → Option Log.Note
  | kept _ => none
  | duplicate id =>
    some ⟨.debug, .domain, "Persistence", "dropping duplicate stored shape " ++ id⟩
  | malformed index =>
    some ⟨.debug, .domain, "Persistence",
      "dropping malformed stored shape at index " ++ toString index⟩

end Verdict

def verdicts (seen : List String) (index : Nat) : List Value → List Verdict
  | [] => []
  | v :: rest =>
    match validShape? v with
    | none => .malformed index :: verdicts seen (index + 1) rest
    | some s =>
      if s.id ∈ seen then .duplicate s.id :: verdicts seen (index + 1) rest
      else .kept s :: verdicts (s.id :: seen) (index + 1) rest

def records (document : Value) : List Value :=
  if (document.get? "version").bind (·.asInt?) = some version then
    ((document.get? "shapes").bind (·.asArray?)).getD []
  else []

def readVerdicts (text : String) : List Verdict :=
  match Value.ofText? text with
  | none => []
  | some document => verdicts [] 0 (records document)

def shapes (text : String) : List Shape := (readVerdicts text).filterMap Verdict.shape?

def notes (text : String) : List Log.Note :=
  match Value.ofText? text with
  | none => [⟨.debug, .domain, "Persistence", "stored drawings are not JSON"⟩]
  | some _ => (readVerdicts text).filterMap Verdict.note?

end MarketSketch.Archive
