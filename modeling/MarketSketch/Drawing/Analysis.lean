import MarketSketch.Drawing.Shape
import MarketSketch.Json.Record
import MarketSketch.Json.Text
import MarketSketch.Log.Entry
import MarketSketch.Market.Timestamp

/-!
The analysis layer: price levels and zones as the server sends them, and the read-only shapes made
of them. A bad item is passed over alone; an item keeps the number of its place in its id.
-/

namespace MarketSketch

structure AnalysisLevel where
  price : Float
  label : Option String
deriving DecidableEq

structure AnalysisZone where
  priceFrom : Float
  priceTo : Float
  label : Option String
deriving DecidableEq

structure Analysis where
  levels : List AnalysisLevel := []
  zones : List AnalysisZone := []
  fiboZones : List AnalysisZone := []
deriving DecidableEq

open Json

namespace AnalysisLevel

def ofDocument? {δ : Type} [Document δ] (d : δ) : Option AnalysisLevel := do
  match ← fields? ["price", "label"] d with
  | [price, label] =>
    let price ← required? real? price
    let label ← nullable? text? label
    pure ⟨price, label⟩
  | _ => none

def toJson (l : AnalysisLevel) : Value :=
  .object (("price", .real l.price) :: Value.optional "label" .string l.label)

end AnalysisLevel

namespace AnalysisZone

def ofDocument? {δ : Type} [Document δ] (d : δ) : Option AnalysisZone := do
  match ← fields? ["priceFrom", "priceTo", "label"] d with
  | [priceFrom, priceTo, label] =>
    let priceFrom ← required? real? priceFrom
    let priceTo ← required? real? priceTo
    let label ← nullable? text? label
    pure ⟨priceFrom, priceTo, label⟩
  | _ => none

def toJson (z : AnalysisZone) : Value :=
  .object (("priceFrom", .real z.priceFrom) :: ("priceTo", .real z.priceTo) ::
    Value.optional "label" .string z.label)

end AnalysisZone

namespace Analysis

def ofDocument? {δ : Type} [Document δ] (d : δ) : Option Analysis := do
  match ← fields? ["levels", "zones", "fiboZones"] d with
  | [levels, zones, fiboZones] =>
    let levels ← defaulted? [] (list? AnalysisLevel.ofDocument?) levels
    let zones ← defaulted? [] (list? AnalysisZone.ofDocument?) zones
    let fiboZones ← defaulted? [] (list? AnalysisZone.ofDocument?) fiboZones
    pure ⟨levels, zones, fiboZones⟩
  | _ => none

def ofText? (text : String) : Option Analysis := (Literal.ofText? text).bind ofDocument?

def toJson (a : Analysis) : Value :=
  .object [("levels", .array (a.levels.map (·.toJson))), ("zones", .array (a.zones.map (·.toJson))),
    ("fiboZones", .array (a.fiboZones.map (·.toJson)))]

def items (payload : Value) (name : String) : List Value :=
  ((payload.get? name).bind (·.asArray?)).getD []

structure ZoneGroup where
  field : String
  word : String
  tone : Tone
deriving DecidableEq, Repr

def zoneGroups : List ZoneGroup := [⟨"zones", "zone", .green⟩, ⟨"fiboZones", "fibo", .gold⟩]

def itemId (word : String) (index : Nat) : String := "engine:" ++ word ++ ":" ++ toString index

structure Window where
  start : Float
  stop : Float
  createdAt : Int
deriving DecidableEq

def fallbackSpan : Float := Double.ofNat 3600

/-- The span of the loaded candles, or the hour up to now if there are none. -/
def Window.over (span : Option (Timestamp × Timestamp)) (nowSeconds : Float) (now : Int) :
    Window :=
  match span with
  | some (first, last) => ⟨Timestamp.toFloat first, Timestamp.toFloat last, now⟩
  | none => ⟨nowSeconds - fallbackSpan, nowSeconds, now⟩

def levelShape? (w : Window) (index : Nat) (item : Value) : Option EngineShape :=
  (AnalysisLevel.ofDocument? item).bind fun l =>
    if l.price.isFinite then
      some ⟨⟨itemId "level" index, w.createdAt, l.label, .level l.price⟩, .gold⟩
    else none

def zoneShape? (w : Window) (g : ZoneGroup) (index : Nat) (item : Value) : Option EngineShape :=
  (AnalysisZone.ofDocument? item).bind fun z =>
    if z.priceFrom.isFinite && z.priceTo.isFinite then
      some ⟨⟨itemId g.word index, w.createdAt, z.label,
        .zone ⟨w.start, z.priceFrom⟩ ⟨w.stop, z.priceTo⟩⟩, g.tone⟩
    else none

/-- One answer per item, in the order levels, zones, fibo zones. -/
def adapted (w : Window) (payload : Value) : List (Option EngineShape) :=
  (items payload "levels").mapIdx (levelShape? w) ++
    zoneGroups.flatMap fun g => (items payload g.field).mapIdx (zoneShape? w g)

structure Adaptation where
  shapes : List EngineShape
  skipped : Nat
deriving DecidableEq

def adapt (w : Window) (payload : Value) : Adaptation :=
  let answers := adapted w payload
  ⟨answers.filterMap id, answers.countP (·.isNone)⟩

namespace Adaptation

def notes (a : Adaptation) : List Log.Note :=
  if a.skipped = 0 then []
  else
    [⟨.warn, .domain, "EngineAdapter",
      "skipped " ++ toString a.skipped ++ " malformed annotation items"⟩]

end Adaptation

end Analysis

end MarketSketch
