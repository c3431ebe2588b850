import MarketSketch.Drawing.Setup
import MarketSketch.Proofs.Drawing.Archive

/-! Setups drawn through the adapter. What is built of a signal document has finite prices only, and
an analysis with finite prices gives, from its own text, a shape for each of its levels and zones.
The two halves meet at `Analysis.Finite`. -/

namespace MarketSketch

open Json

namespace AnalysisLevel

def Finite (l : AnalysisLevel) : Prop := l.price.isFinite = true

def members (l : AnalysisLevel) : List (String × Value) :=
  ("price", .real l.price) :: Value.optional "label" .string l.label

theorem nodup_members (l : AnalysisLevel) : (l.members.map (·.1)).Nodup := by
  obtain ⟨price, label⟩ := l
  cases label <;> simp [members, Value.optional]

theorem lookup_label (l : AnalysisLevel) : l.members.lookup "label" = l.label.map .string := by
  obtain ⟨price, label⟩ := l
  cases label <;> rfl

theorem fits_toJson (l : AnalysisLevel) (depth : Nat) : l.toJson.Fits (depth + 1) := by
  obtain ⟨price, label⟩ := l
  cases label <;> simp [toJson, Value.optional, Value.real, Value.Fits, MembersFit]

theorem ofDocument?_normal {l : AnalysisLevel} (h : l.Finite) :
    ofDocument? l.toJson.normal = some l := by
  have hfields := fields?_normal l.nodup_members ["price", "label"]
  have hprice : l.members.lookup "price" = some (.real l.price) := rfl
  have hread := (Archive.required?_real l.price).trans (if_pos h)
  have htext : l.toJson = .object l.members := rfl
  unfold ofDocument?
  simp only [htext, hfields, Option.bind_eq_bind, Option.bind_some, List.map_cons, List.map_nil,
    hprice, l.lookup_label, Option.map_some, hread, Archive.nullable?_text, Option.pure_def]

end AnalysisLevel

namespace AnalysisZone

def Finite (z : AnalysisZone) : Prop := z.priceFrom.isFinite = true ∧ z.priceTo.isFinite = true

def members (z : AnalysisZone) : List (String × Value) :=
  ("priceFrom", .real z.priceFrom) :: ("priceTo", .real z.priceTo) ::
    Value.optional "label" .string z.label

theorem nodup_members (z : AnalysisZone) : (z.members.map (·.1)).Nodup := by
  obtain ⟨priceFrom, priceTo, label⟩ := z
  cases label <;> simp [members, Value.optional]

theorem lookup_label (z : AnalysisZone) : z.members.lookup "label" = z.label.map .string := by
  obtain ⟨priceFrom, priceTo, label⟩ := z
  cases label <;> rfl

theorem fits_toJson (z : AnalysisZone) (depth : Nat) : z.toJson.Fits (depth + 1) := by
  obtain ⟨priceFrom, priceTo, label⟩ := z
  cases label <;> simp [toJson, Value.optional, Value.real, Value.Fits, MembersFit]

theorem ofDocument?_normal {z : AnalysisZone} (h : z.Finite) :
    ofDocument? z.toJson.normal = some z := by
  have hfields := fields?_normal z.nodup_members ["priceFrom", "priceTo", "label"]
  have hfrom : z.members.lookup "priceFrom" = some (.real z.priceFrom) := rfl
  have hto : z.members.lookup "priceTo" = some (.real z.priceTo) := rfl
  have hreadFrom := (Archive.required?_real z.priceFrom).trans (if_pos h.1)
  have hreadTo := (Archive.required?_real z.priceTo).trans (if_pos h.2)
  have htext : z.toJson = .object z.members := rfl
  unfold ofDocument?
  simp only [htext, hfields, Option.bind_eq_bind, Option.bind_some, List.map_cons, List.map_nil,
    hfrom, hto, z.lookup_label, Option.map_some, hreadFrom, hreadTo, Archive.nullable?_text,
    Option.pure_def]

end AnalysisZone

namespace Analysis

variable {a : Analysis} {w : Window}

structure Finite (a : Analysis) : Prop where
  levels : ∀ l ∈ a.levels, l.Finite
  zones : ∀ z ∈ a.zones, z.Finite
  fiboZones : ∀ z ∈ a.fiboZones, z.Finite

theorem normalElements_eq_map (xs : List Value) : normalElements xs = xs.map Value.normal := by
  induction xs with
  | nil => rfl
  | cons x xs ih => rw [normalElements, ih, List.map_cons]

theorem elementsFit_iff (xs : List Value) (depth : Nat) :
    ElementsFit xs depth ↔ ∀ x ∈ xs, x.Fits depth := by
  induction xs with
  | nil => simp [ElementsFit]
  | cons x xs ih => simp [ElementsFit, ih]

theorem fits_toJson (a : Analysis) : a.toJson.Fits nestingLimit := by
  have hlevels (depth : Nat) : ElementsFit (a.levels.map (·.toJson)) (depth + 1) := by
    simpa [elementsFit_iff] using fun l _ => AnalysisLevel.fits_toJson l depth
  have hzones (zones : List AnalysisZone) (depth : Nat) :
      ElementsFit (zones.map (·.toJson)) (depth + 1) := by
    simpa [elementsFit_iff] using fun z _ => AnalysisZone.fits_toJson z depth
  exact ⟨hlevels _, hzones a.zones _, hzones a.fiboZones _, trivial⟩

theorem items_normal (a : Analysis) :
    items a.toJson.normal "levels" = a.levels.map (·.toJson.normal) ∧
      items a.toJson.normal "zones" = a.zones.map (·.toJson.normal) ∧
      items a.toJson.normal "fiboZones" = a.fiboZones.map (·.toJson.normal) := by
  have hnodup : ([("levels", Value.array (a.levels.map (·.toJson))),
      ("zones", .array (a.zones.map (·.toJson))),
      ("fiboZones", .array (a.fiboZones.map (·.toJson)))].map (·.1)).Nodup := by simp
  have hget := get?_normal hnodup
  have harray (name : String) (xs : List Value)
      (h : a.toJson.normal.get? name = some (Value.array xs).normal) :
      items a.toJson.normal name = xs.map Value.normal := by
    rw [items, h, ← normalElements_eq_map]
    rfl
  refine ⟨?_, ?_, ?_⟩
  · rw [harray "levels" _ (hget "levels"), List.map_map]; rfl
  · rw [harray "zones" _ (hget "zones"), List.map_map]; rfl
  · rw [harray "fiboZones" _ (hget "fiboZones"), List.map_map]; rfl

def levelShape (w : Window) (i : Nat) (l : AnalysisLevel) : EngineShape :=
  ⟨⟨itemId "level" i, w.createdAt, l.label, .level l.price⟩, .gold⟩

def zoneShape (w : Window) (g : ZoneGroup) (i : Nat) (z : AnalysisZone) : EngineShape :=
  ⟨⟨itemId g.word i, w.createdAt, z.label, .zone ⟨w.start, z.priceFrom⟩ ⟨w.stop, z.priceTo⟩⟩,
    g.tone⟩

theorem levelShape?_normal (w : Window) (i : Nat) {l : AnalysisLevel} (h : l.Finite) :
    levelShape? w i l.toJson.normal = some (levelShape w i l) := by
  rw [levelShape?, AnalysisLevel.ofDocument?_normal h, Option.bind_some]
  exact if_pos h

theorem zoneShape?_normal (w : Window) (g : ZoneGroup) (i : Nat) {z : AnalysisZone}
    (h : z.Finite) : zoneShape? w g i z.toJson.normal = some (zoneShape w g i z) := by
  rw [zoneShape?, AnalysisZone.ofDocument?_normal h, Option.bind_some, h.1, h.2]
  rfl

theorem adapt_normal (w : Window) (h : a.Finite) :
    adapt w a.toJson.normal =
      ⟨a.levels.mapIdx (levelShape w) ++ a.zones.mapIdx (zoneShape w ⟨"zones", "zone", .green⟩) ++
        a.fiboZones.mapIdx (zoneShape w ⟨"fiboZones", "fibo", .gold⟩), 0⟩ := by
  -- an item that is read as what it was written from gives the same answer at the same place
  have mapped {α β : Type} {xs : List α} {f : Nat → Value → Option β} {g : Nat → α → β}
      {j : α → Value} (hx : ∀ i, ∀ x ∈ xs, f i (j x) = some (g i x)) :
      (xs.map j).mapIdx f = (xs.mapIdx g).map some := by
    refine List.ext_getElem (by simp) fun i _ _ => ?_
    simp [hx]
  obtain ⟨hlevels, hzones, hfibo⟩ := a.items_normal
  have hadapted : adapted w a.toJson.normal = (a.levels.mapIdx (levelShape w) ++
      a.zones.mapIdx (zoneShape w ⟨"zones", "zone", .green⟩) ++
      a.fiboZones.mapIdx (zoneShape w ⟨"fiboZones", "fibo", .gold⟩)).map some := by
    rw [adapted, hlevels, mapped fun i l hl => levelShape?_normal w i (h.levels l hl)]
    simp only [zoneGroups, List.flatMap_cons, List.flatMap_nil, hzones, hfibo]
    rw [mapped fun i z hz => zoneShape?_normal w _ i (h.zones z hz),
      mapped fun i z hz => zoneShape?_normal w _ i (h.fiboZones z hz)]
    simp
  rw [adapt, hadapted]
  simp [List.filterMap_map, List.countP_eq_zero]

end Analysis

namespace Setup

theorem finite_of_number? {v : Option Value} {x : Float} (h : number? v = some x) :
    x.isFinite = true :=
  (Option.filter_eq_some_iff.mp h).2

theorem finite_of_firstNumber? {v : Value} {names : List String} {x : Float}
    (h : firstNumber? v names = some x) : x.isFinite = true := by
  obtain ⟨name, -, hname⟩ := List.exists_of_findSome?_eq_some h
  exact finite_of_number? (Option.filter_eq_some_iff.mp hname).1

theorem finite_of_box? {a b : Option Float} {label : String} {z : AnalysisZone}
    (ha : ∀ x ∈ a, x.isFinite = true) (hb : ∀ x ∈ b, x.isFinite = true)
    (h : box? a b label = some z) : z.Finite := by
  cases a with
  | none => cases h
  | some a =>
    cases b with
    | none => cases h
    | some b =>
      have ha := ha a rfl
      have hb := hb b rfl
      obtain ⟨-, h⟩ := Option.ite_none_right_eq_some.mp h
      cases h
      constructor
      · show (Double.lesser a b).isFinite = true
        unfold Double.lesser
        split <;> assumption
      · show (Double.greater a b).isFinite = true
        unfold Double.greater
        split <;> assumption

structure Finite (s : Setup) : Prop where
  entry : ∀ x ∈ s.entry, x.isFinite = true
  stop : ∀ x ∈ s.stop, x.isFinite = true
  target : ∀ x ∈ s.target, x.isFinite = true

theorem finite_ofJson (v : Value) : (ofJson v).Finite :=
  ⟨fun _ => finite_of_number?, fun _ => finite_of_number?, fun _ => finite_of_number?⟩

namespace Finite

variable {s : Setup}

theorem of_mem_levels (h : s.Finite) {l : AnalysisLevel} (hl : l ∈ s.levels) : l.Finite := by
  have single {price : Option Float} {label : String} (hprice : ∀ x ∈ price, x.isFinite = true)
      (hl : l ∈ (price.map fun p => (⟨p, some label⟩ : AnalysisLevel)).toList) : l.Finite := by
    obtain ⟨p, hp, rfl⟩ := Option.map_eq_some_iff.mp (Option.mem_toList.mp hl)
    exact hprice p hp
  rw [levels, List.mem_append, List.mem_append] at hl
  obtain (hl | hl) | hl := hl
  · exact single h.entry hl
  · exact single h.stop hl
  · exact single h.target hl

theorem of_entryBox? {z : AnalysisZone} (h : s.entryBox? = some z) : z.Finite := by
  obtain ⟨zone, -, h⟩ := Option.bind_eq_some_iff.mp h
  exact finite_of_box? (fun _ => finite_of_firstNumber?) (fun _ => finite_of_firstNumber?) h

theorem analysis (h : s.Finite) : s.analysis.Finite where
  levels _ := h.of_mem_levels
  zones _ hz := of_entryBox? (Option.mem_toList.mp hz)
  fiboZones _ hz := nomatch hz

theorem drawings (h : s.Finite) : s.drawings.Finite where
  levels _ := h.of_mem_levels
  zones z hz := by
    rw [Setup.drawings, List.mem_append, List.mem_append] at hz
    obtain (hz | hz) | hz := hz
    · exact h.analysis.zones z hz
    · exact finite_of_box? h.entry h.stop (Option.mem_toList.mp hz)
    · exact finite_of_box? h.entry h.target (Option.mem_toList.mp hz)
  fiboZones _ hz := nomatch hz

end Finite

theorem fiboZones_of_mem {s : Setup} {built : Analysis} (h : built ∈ [s.analysis, s.drawings]) :
    built.fiboZones = [] := by
  obtain rfl | rfl : built = s.analysis ∨ built = s.drawings := by simpa using h
  all_goals rfl

/-- What is built of a signal document, by either builder, reads back from its text and draws in
full: level by level in gold and zone by zone in green, from the first candle to the last or over
the hour up to now, with no fibo shape and nothing passed over. The builders differ only in the
zones that drawings have after those of the analysis. -/
theorem adapt_built (v : Value) (span : Option (Timestamp × Timestamp)) (nowSeconds : Float)
    (now : Int) :
    let start := match span with
      | some (first, _) => Timestamp.toFloat first
      | none => nowSeconds - Double.ofNat 3600
    let stop := match span with
      | some (_, last) => Timestamp.toFloat last
      | none => nowSeconds
    let level (i : Nat) (l : AnalysisLevel) : EngineShape :=
      ⟨⟨"engine:level:" ++ toString i, now, l.label, .level l.price⟩, .gold⟩
    let zone (j : Nat) (z : AnalysisZone) : EngineShape :=
      ⟨⟨"engine:zone:" ++ toString j, now, z.label,
        .zone ⟨start, z.priceFrom⟩ ⟨stop, z.priceTo⟩⟩, .green⟩
    (∀ built ∈ [(ofJson v).analysis, (ofJson v).drawings],
      Value.ofText? built.toJson.text = some built.toJson.normal ∧
        Analysis.adapt (.over span nowSeconds now) built.toJson.normal =
          ⟨built.levels.mapIdx level ++ built.zones.mapIdx zone, 0⟩) ∧
      (ofJson v).analysis.levels = (ofJson v).drawings.levels ∧
      (ofJson v).analysis.zones <+: (ofJson v).drawings.zones := by
  intro start stop level zone
  have hfinite : ∀ built ∈ [(ofJson v).analysis, (ofJson v).drawings], built.Finite := by
    simpa using ⟨(finite_ofJson v).analysis, (finite_ofJson v).drawings⟩
  have hwindow : Analysis.Window.over span nowSeconds now = ⟨start, stop, now⟩ := by
    cases span <;> rfl
  have hlevel : Analysis.levelShape ⟨start, stop, now⟩ = level := rfl
  have hzone : Analysis.zoneShape ⟨start, stop, now⟩ ⟨"zones", "zone", .green⟩ = zone := rfl
  refine ⟨fun built hbuilt => ⟨ofText?_text built.fits_toJson, ?_⟩, rfl, ?_⟩
  · rw [hwindow, Analysis.adapt_normal _ (hfinite built hbuilt), fiboZones_of_mem hbuilt,
      List.mapIdx_nil, List.append_nil, hlevel, hzone]
  · rw [drawings, List.append_assoc]
    exact List.prefix_append _ _

def pricedSignal : Value :=
  .object [("direction", .string "long"), ("entry", .string " 2 "), ("sl", .int 1), ("tp", .int 4),
    ("entry_zone", .object [("low", .int 3), ("high", .int 2)])]

theorem adapt_built_of_pricedSignal :
    let price := Double.ofNat
    let zone (id label : String) (low high : Nat) : EngineShape :=
      ⟨⟨id, 7, some label, .zone ⟨price 60, price low⟩ ⟨price 120, price high⟩⟩, .green⟩
    let level (id label : String) (p : Nat) : EngineShape :=
      ⟨⟨id, 7, some label, .level (price p)⟩, .gold⟩
    Analysis.adapt (.over (some (60, 120)) 0 7) (ofJson pricedSignal).drawings.toJson.normal =
      ⟨[level "engine:level:0" "ENTRY LONG" 2, level "engine:level:1" "SL" 1,
        level "engine:level:2" "TP" 4, zone "engine:zone:0" "Entry zone" 2 3,
        zone "engine:zone:1" "Risk" 1 2, zone "engine:zone:2" "Target" 2 4], 0⟩ := by
  intro price zone level
  have hbuilt := adapt_built pricedSignal (some (60, 120)) 0 7
  rw [(hbuilt.1 _ (List.mem_cons_of_mem _ List.mem_cons_self)).2]
  decide +kernel

end Setup

end MarketSketch
