import MarketSketch.Drawing.Analysis
import Mathlib

/-! The shapes of an analysis, item by item. Each item of the three arrays has an id of its own, by
its place, and gives one shape with that id or is passed over. What stands elsewhere in the payload
has no say in it. -/

namespace MarketSketch

namespace Json.Value

variable (v : Value) (i : Nat) (x : Value)

/-- The elements of the array that stands under a name, if one does. -/
def elements (name : String) : List Value :=
  match v.get? name with
  | some (.array xs) => xs
  | _ => []

def withElement : Value :=
  match v with
  | .array xs => .array (xs.set i x)
  | v => v

/-- The value with another element at a place of the array that stands under a name. -/
def withItem (name : String) : Value :=
  match v with
  | .object ms => .object (ms.map fun (k, w) => (k, if k = name then w.withElement i x else w))
  | v => v

theorem lookup_mapped (ms : List (String × Value)) (change : String → Value → Value)
    (name : String) :
    (ms.map fun (k, w) => (k, change k w)).lookup name = (ms.lookup name).map (change name) := by
  induction ms with
  | nil => rfl
  | cons m ms ih =>
    obtain ⟨k, w⟩ := m
    rw [List.map_cons, List.lookup_cons, List.lookup_cons]
    by_cases hk : name = k
    · simp [hk]
    · simpa [beq_false_of_ne hk] using ih

theorem get?_withItem (name other : String) :
    (v.withItem i x name).get? other =
      (v.get? other).map fun w => if other = name then w.withElement i x else w := by
  cases v with
  | object ms => exact lookup_mapped ms (fun k w => if k = name then w.withElement i x else w) other
  | _ => rfl

theorem elements_withItem (name other : String) :
    (v.withItem i x name).elements other =
      if other = name then (v.elements other).set i x else v.elements other := by
  unfold elements
  rw [get?_withItem]
  cases v.get? other with
  | none => simp
  | some w =>
    by_cases hn : other = name
    · cases w <;> simp [hn, withElement]
    · simp [hn]

end Json.Value

namespace Analysis

open Json
open scoped List

inductive Field where
  | levels
  | zones
  | fiboZones
deriving DecidableEq, Repr

namespace Field

def all : List Field := [levels, zones, fiboZones]

def name : Field → String
  | levels => "levels"
  | zones => "zones"
  | fiboZones => "fiboZones"

def id : Field → Nat → String
  | levels, i => "engine:level:" ++ toString i
  | zones, i => "engine:zone:" ++ toString i
  | fiboZones, i => "engine:fibo:" ++ toString i

def tone : Field → Tone
  | levels | fiboZones => .gold
  | zones => .green

/-- The label and the geometry that an item gives, if it is not passed over. -/
def drawn? (w : Window) (f : Field) (item : Value) : Option (Option String × Geometry Float) :=
  match f with
  | levels =>
    ((AnalysisLevel.ofDocument? item).filter (·.price.isFinite)).map fun l =>
      (l.label, .level l.price)
  | zones | fiboZones =>
    ((AnalysisZone.ofDocument? item).filter fun z => z.priceFrom.isFinite && z.priceTo.isFinite).map
      fun z => (z.label, .zone ⟨w.start, z.priceFrom⟩ ⟨w.stop, z.priceTo⟩)

def shape? (w : Window) (f : Field) (i : Nat) (item : Value) : Option EngineShape :=
  (f.drawn? w item).map fun (label, geometry) => ⟨⟨f.id i, w.createdAt, label, geometry⟩, f.tone⟩

theorem mem_all (f : Field) : f ∈ all := by
  cases f <;> decide

theorem nodup_all : all.Nodup := by decide

theorem name_inj {f g : Field} (h : f.name = g.name) : f = g := by
  cases f <;> cases g <;> first | rfl | simp [name] at h

end Field

section Item

variable {w : Window} {f g : Field} {i j : Nat} {item : Value} {e : EngineShape}

theorem levelShape?_eq : levelShape? w i item = Field.levels.shape? w i item := by
  unfold levelShape? Field.shape? Field.drawn?
  cases AnalysisLevel.ofDocument? item with
  | none => rfl
  | some l =>
    rw [Option.bind_some, Option.filter_some]
    split <;> rfl

theorem zoneShape?_eq :
    zoneShape? w ⟨"zones", "zone", .green⟩ i item = Field.zones.shape? w i item ∧
      zoneShape? w ⟨"fiboZones", "fibo", .gold⟩ i item = Field.fiboZones.shape? w i item := by
  unfold zoneShape? Field.shape? Field.drawn?
  cases AnalysisZone.ofDocument? item with
  | none => exact ⟨rfl, rfl⟩
  | some z =>
    simp only [Option.bind_some, Option.filter_some]
    split <;> exact ⟨rfl, rfl⟩

theorem Field.of_shape? (h : f.shape? w i item = some e) :
    e.shape.id = f.id i ∧ e.tone = f.tone := by
  obtain ⟨_, -, rfl⟩ := Option.map_eq_some_iff.mp h
  exact ⟨rfl, rfl⟩

theorem Field.id_inj (h : f.id i = g.id j) : f = g ∧ i = j := by
  have hfg : f = g := by
    have h := congrArg String.toList h
    cases f <;> cases g <;> first | rfl | simp [Field.id, String.toList_append] at h
  subst hfg
  have hij : toString i = toString j := by
    cases f <;> exact (String.append_right_inj _).mp h
  rw [Nat.toString_eq_repr, Nat.toString_eq_repr, Nat.repr_inj] at hij
  exact ⟨rfl, hij⟩

end Item

theorem items_eq_elements (payload : Value) (name : String) :
    items payload name = payload.elements name := by
  unfold items Value.elements
  cases payload.get? name with
  | none => rfl
  | some v => cases v <;> rfl

theorem filterMap_cons_toList {α β : Type} (g : α → Option β) (a : α) (as : List α) :
    (a :: as).filterMap g = (g a).toList ++ as.filterMap g := by
  rw [List.filterMap_cons]
  cases g a <;> rfl

/-- Each answer under an id of its own, the id of the shape if there is one. -/
structure Labelled (answers : List (String × Option EngineShape)) : Prop where
  own : ∀ a ∈ answers, ∀ e ∈ a.2, e.shape.id = a.1
  distinct : (answers.map (·.1)).Nodup

namespace Labelled

variable {a : String × Option EngineShape} {answers : List (String × Option EngineShape)}

theorem tail (h : Labelled (a :: answers)) : Labelled answers :=
  ⟨fun b hb => h.own b (.tail _ hb), (List.nodup_cons.mp h.distinct).2⟩

theorem ids_sublist (h : Labelled answers) :
    (answers.filterMap (·.2)).map (·.shape.id) <+ answers.map (·.1) := by
  induction answers with
  | nil => exact .slnil
  | cons a answers ih =>
    rw [List.filterMap_cons, List.map_cons]
    cases he : a.2 with
    | none => exact (ih h.tail).cons a.1
    | some e =>
      rw [List.map_cons, h.own a (.head _) e he]
      exact (ih h.tail).cons_cons a.1

theorem filter_of_not_mem {k : String} (h : Labelled answers) (hk : k ∉ answers.map (·.1)) :
    (answers.filterMap (·.2)).filter (·.shape.id = k) = [] := by
  refine List.filter_eq_nil_iff.mpr fun e he hid => hk ?_
  rw [← of_decide_eq_true hid]
  exact h.ids_sublist.subset (List.mem_map_of_mem he)

theorem filter_of_mem (h : Labelled answers) (ha : a ∈ answers) :
    (answers.filterMap (·.2)).filter (·.shape.id = a.1) = a.2.toList := by
  induction answers with
  | nil => cases ha
  | cons b answers ih =>
    have hb : b.1 ∉ answers.map (·.1) := (List.nodup_cons.mp h.distinct).1
    rw [List.filterMap_cons]
    cases ha with
    | head =>
      have hrest := h.tail.filter_of_not_mem hb
      cases he : a.2 with
      | none => exact hrest
      | some e => simp [h.own a (.head _) e he, hrest]
    | tail _ ha =>
      have hne : b.1 ≠ a.1 := fun heq => hb (heq ▸ List.mem_map_of_mem ha)
      cases he : b.2 with
      | none => exact ih h.tail ha
      | some e =>
        have hid : e.shape.id ≠ a.1 := h.own b (.head _) e he ▸ hne
        rw [← ih h.tail ha]
        exact List.filter_cons_of_neg (by simpa using hid)

end Labelled

def Field.answers (w : Window) (payload : Value) (f : Field) :
    List (String × Option EngineShape) :=
  (payload.elements f.name).mapIdx fun i x => (f.id i, f.shape? w i x)

def answers (w : Window) (payload : Value) : List (String × Option EngineShape) :=
  Field.all.flatMap (Field.answers w payload)

section Answers

variable (w : Window) (payload : Value)

theorem adapted_eq : adapted w payload = (answers w payload).map (·.2) := by
  have hlevels : levelShape? w = Field.levels.shape? w := by
    funext i item
    exact levelShape?_eq
  have hzones : zoneShape? w ⟨"zones", "zone", .green⟩ = Field.zones.shape? w := by
    funext i item
    exact zoneShape?_eq.1
  have hfibo : zoneShape? w ⟨"fiboZones", "fibo", .gold⟩ = Field.fiboZones.shape? w := by
    funext i item
    exact zoneShape?_eq.2
  simp [adapted, answers, Field.answers, zoneGroups, Field.all, Field.name, hlevels, hzones, hfibo,
    items_eq_elements, List.mapIdx_eq_zipIdx_map, Function.comp_def]

theorem shapes_eq : (adapt w payload).shapes = (answers w payload).filterMap (·.2) := by
  simp [adapt, adapted_eq, List.filterMap_map]

theorem answers_ids : (answers w payload).map (·.1) =
    Field.all.flatMap fun f => (List.range (payload.elements f.name).length).map f.id := by
  rw [answers, List.map_flatMap]
  refine List.flatMap_congr fun f _ => ?_
  exact List.ext_getElem (by simp [Field.answers]) fun i _ _ => by simp [Field.answers]

theorem mem_answers {f : Field} {i : Nat} {item : Value}
    (h : (payload.elements f.name)[i]? = some item) :
    (f.id i, f.shape? w i item) ∈ answers w payload := by
  refine List.mem_flatMap.mpr ⟨f, f.mem_all, List.mem_of_getElem? (i := i) ?_⟩
  rw [Field.answers, List.getElem?_mapIdx, h]
  rfl

theorem labelled_answers : Labelled (answers w payload) where
  own a ha e he := by
    obtain ⟨f, -, ha⟩ := List.mem_flatMap.mp ha
    obtain ⟨i, hi, rfl⟩ := List.mem_mapIdx.mp ha
    exact (Field.of_shape? he).1
  distinct := by
    rw [answers_ids, List.nodup_flatMap]
    refine ⟨fun f _ => (List.nodup_range).map fun i j h => (Field.id_inj h).2, ?_⟩
    refine Field.nodup_all.imp fun {f g} hfg k hf hg => hfg ?_
    obtain ⟨i, -, rfl⟩ := List.mem_map.mp hf
    obtain ⟨j, -, hij⟩ := List.mem_map.mp hg
    exact (Field.id_inj hij).1.symm

theorem length_shapes_add_skipped :
    (adapt w payload).shapes.length + (adapt w payload).skipped =
      (payload.elements "levels").length + (payload.elements "zones").length +
        (payload.elements "fiboZones").length := by
  have hlength : (answers w payload).length = (payload.elements "levels").length +
      (payload.elements "zones").length + (payload.elements "fiboZones").length := by
    simp [answers, Field.answers, Field.all, Field.name, Nat.add_assoc]
  rw [← hlength, shapes_eq, List.length_filterMap_eq_countP, adapt, adapted_eq, List.countP_map]
  rw [List.length_eq_countP_add_countP fun a : String × Option EngineShape => a.2.isSome]
  exact congrArg _ (List.countP_congr fun a _ => by simp)

variable {payload}

theorem Field.answers_withItem (f : Field) {i : Nat} (hi : i < (payload.elements f.name).length)
    (x : Value) :
    ∃ before after, f.answers w payload =
        before ++ (f.id i, f.shape? w i (payload.elements f.name)[i]) :: after ∧
      f.answers w (payload.withItem i x f.name) = before ++ (f.id i, f.shape? w i x) :: after := by
  have hlen : i < (f.answers w payload).length := by simpa [Field.answers] using hi
  refine ⟨(f.answers w payload).take i, (f.answers w payload).drop (i + 1), ?_, ?_⟩
  · have hat : (f.answers w payload)[i] = (f.id i, f.shape? w i (payload.elements f.name)[i]) := by
      simp [Field.answers]
    rw [← hat, List.getElem_cons_drop, List.take_append_drop]
  · rw [Field.answers, Value.elements_withItem, if_pos rfl, List.mapIdx_set, ← Field.answers,
      List.set_eq_take_append_cons_drop, if_pos hlen]

theorem answers_withItem {f : Field} {i : Nat} (hi : i < (payload.elements f.name).length)
    (x : Value) :
    ∃ before after, answers w payload =
        before ++ (f.id i, f.shape? w i (payload.elements f.name)[i]) :: after ∧
      answers w (payload.withItem i x f.name) = before ++ (f.id i, f.shape? w i x) :: after := by
  -- the fields before and after the one of the item have other names, and keep their answers
  obtain ⟨us, vs, hall⟩ := List.append_of_mem f.mem_all
  have hnodup : (us ++ f :: vs).Nodup := hall ▸ Field.nodup_all
  have hother : ∀ g, g ≠ f → Field.answers w (payload.withItem i x f.name) g =
      Field.answers w payload g := fun g hg => by
    rw [Field.answers, Value.elements_withItem, if_neg (hg ∘ Field.name_inj), ← Field.answers]
  have hus : ∀ g ∈ us, g ≠ f := fun g hg =>
    (List.nodup_append.mp hnodup).2.2 g hg f (.head _)
  have hvs : ∀ g ∈ vs, g ≠ f := fun g hg hgf =>
    (List.nodup_cons.mp (List.nodup_append.mp hnodup).2.1).1 (hgf ▸ hg)
  obtain ⟨before, after, hold, hnew⟩ := f.answers_withItem w hi x
  refine ⟨us.flatMap (Field.answers w payload) ++ before,
    after ++ vs.flatMap (Field.answers w payload), ?_, ?_⟩
  · rw [answers, hall, List.flatMap_append, List.flatMap_cons, hold]
    simp
  · rw [answers, hall, List.flatMap_append, List.flatMap_cons, hnew,
      List.flatMap_congr fun g hg => hother g (hus g hg),
      List.flatMap_congr fun g hg => hother g (hvs g hg)]
    simp

theorem shapes_withItem {f : Field} {i : Nat} {item : Value}
    (h : (payload.elements f.name)[i]? = some item) (x : Value) :
    ∃ before after, (adapt w payload).shapes = before ++ (f.shape? w i item).toList ++ after ∧
      (adapt w (payload.withItem i x f.name)).shapes =
        before ++ (f.shape? w i x).toList ++ after := by
  obtain ⟨hi, rfl⟩ := List.getElem?_eq_some_iff.mp h
  obtain ⟨before, after, hold, hnew⟩ := answers_withItem w hi x
  refine ⟨before.filterMap (·.2), after.filterMap (·.2), ?_, ?_⟩
  · rw [shapes_eq, hold, List.filterMap_append, filterMap_cons_toList, List.append_assoc]
  · rw [shapes_eq, hnew, List.filterMap_append, filterMap_cons_toList, List.append_assoc]

end Answers

/-- Every item of the three arrays is a shape or is counted. The shapes stand in the order of their
items, each with an id that only its item has. Another item in the place of one may take away,
bring or alter the one shape with its id and does nothing to the others. -/
theorem adapt_item_by_item (w : Window) (payload : Value) :
    (adapt w payload).shapes.length + (adapt w payload).skipped =
        (payload.elements "levels").length + (payload.elements "zones").length +
          (payload.elements "fiboZones").length ∧
      (adapt w payload).shapes.map (·.shape.id) <+
        Field.all.flatMap (fun f => (List.range (payload.elements f.name).length).map f.id) ∧
      ((adapt w payload).shapes.map (·.shape.id)).Nodup ∧
      ∀ (f : Field) i item, (payload.elements f.name)[i]? = some item →
        (adapt w payload).shapes.filter (·.shape.id = f.id i) = (f.shape? w i item).toList ∧
        ∀ x, (∀ e ∈ f.shape? w i x, e.shape.id = f.id i ∧ e.tone = f.tone) ∧
          ∃ before after,
            (adapt w payload).shapes = before ++ (f.shape? w i item).toList ++ after ∧
            (adapt w (payload.withItem i x f.name)).shapes =
              before ++ (f.shape? w i x).toList ++ after := by
  have hanswers := labelled_answers w payload
  have hids := hanswers.ids_sublist
  rw [← shapes_eq] at hids
  refine ⟨length_shapes_add_skipped w payload, answers_ids w payload ▸ hids,
    hids.nodup hanswers.distinct, fun f i item h => ⟨?_, fun x => ⟨?_, shapes_withItem w h x⟩⟩⟩
  · rw [shapes_eq]
    exact hanswers.filter_of_mem (mem_answers w payload h)
  · exact fun e he => Field.of_shape? he

def mixedItems : Value :=
  let zone := Value.object [("priceFrom", .int 1), ("priceTo", .int 2), ("label", .string "a")]
  let level := Value.object [("price", .int 3)]
  .object [("fiboZones", .array [zone]), ("zones", .array [.null, zone]),
    ("levels", .array [level, zone])]

theorem adapt_item_by_item_of_mixedItems :
    let w : Window := ⟨0, 1, 0⟩
    let zone := Value.object [("priceFrom", .int 4), ("priceTo", .int 5)]
    let shape : EngineShape := ⟨⟨"engine:zone:0", 0, none,
      .zone ⟨w.start, Double.ofNat 4⟩ ⟨w.stop, Double.ofNat 5⟩⟩, .green⟩
    (adapt w mixedItems).shapes.map (·.shape.id) =
        ["engine:level:0", "engine:zone:1", "engine:fibo:0"] ∧
      (adapt w mixedItems).skipped = 2 ∧
      ∃ before after, (adapt w mixedItems).shapes = before ++ after ∧
        (adapt w (mixedItems.withItem 0 zone "zones")).shapes = before ++ shape :: after := by
  intro w zone shape
  have hids : (adapt w mixedItems).shapes.map (·.shape.id) =
      ["engine:level:0", "engine:zone:1", "engine:fibo:0"] := by decide +kernel
  obtain ⟨hlength, -, -, hitems⟩ := adapt_item_by_item w mixedItems
  have hdrawn : (adapt w mixedItems).shapes.length = 3 := by
    simpa using congrArg List.length hids
  have hskipped : (adapt w mixedItems).skipped = 2 := by
    rw [hdrawn] at hlength
    exact Nat.add_left_cancel hlength
  obtain ⟨before, after, hold, hnew⟩ := ((hitems .zones 0 .null rfl).2 zone).2
  have hnone : Field.zones.shape? w 0 .null = none := by decide +kernel
  have hshape : Field.zones.shape? w 0 zone = some shape := by decide +kernel
  rw [hnone, Option.toList_none, List.append_nil] at hold
  rw [hshape, Option.toList_some, List.append_assoc] at hnew
  exact ⟨hids, hskipped, before, after, hold, hnew⟩

end Analysis

end MarketSketch
