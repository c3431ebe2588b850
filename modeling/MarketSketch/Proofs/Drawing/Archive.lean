import MarketSketch.Proofs.Drawing.Reading
import MarketSketch.Proofs.Json.Members

/-! Saved drawings. A record reads back as its shape, unless its id shows nothing or a coordinate is
not finite, so a saved list reads back as its storable shapes, the first of each id. -/

namespace MarketSketch

namespace Archive

open MarketSketch.Json

def firsts (seen : List String) : List Shape → List Shape
  | [] => []
  | s :: rest => if s.id ∈ seen then firsts seen rest else s :: firsts (s.id :: seen) rest

theorem firsts_eq_self {seen : List String} {shapes : List Shape} (hd : (shapes.map (·.id)).Nodup)
    (h : ∀ s ∈ shapes, s.id ∉ seen) : firsts seen shapes = shapes := by
  induction shapes generalizing seen with
  | nil => rfl
  | cons s rest ih =>
    rw [List.map_cons, List.nodup_cons] at hd
    rw [firsts, if_neg (h s List.mem_cons_self), ih hd.2]
    intro t ht hmem
    rcases List.mem_cons.mp hmem with heq | hseen
    · exact hd.1 (heq ▸ List.mem_map_of_mem ht)
    · exact h t (List.mem_cons_of_mem s ht) hseen

section Record

variable {s : Shape}

def members (s : Shape) : List (String × Value) :=
  ("kind", .string s.kind.name) :: ("id", .string s.id) :: ("createdAt", .int s.createdAt) ::
    (Value.optional "label" .string s.label ++ geometryMembers s.geometry)

theorem shapeJson_eq (s : Shape) : shapeJson s = .object (members s) := rfl

theorem nodup_members (s : Shape) : ((members s).map (·.1)).Nodup := by
  obtain ⟨id, createdAt, label, geometry⟩ := s
  cases label <;> cases geometry <;> simp [members, Value.optional, geometryMembers]

theorem fits_shapeJson (h : IsSignedWord s.createdAt) (depth : Nat) :
    (shapeJson s).Fits (depth + 2) := by
  have htime : (Value.int s.createdAt).Fits (depth + 1) := ⟨h.1, h.2.trans (by norm_num)⟩
  obtain ⟨id, createdAt, label, geometry⟩ := s
  cases label <;> cases geometry <;>
    simp_all [shapeJson, Value.optional, geometryMembers, pointJson, Value.Fits, MembersFit,
      Value.real]

theorem required?_real (x : Float) :
    required? real? (some (Value.real x).normal) = if x.isFinite then some x else none := by
  unfold Value.real Value.normal
  split <;> rfl

theorem required?_point (p : ChartPoint) :
    required? readPoint? (some (pointJson p).normal) = if p.finite then some p else none := by
  show readPoint? (pointJson p).normal = _
  have hnodup : ([("time", Value.real p.time), ("price", .real p.price)].map (·.1)).Nodup := by simp
  have hfields := fields?_normal hnodup ["time", "price"]
  have hfinite : p.finite = (p.time.isFinite && p.price.isFinite) := rfl
  unfold readPoint? pointJson
  rw [hfields, hfinite]
  simp only [List.map_cons, List.map_nil, Option.bind_eq_bind, Option.bind_some, List.lookup]
  simp [required?_real]
  cases p.time.isFinite <;> cases p.price.isFinite <;> simp

theorem tagged?_normal (s : Shape) :
    tagged? (shapeJson s).normal = some (s.kind, (shapeJson s).normal) := by
  have hkind : (shapeJson s).normal.get? "kind" = some (.string s.kind.name) :=
    get?_normal (nodup_members s) "kind"
  have htagged : tagged? (shapeJson s).normal =
      ((((shapeJson s).normal.get? "kind").bind (·.asString?)).bind ShapeKind.ofName?).map
        (·, (shapeJson s).normal) := rfl
  rw [htagged, hkind]
  simp [Value.asString?, ShapeKind.ofName?_name]

theorem required?_time (h : IsSignedWord s.createdAt) :
    required? readTime? (some (Value.int s.createdAt).normal) = some s.createdAt := by
  have hread : (Value.int s.createdAt).normal = .number (.whole s.createdAt) := rfl
  have hint : int? (Value.number (.whole s.createdAt)) = some s.createdAt := rfl
  have hrange : -0x8000000000000000 ≤ s.createdAt ∧ s.createdAt ≤ 0x7FFFFFFFFFFFFFFF :=
    ⟨h.1, Int.le_sub_one_of_lt h.2⟩
  simpa [required?, readTime?, intBetween?, hread, hint] using hrange

theorem nullable?_text (label : Option String) :
    nullable? text? ((label.map Value.string).map Value.normal) = some label := by
  cases label <;> rfl

theorem lookup_label (s : Shape) : (members s).lookup "label" = s.label.map .string := by
  obtain ⟨id, createdAt, label, geometry⟩ := s
  cases label <;> cases geometry <;> rfl

theorem lookup_price {price : Float} (h : s.geometry = .level price) :
    (members s).lookup "price" = some (.real price) := by
  obtain ⟨id, createdAt, label, geometry⟩ := s
  obtain rfl : geometry = .level price := h
  cases label <;> rfl

theorem lookup_ends {a b : ChartPoint}
    (h : geometryMembers s.geometry = [("a", pointJson a), ("b", pointJson b)]) :
    (members s).lookup "a" = some (pointJson a) ∧ (members s).lookup "b" = some (pointJson b) := by
  unfold members
  rw [h]
  cases s.label <;> exact ⟨rfl, rfl⟩

theorem readShape?_normal (h : IsSignedWord s.createdAt) :
    readShape? (shapeJson s).normal = if s.geometry.finite then some s else none := by
  have htime := required?_time h
  have hfields := fields?_normal (nodup_members s)
  have hid : (members s).lookup "id" = some (.string s.id) := rfl
  have hcreated : (members s).lookup "createdAt" = some (.int s.createdAt) := rfl
  have hlabel := lookup_label s
  have hprice (price : Float) := @lookup_price s price
  have hends (a b : ChartPoint) := @lookup_ends s a b
  rw [← shapeJson_eq] at hfields
  unfold readShape?
  rw [tagged?_normal]
  obtain ⟨id, createdAt, label, geometry⟩ := s
  cases geometry with
  | level price =>
    have hfinite : Geometry.finite (.level price) = price.isFinite := rfl
    simp only [Shape.kind, Geometry.kind, Option.bind_eq_bind, Option.bind_some, hfields,
      List.map_cons, List.map_nil, hid, hcreated, hlabel, hprice price rfl, Option.map_some,
      nullable?_text, required?_real, htime, hfinite]
    cases price.isFinite <;> rfl
  | trendline a b | zone a b =>
    have hfinite : Geometry.finite (.trendline a b) = (a.finite && b.finite) := rfl
    have hfinite' : Geometry.finite (.zone a b) = (a.finite && b.finite) := rfl
    obtain ⟨ha, hb⟩ := hends a b rfl
    simp only [Shape.kind, Geometry.kind, Option.bind_eq_bind, Option.bind_some, hfields,
      List.map_cons, List.map_nil, hid, hcreated, hlabel, ha, hb, Option.map_some,
      nullable?_text, required?_point, htime, hfinite, hfinite']
    cases a.finite <;> cases b.finite <;> rfl

theorem validShape?_normal (h : IsSignedWord s.createdAt) :
    validShape? (shapeJson s).normal = if storable s then some s else none := by
  unfold validShape? storable
  rw [readShape?_normal h]
  cases hfinite : s.geometry.finite <;> cases hblank : Text.isBlankText s.id <;>
    simp [Option.filter, hfinite, hblank]

end Record

theorem keptShapes_normal {seen : List String} {index : Nat} {shapes : List Shape}
    (h : ∀ s ∈ shapes, IsSignedWord s.createdAt) :
    keptShapes seen index (normalElements (shapes.map shapeJson)) =
      firsts seen (shapes.filter storable) := by
  induction shapes generalizing seen index with
  | nil => rfl
  | cons s rest ih =>
    have hread := validShape?_normal (h s List.mem_cons_self)
    have ih {seen : List String} {index : Nat} :
        keptShapes seen index (normalElements (rest.map shapeJson)) =
          firsts seen (rest.filter storable) :=
      ih fun t ht => h t (List.mem_cons_of_mem s ht)
    rw [List.map_cons, normalElements]
    by_cases hs : storable s = true
    · rw [if_pos hs] at hread
      rw [List.filter_cons_of_pos hs, firsts]
      split
      · rename_i hseen
        rw [keptShapes_cons_seen hread hseen, ih]
      · rename_i hseen
        rw [keptShapes_cons_new hread hseen, ih]
    · rw [if_neg hs] at hread
      rw [List.filter_cons_of_neg hs, keptShapes_cons_none hread, ih]

theorem fits_envelope {shapes : List Shape} (h : ∀ s ∈ shapes, IsSignedWord s.createdAt)
    {savedAt : Int} (hsaved : IsSignedWord savedAt) :
    (envelope shapes savedAt).Fits nestingLimit := by
  have hshapes (depth : Nat) : ElementsFit (shapes.map shapeJson) (depth + 2) := by
    induction shapes with
    | nil => exact trivial
    | cons s rest ih =>
      exact ⟨fits_shapeJson (h s List.mem_cons_self) depth,
        ih fun t ht => h t (List.mem_cons_of_mem s ht)⟩
  have htime (depth : Nat) : (Value.int savedAt).Fits depth :=
    ⟨hsaved.1, hsaved.2.trans (by norm_num)⟩
  exact ⟨⟨by decide, by decide⟩, htime _, hshapes _, trivial⟩

theorem readVerdicts_encode {shapes : List Shape} (h : ∀ s ∈ shapes, IsSignedWord s.createdAt)
    {savedAt : Int} (hsaved : IsSignedWord savedAt) :
    readVerdicts (encode shapes savedAt) =
      verdicts [] 0 (normalElements (shapes.map shapeJson)) := by
  have hread := ofText?_text (fits_envelope h hsaved)
  have hrecords :
      records (envelope shapes savedAt).normal = normalElements (shapes.map shapeJson) := by
    have hnodup : ([("version", Value.nat version), ("savedAt", .int savedAt),
        ("shapes", .array (shapes.map shapeJson))].map (·.1)).Nodup := by simp
    have hget := get?_normal hnodup
    have hversion := hget "version"
    have hshapes := hget "shapes"
    unfold records envelope
    rw [hversion, hshapes]
    rfl
  unfold readVerdicts encode
  rw [hread]
  exact congrArg (verdicts [] 0) hrecords

theorem shapes_encode {shapes : List Shape} (h : ∀ s ∈ shapes, IsSignedWord s.createdAt)
    {savedAt : Int} (hsaved : IsSignedWord savedAt) :
    Archive.shapes (encode shapes savedAt) = firsts [] (shapes.filter storable) := by
  have hkept := @keptShapes_normal [] 0 shapes h
  unfold Archive.shapes
  rw [readVerdicts_encode h hsaved]
  exact hkept

end Archive

end MarketSketch
