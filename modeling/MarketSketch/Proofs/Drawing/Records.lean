import MarketSketch.Proofs.Drawing.Reading
import MarketSketch.Proofs.Json.Proper

/-! Which stored records are kept. A record is an object with members of the right kinds or an array
of their values in a fixed order, and so is each end of a line or zone; it is kept if no kept record
before it has its id. -/

namespace MarketSketch.Archive

open MarketSketch.Json

section Forms

abbrev Form := List String → Value → (String → Option Value) → Prop

def objectForm : Form := fun _ v member => v.isObject = true ∧ member = v.get?

def arrayForm : Form := fun names v member =>
  ∃ xs, v = .array xs ∧ xs.length ≤ names.length ∧ member = fun k => (names.zip xs).lookup k

def recordForm : Form := fun names v member => objectForm names v member ∨ arrayForm names v member

def IsPoint (form : Form) (v : Value) (p : ChartPoint) : Prop :=
  ∃ member, form ["time", "price"] v member ∧
    (member "time").bind (·.asFloat?) = some p.time ∧
    (member "price").bind (·.asFloat?) = some p.price

def IsGeometry (form : Form) (member : String → Option Value) : ChartGeometry → Prop
  | .level price => (member "price").bind (·.asFloat?) = some price
  | .trendline a b | .zone a b =>
    (∃ v, member "a" = some v ∧ IsPoint form v a) ∧ ∃ v, member "b" = some v ∧ IsPoint form v b

def IsLabel (v? : Option Value) (label : Option String) : Prop :=
  v? = label.map .string ∨ v? = some .null ∧ label = none

/-- The members of a record say what the shape is. -/
structure Describes (form : Form) (member : String → Option Value) (s : Shape) : Prop where
  kind : (member "kind").bind (·.asString?) = some s.kind.name
  id : (member "id").bind (·.asString?) = some s.id
  createdAt : (member "createdAt").bind (·.asInt?) = some s.createdAt
  word : IsSignedWord s.createdAt
  label : IsLabel (member "label") s.label
  geometry : IsGeometry form member s.geometry

def partNames : ShapeKind → List String
  | .level => ["id", "createdAt", "label", "price"]
  | .trendline | .zone => ["id", "createdAt", "label", "a", "b"]

/-- The value is a record of the shape, and its id shows. -/
def IsRecord (form : Form) (v : Value) (s : Shape) : Prop :=
  Text.isBlankText s.id = false ∧
    ∃ member, form ("kind" :: partNames s.kind) v member ∧ Describes form member s

end Forms

section Fields

variable {v w : Value} {names : List String} {member : String → Option Value} {k : String}

theorem recordForm_object {ms : List (String × Value)} :
    recordForm names (.object ms) member ↔ member = (Value.object ms).get? := by
  refine ⟨?_, fun h => .inl ⟨rfl, h⟩⟩
  rintro (⟨-, h⟩ | ⟨_, hxs, -⟩)
  · exact h
  · cases hxs

theorem recordForm_array {xs : List Value} :
    recordForm names (.array xs) member ↔
      xs.length ≤ names.length ∧ member = fun k => (names.zip xs).lookup k := by
  refine ⟨?_, fun h => .inr ⟨xs, rfl, h⟩⟩
  rintro (⟨hobject, -⟩ | ⟨_, hxs, h⟩)
  · cases hobject
  · cases hxs
    exact h

theorem not_recordForm (hobject : v.isObject = false) (harray : v.asArray? = none) :
    ¬ recordForm names v member := by
  rintro (⟨h, -⟩ | ⟨xs, rfl, -⟩)
  · rw [hobject] at h
    cases h
  · cases harray

theorem proper_of_recordForm (hv : v.Proper) (h : recordForm names v member)
    (hw : member k = some w) : w.Proper := by
  rcases h with ⟨-, rfl⟩ | ⟨xs, rfl, -, rfl⟩
  · exact hv.of_get? hw
  · obtain ⟨l₁, l₂, hzip, -⟩ := List.lookup_eq_some_iff.mp hw
    have hmem : (k, w) ∈ names.zip xs := hzip ▸ List.mem_append_right l₁ List.mem_cons_self
    exact elementsProper_iff.mp hv w (List.of_mem_zip hmem).2

theorem map_lookup_zip_cons {name : String} (h : name ∉ names) (x : Value) (xs : List Value) :
    (names.map fun k => ((name :: names).zip (x :: xs)).lookup k) =
      names.map fun k => (names.zip xs).lookup k := by
  refine List.map_congr_left fun k hk => ?_
  have hne : (k == name) = false := beq_false_of_ne fun heq => h (heq ▸ hk)
  rw [List.zip_cons_cons, List.lookup_cons, hne]

theorem map_lookup_zip (h : names.Nodup) {xs : List Value} (hle : xs.length ≤ names.length) :
    (names.map fun k => (names.zip xs).lookup k) =
      xs.map some ++ List.replicate (names.length - xs.length) none := by
  induction names generalizing xs with
  | nil =>
    obtain rfl := List.length_eq_zero_iff.mp (Nat.le_zero.mp hle)
    rfl
  | cons name names ih =>
    rw [List.nodup_cons] at h
    cases xs with
    | nil => simp [List.replicate_succ, List.map_const']
    | cons x xs =>
      rw [List.map_cons, map_lookup_zip_cons h.1, ih h.2 (Nat.le_of_succ_le_succ hle)]
      simp

theorem fields?_array (h : names.Nodup) {xs : List Value} {fs : List (Option Value)} :
    fields? names (Value.array xs) = some fs ↔
      xs.length ≤ names.length ∧ fs = names.map fun k => (names.zip xs).lookup k := by
  have hview : Document.view (Value.array xs) = .array xs := rfl
  unfold fields?
  rw [hview]
  dsimp only
  split
  · rename_i hlong
    simp [Nat.not_le.mpr hlong]
  · rename_i hle
    rw [map_lookup_zip h (Nat.not_lt.mp hle)]
    simp [Nat.not_lt.mp hle, eq_comm]

theorem fields?_eq_some_iff (hv : v.Proper) (h : names.Nodup) {fs : List (Option Value)} :
    fields? names v = some fs ↔ ∃ member, recordForm names v member ∧ fs = names.map member := by
  cases v with
  | object ms =>
    simp only [fields?_object hv.1, recordForm_object, exists_eq_left, Option.some.injEq]
    exact eq_comm
  | array xs => simp only [fields?_array h, recordForm_array, and_assoc, exists_and_left,
      exists_eq_left]
  | null | bool | number | string =>
    exact iff_of_false nofun fun ⟨_, hform, _⟩ => not_recordForm rfl rfl hform

theorem ofName?_eq_some_iff {name : String} {kind : ShapeKind} :
    ShapeKind.ofName? name = some kind ↔ name = kind.name := by
  constructor
  · intro h
    simpa [eq_comm] using List.find?_some h
  · rintro rfl
    exact ShapeKind.ofName?_name kind

theorem tag_eq_some_iff {tag : Option Value} {record w : Value} {kind : ShapeKind} :
    ((tag.bind (·.asString?)).bind ShapeKind.ofName?).map (·, w) = some (kind, record) ↔
      tag.bind (·.asString?) = some kind.name ∧ w = record := by
  simp [Option.map_eq_some_iff, Option.bind_eq_some_iff, ofName?_eq_some_iff]

theorem tagged?_object {ms : List (String × Value)} {record : Value} {kind : ShapeKind} :
    tagged? (.object ms) = some (kind, record) ↔
      ((Value.object ms).get? "kind").bind (·.asString?) = some kind.name ∧ .object ms = record :=
  tag_eq_some_iff

theorem tagged?_array {tag : Value} {rest : List Value} {record : Value} {kind : ShapeKind} :
    tagged? (.array (tag :: rest)) = some (kind, record) ↔
      tag.asString? = some kind.name ∧ .array rest = record :=
  @tag_eq_some_iff (some tag) record (.array rest) kind

theorem nodup_partNames (kind : ShapeKind) : ("kind" :: partNames kind).Nodup := by
  cases kind <;> decide

theorem tagged?_eq_some_iff (hv : v.Proper) {kind : ShapeKind} {fs : List (Option Value)} :
    (∃ record, tagged? v = some (kind, record) ∧ fields? (partNames kind) record = some fs) ↔
      ∃ member, recordForm ("kind" :: partNames kind) v member ∧
        (member "kind").bind (·.asString?) = some kind.name ∧ fs = (partNames kind).map member := by
  obtain ⟨hkind, hnodup⟩ := List.nodup_cons.mp (nodup_partNames kind)
  cases v with
  | object ms =>
    simp only [tagged?_object, recordForm_object, and_assoc, exists_and_left, exists_eq_left',
      exists_eq_left, fields?_object hv.1, Option.some.injEq]
    exact and_congr_right fun _ => eq_comm
  | array xs =>
    cases xs with
    | nil =>
      refine iff_of_false nofun ?_
      rintro ⟨member, hform, hname, -⟩
      obtain ⟨-, rfl⟩ := recordForm_array.mp hform
      cases hname
    | cons tag rest =>
      simp only [tagged?_array, recordForm_array, and_assoc, exists_and_left, exists_eq_left',
        exists_eq_left, fields?_array hnodup, map_lookup_zip_cons hkind]
      have hlength : (tag :: rest).length ≤ ("kind" :: partNames kind).length ↔
          rest.length ≤ (partNames kind).length := Nat.succ_le_succ_iff
      have htag : (("kind" :: partNames kind).zip (tag :: rest)).lookup "kind" = some tag := rfl
      rw [hlength, htag, Option.bind_some]
      exact and_left_comm
  | null | bool | number | string =>
    exact iff_of_false nofun fun ⟨_, hform, _⟩ => not_recordForm rfl rfl hform

end Fields

section Records

variable {v : Value} {v? : Option Value}

theorem required?_eq_asString (v? : Option Value) : required? text? v? = v?.bind (·.asString?) := by
  refine Option.bind_congr fun v _ => ?_
  cases v <;> rfl

theorem required?_eq_asFloat (v? : Option Value) : required? real? v? = v?.bind (·.asFloat?) := by
  refine Option.bind_congr fun v _ => ?_
  cases v <;> rfl

theorem required?_time_iff {n : Int} :
    required? readTime? v? = some n ↔ v?.bind (·.asInt?) = some n ∧ IsSignedWord n := by
  have hint (v : Value) : int? v = v.asInt? := by cases v <;> rfl
  have hbound : (-0x8000000000000000 ≤ n ∧ n ≤ 0x7FFFFFFFFFFFFFFF) ↔ IsSignedWord n := by
    unfold IsSignedWord
    omega
  cases v? with
  | none => simp [required?]
  | some v =>
    have hread : required? readTime? (some v) = v.asInt?.filter fun n =>
        -0x8000000000000000 ≤ n ∧ n ≤ 0x7FFFFFFFFFFFFFFF := by
      rw [← hint]
      rfl
    rw [hread, Option.filter_eq_some_iff, decide_eq_true_eq, hbound]
    rfl

theorem nullable?_text_iff {label : Option String} :
    nullable? text? v? = some label ↔ IsLabel v? label := by
  unfold IsLabel
  cases v? with
  | none => cases label <;> simp [nullable?]
  | some v => cases v <;> cases label <;> simp [nullable?, text?, Document.view, eq_comm]

theorem readPoint?_eq_some_iff (hv : v.Proper) {p : ChartPoint} :
    readPoint? v = some p ↔ IsPoint recordForm v p := by
  have hfields {fs : List (Option Value)} : fields? ["time", "price"] v = some fs ↔
      ∃ member, recordForm ["time", "price"] v member ∧ fs = ["time", "price"].map member :=
    fields?_eq_some_iff hv (by decide)
  unfold readPoint?
  constructor
  · intro h
    obtain ⟨fs, hfs, h⟩ := Option.bind_eq_some_iff.mp h
    obtain ⟨member, hform, rfl⟩ := hfields.mp hfs
    obtain ⟨time, htime, h⟩ := Option.bind_eq_some_iff.mp h
    obtain ⟨price, hprice, h⟩ := Option.bind_eq_some_iff.mp h
    cases h
    rw [required?_eq_asFloat] at htime hprice
    exact ⟨member, hform, htime, hprice⟩
  · rintro ⟨member, hform, htime, hprice⟩
    rw [hfields.mpr ⟨member, hform, rfl⟩]
    simp [required?_eq_asFloat, htime, hprice]

theorem isFinite_of_asFloat? {x : Float} (hv : ∀ v ∈ v?, v.Proper)
    (h : v?.bind (·.asFloat?) = some x) : x.isFinite = true := by
  obtain ⟨v, hmem, h⟩ := Option.bind_eq_some_iff.mp h
  cases v with
  | number n =>
    cases h
    exact (hv _ hmem).isFinite
  | _ => cases h

theorem finite_of_isPoint (hv : v.Proper) {p : ChartPoint} (h : IsPoint recordForm v p) :
    p.finite = true := by
  obtain ⟨member, hform, htime, hprice⟩ := h
  have hmember (k : String) : ∀ w ∈ member k, w.Proper := fun _ => proper_of_recordForm hv hform
  have hfinite : p.finite = (p.time.isFinite && p.price.isFinite) := rfl
  rw [hfinite, isFinite_of_asFloat? (hmember _) htime, isFinite_of_asFloat? (hmember _) hprice]
  rfl

section Members

variable {member : String → Option Value} (hmember : ∀ k, ∀ w ∈ member k, w.Proper)
include hmember

theorem required?_point_iff {k : String} {p : ChartPoint} :
    required? readPoint? (member k) = some p ↔
      ∃ v, member k = some v ∧ IsPoint recordForm v p := by
  refine Option.bind_eq_some_iff.trans (exists_congr fun v => and_congr_right fun hv => ?_)
  exact readPoint?_eq_some_iff (hmember k v hv)

theorem finite_of_isGeometry {g : ChartGeometry} (h : IsGeometry recordForm member g) :
    g.finite = true := by
  have hend {k : String} {p : ChartPoint} :
      (∃ v, member k = some v ∧ IsPoint recordForm v p) → p.finite = true :=
    fun ⟨v, hv, hp⟩ => finite_of_isPoint (hmember k v hv) hp
  cases g with
  | level price => exact isFinite_of_asFloat? (hmember _) h
  | trendline a b | zone a b => exact Bool.and_eq_true_iff.mpr ⟨hend h.1, hend h.2⟩

end Members

theorem exists_head_of_read {id? time? label? : Option Value} {s : Shape}
    {rest : String → Int → Option String → Option Shape}
    (h : ((required? text? id?).bind fun id => (required? readTime? time?).bind fun createdAt =>
      (nullable? text? label?).bind (rest id createdAt)) = some s) :
    ∃ id createdAt label, id?.bind (·.asString?) = some id ∧
      time?.bind (·.asInt?) = some createdAt ∧ IsSignedWord createdAt ∧ IsLabel label? label ∧
      rest id createdAt label = some s := by
  obtain ⟨id, hid, h⟩ := Option.bind_eq_some_iff.mp h
  obtain ⟨createdAt, htime, h⟩ := Option.bind_eq_some_iff.mp h
  obtain ⟨label, hlabel, h⟩ := Option.bind_eq_some_iff.mp h
  obtain ⟨htime, hword⟩ := required?_time_iff.mp htime
  rw [required?_eq_asString] at hid
  exact ⟨id, createdAt, label, hid, htime, hword, nullable?_text_iff.mp hlabel, h⟩

theorem readShape?_eq_some_iff (hv : v.Proper) {s : Shape} :
    readShape? v = some s ↔ ∃ member,
      recordForm ("kind" :: partNames s.kind) v member ∧ Describes recordForm member s := by
  have hparts {kind : ShapeKind} {fs : List (Option Value)} :
      (∃ record, tagged? v = some (kind, record) ∧ fields? (partNames kind) record = some fs) ↔
        _ := tagged?_eq_some_iff hv
  have hproper {kind : ShapeKind} {member : String → Option Value}
      (hform : recordForm ("kind" :: partNames kind) v member) :
      ∀ k, ∀ w ∈ member k, w.Proper := fun _ _ => proper_of_recordForm hv hform
  unfold readShape?
  constructor
  · intro h
    obtain ⟨⟨kind, record⟩, htagged, h⟩ := Option.bind_eq_some_iff.mp h
    cases kind with
    | level =>
      obtain ⟨fs, hfs, h⟩ := Option.bind_eq_some_iff.mp h
      obtain ⟨member, hform, hkind, rfl⟩ := hparts.mp ⟨record, htagged, hfs⟩
      obtain ⟨id, createdAt, label, hid, htime, hword, hlabel, h⟩ := exists_head_of_read h
      obtain ⟨price, hprice, h⟩ := Option.bind_eq_some_iff.mp h
      cases h
      rw [required?_eq_asFloat] at hprice
      exact ⟨member, hform, hkind, hid, htime, hword, hlabel, hprice⟩
    | trendline | zone =>
      obtain ⟨fs, hfs, h⟩ := Option.bind_eq_some_iff.mp h
      obtain ⟨member, hform, hkind, rfl⟩ := hparts.mp ⟨record, htagged, hfs⟩
      obtain ⟨id, createdAt, label, hid, htime, hword, hlabel, h⟩ := exists_head_of_read h
      obtain ⟨a, ha, h⟩ := Option.bind_eq_some_iff.mp h
      obtain ⟨b, hb, h⟩ := Option.bind_eq_some_iff.mp h
      cases h
      have ha := (required?_point_iff (hproper hform)).mp ha
      have hb := (required?_point_iff (hproper hform)).mp hb
      exact ⟨member, hform, hkind, hid, htime, hword, hlabel, ha, hb⟩
  · rintro ⟨member, hform, hkind, hid, htime, hword, hlabel, hgeometry⟩
    obtain ⟨record, htagged, hfs⟩ := hparts.mpr ⟨member, hform, hkind, rfl⟩
    obtain ⟨id, createdAt, label, geometry⟩ := s
    have htime := required?_time_iff.mpr ⟨htime, hword⟩
    have hlabel := nullable?_text_iff.mpr hlabel
    rw [← required?_eq_asString] at hid
    rw [htagged]
    cases geometry with
    | level price =>
      have hprice := (required?_eq_asFloat _).trans hgeometry
      have hfs : fields? ["id", "createdAt", "label", "price"] record = _ := hfs
      simp [Shape.kind, Geometry.kind, hfs, partNames, hid, htime, hlabel, hprice]
    | trendline a b | zone a b =>
      have ha := (required?_point_iff (hproper hform)).mpr hgeometry.1
      have hb := (required?_point_iff (hproper hform)).mpr hgeometry.2
      have hfs : fields? ["id", "createdAt", "label", "a", "b"] record = _ := hfs
      simp [Shape.kind, Geometry.kind, hfs, partNames, hid, htime, hlabel, ha, hb]

theorem validShape?_eq_some_iff (hv : v.Proper) {s : Shape} :
    validShape? v = some s ↔ IsRecord recordForm v s := by
  unfold validShape?
  rw [Option.filter_eq_some_iff, readShape?_eq_some_iff hv, Bool.and_eq_true, Bool.not_eq_true']
  constructor
  · rintro ⟨hrecord, hshown, -⟩
    exact ⟨hshown, hrecord⟩
  · rintro ⟨hshown, member, hform, hdescribes⟩
    have hmember : ∀ k, ∀ w ∈ member k, w.Proper := fun _ _ => proper_of_recordForm hv hform
    exact ⟨⟨member, hform, hdescribes⟩, hshown, finite_of_isGeometry hmember hdescribes.geometry⟩

end Records

section Verdicts

theorem verdicts_cons (seen : List String) (index : Nat) (v : Value) (vs : List Value) :
    ∃ w seen', verdicts seen index (v :: vs) = w :: verdicts seen' (index + 1) vs ∧
      (∀ s, w = .kept s ↔ validShape? v = some s ∧ s.id ∉ seen) ∧
      ∀ id, id ∈ seen' ↔ id ∈ seen ∨ ∃ s, w = .kept s ∧ s.id = id := by
  rw [verdicts]
  cases hv : validShape? v with
  | none => exact ⟨_, _, rfl, by simp, by simp⟩
  | some t =>
    by_cases ht : t.id ∈ seen
    · refine ⟨_, _, if_pos ht, fun s => iff_of_false (fun h => by cases h) ?_, by simp⟩
      rintro ⟨⟨⟩, hs⟩
      exact hs ht
    · refine ⟨_, _, if_neg ht, fun s => ?_, fun id => ?_⟩
      · constructor
        · rintro ⟨⟩
          exact ⟨rfl, ht⟩
        · rintro ⟨⟨⟩, -⟩
          rfl
      · rw [List.mem_cons, or_comm, eq_comm]
        simp

theorem length_verdicts (seen : List String) (index : Nat) (vs : List Value) :
    (verdicts seen index vs).length = vs.length := by
  induction vs generalizing seen index with
  | nil => rfl
  | cons v vs ih =>
    obtain ⟨w, seen', hcons, -, -⟩ := verdicts_cons seen index v vs
    rw [hcons, List.length_cons, ih, List.length_cons]

theorem kept_iff (seen : List String) (index : Nat) (vs : List Value) (i : Nat) (s : Shape) :
    (verdicts seen index vs)[i]? = some (.kept s) ↔
      (∃ v, vs[i]? = some v ∧ validShape? v = some s) ∧ s.id ∉ seen ∧
        ∀ j < i, ∀ t, (verdicts seen index vs)[j]? = some (.kept t) → t.id ≠ s.id := by
  -- the ids seen grow along the list, so they stand beside the kept records in the statement
  induction vs generalizing seen index i with
  | nil => simp [verdicts]
  | cons v vs ih =>
    obtain ⟨w, seen', hcons, hkept, hseen⟩ := verdicts_cons seen index v vs
    rw [hcons]
    cases i with
    | zero => simp [hkept]
    | succ i =>
      have hunseen : s.id ∉ seen' ↔ s.id ∉ seen ∧ ∀ t, w = .kept t → t.id ≠ s.id := by
        rw [hseen, not_or, not_exists]
        simp only [not_and]
      rw [List.getElem?_cons_succ, List.getElem?_cons_succ, ih, hunseen, Nat.forall_lt_succ_left]
      simp only [List.getElem?_cons_zero, List.getElem?_cons_succ, Option.some.injEq, and_assoc]

end Verdicts

section Arrays

variable {v : Value} {names : List String} {member : String → Option Value} {s : Shape}

/-- Neither the value nor an end in it is an array. -/
structure WithoutArrays (v : Value) : Prop where
  whole : v.asArray? = none
  a : (v.get? "a").bind (·.asArray?) = none
  b : (v.get? "b").bind (·.asArray?) = none

theorem recordForm_iff (h : v.asArray? = none) :
    recordForm names v member ↔ objectForm names v member := by
  refine or_iff_left ?_
  rintro ⟨xs, rfl, -⟩
  cases h

theorem isPoint_iff (h : v.asArray? = none) {p : ChartPoint} :
    IsPoint recordForm v p ↔ IsPoint objectForm v p :=
  exists_congr fun _ => and_congr_left fun _ => recordForm_iff h

theorem isGeometry_iff (ha : (member "a").bind (·.asArray?) = none)
    (hb : (member "b").bind (·.asArray?) = none) {g : ChartGeometry} :
    IsGeometry recordForm member g ↔ IsGeometry objectForm member g := by
  have hend {k : String} (hk : (member k).bind (·.asArray?) = none) {p : ChartPoint} :
      (∃ v, member k = some v ∧ IsPoint recordForm v p) ↔
        ∃ v, member k = some v ∧ IsPoint objectForm v p := by
    refine exists_congr fun v => and_congr_right fun hv => isPoint_iff ?_
    rwa [hv] at hk
  cases g with
  | level price => exact Iff.rfl
  | trendline a b | zone a b => exact and_congr (hend ha) (hend hb)

theorem isRecord_iff (h : WithoutArrays v) : IsRecord recordForm v s ↔ IsRecord objectForm v s := by
  refine and_congr_right fun _ => exists_congr fun member => ?_
  rw [recordForm_iff h.whole]
  refine and_congr_right fun ⟨_, hmember⟩ => ?_
  subst hmember
  have hgeometry {g : ChartGeometry} := isGeometry_iff (g := g) h.a h.b
  exact ⟨fun hd => { hd with geometry := hgeometry.mp hd.geometry },
    fun hd => { hd with geometry := hgeometry.mpr hd.geometry }⟩

end Arrays

section Texts

variable {text : String} {entries : List Value}

/-- The text of a document of the version that is read, with these entries. -/
def Envelope (text : String) (entries : List Value) : Prop :=
  ∃ document, Value.ofText? text = some document ∧ document.get? "version" = some (.int 1) ∧
    document.get? "shapes" = some (.array entries)

theorem records_of_members {document : Value} (hversion : document.get? "version" = some (.int 1))
    (hshapes : document.get? "shapes" = some (.array entries)) : records document = entries := by
  have hread : (document.get? "version").bind (·.asInt?) = some ((version : Nat) : Int) := by
    rw [hversion]
    rfl
  have hentries : (document.get? "shapes").bind (·.asArray?) = some entries := by
    rw [hshapes]
    rfl
  exact (if_pos hread).trans (congrArg (·.getD []) hentries)

theorem records_eq_nil {document : Value}
    (h : ∀ entries, document.get? "version" = some (.int 1) →
      document.get? "shapes" ≠ some (.array entries)) : records document = [] := by
  unfold records
  split
  · rename_i hread
    obtain ⟨v, hversion, hv⟩ := Option.bind_eq_some_iff.mp hread
    rw [Value.asInt?_eq_some_iff] at hv
    rw [hv] at hversion
    have hentries : (document.get? "shapes").bind (·.asArray?) = none := by
      refine Option.eq_none_iff_forall_ne_some.mpr fun entries hentries => ?_
      obtain ⟨w, hshapes, hw⟩ := Option.bind_eq_some_iff.mp hentries
      rw [Value.asArray?_eq_some_iff] at hw
      exact h entries hversion (hw ▸ hshapes)
    rw [hentries]
    rfl
  · rfl

theorem readVerdicts_of_envelope (h : Envelope text entries) :
    readVerdicts text = verdicts [] 0 entries := by
  obtain ⟨document, hread, hversion, hshapes⟩ := h
  unfold readVerdicts
  rw [hread]
  exact congrArg (verdicts [] 0) (records_of_members hversion hshapes)

theorem Envelope.proper (h : Envelope text entries) {i : Nat} {v : Value}
    (hv : entries[i]? = some v) : v.Proper := by
  obtain ⟨document, hread, -, hshapes⟩ := h
  have hentries := (proper_of_ofText? hread).of_get? hshapes
  exact elementsProper_iff.mp hentries v (List.mem_of_getElem? hv)

/-- No entry before this place is kept with this id. -/
def NewAt (text : String) (i : Nat) (id : String) : Prop :=
  ∀ j < i, ∀ t, (readVerdicts text)[j]? = some (.kept t) → t.id ≠ id

theorem kept_of_envelope (h : Envelope text entries) (i : Nat) (s : Shape) :
    (readVerdicts text)[i]? = some (.kept s) ↔
      (∃ v, entries[i]? = some v ∧ IsRecord recordForm v s) ∧ NewAt text i s.id := by
  have hvalid : (∃ v, entries[i]? = some v ∧ validShape? v = some s) ↔
      ∃ v, entries[i]? = some v ∧ IsRecord recordForm v s :=
    exists_congr fun v => and_congr_right fun hv => validShape?_eq_some_iff (h.proper hv)
  rw [NewAt, readVerdicts_of_envelope h, kept_iff, hvalid]
  simp

theorem shapes_without_envelope (h : ∀ entries, ¬ Envelope text entries) : shapes text = [] := by
  unfold shapes readVerdicts
  split
  · rfl
  · rename_i document hread
    have hrecords : records document = [] := records_eq_nil fun entries hversion hshapes =>
      h entries ⟨document, hread, hversion, hshapes⟩
    rw [hrecords]
    rfl

/-- Of a readable document each entry has a verdict, and the entries kept are the records, in either
form, whose ids no kept entry has before them. Where an entry has no arrays for objects it is kept
as a record in the form of objects. All else that is stored reads as nothing. -/
theorem kept_exactly_records (text : String) :
    (∀ entries, Envelope text entries →
      (readVerdicts text).length = entries.length ∧
      (∀ (i : Nat) (s : Shape), (readVerdicts text)[i]? = some (.kept s) ↔
        (∃ v, entries[i]? = some v ∧ IsRecord recordForm v s) ∧ NewAt text i s.id) ∧
      ∀ (i : Nat) (v : Value) (s : Shape), entries[i]? = some v → WithoutArrays v →
        ((readVerdicts text)[i]? = some (.kept s) ↔
          IsRecord objectForm v s ∧ NewAt text i s.id)) ∧
    shapes text = (readVerdicts text).filterMap Verdict.shape? ∧
    ((∀ entries, ¬ Envelope text entries) → shapes text = []) := by
  refine ⟨fun entries h => ⟨?_, kept_of_envelope h, fun i v s hv harrays => ?_⟩, rfl,
    shapes_without_envelope⟩
  · rw [readVerdicts_of_envelope h, length_verdicts]
  · have hrecord : (∃ w, entries[i]? = some w ∧ IsRecord recordForm w s) ↔
        IsRecord objectForm v s := by
      rw [hv, ← isRecord_iff harrays]
      simp
    rw [kept_of_envelope h, hrecord]

def documentText (entries : List Value) : String :=
  (Value.object [("version", .int 1), ("shapes", .array entries)]).text

theorem envelope_documentText (h : ElementsFit entries 125) :
    Envelope (documentText entries) (normalElements entries) := by
  have hfits :
      (Value.object [("version", .int 1), ("shapes", .array entries)]).Fits nestingLimit := by
    refine ⟨?_, h, trivial⟩
    simp [Value.int, Value.Fits]
  have hnodup : ([("version", Value.int 1), ("shapes", .array entries)].map (·.1)).Nodup := by simp
  refine ⟨_, ofText?_text hfits, ?_, ?_⟩
  · exact get?_normal hnodup "version"
  · exact get?_normal hnodup "shapes"

def plainLevel : Value :=
  .object [("createdAt", .int 1), ("id", .string "a"), ("kind", .string "level"), ("price", .int 5)]

def listedLevel : Value := .array [.string "level", .string "a", .int 1, .null, .int 5]

def storedLevel : Shape := ⟨"a", 1, none, .level (Double.ofInt 5)⟩

theorem isRecord_plainLevel : IsRecord objectForm plainLevel storedLevel := by
  refine ⟨by decide, plainLevel.get?, ⟨rfl, rfl⟩, ?_⟩
  exact ⟨rfl, rfl, rfl, by decide, .inl rfl, rfl⟩

theorem isRecord_listedLevel : IsRecord recordForm listedLevel storedLevel := by
  refine ⟨by decide, _, .inr ⟨_, rfl, le_rfl, rfl⟩, ?_⟩
  exact ⟨rfl, rfl, rfl, by decide, .inr ⟨rfl, rfl⟩, rfl⟩

theorem envelope_listedLevel : Envelope (documentText [listedLevel]) [listedLevel] :=
  envelope_documentText (by simp [listedLevel, ElementsFit, Value.Fits, Value.int])

theorem newAt_zero (text id : String) : NewAt text 0 id := nofun

theorem kept_exactly_records_of_levels :
    (readVerdicts (documentText [plainLevel]))[0]? = some (.kept storedLevel) ∧
      (readVerdicts (documentText [listedLevel]))[0]? = some (.kept storedLevel) ∧
      shapes "" = [] := by
  have hplain : Envelope (documentText [plainLevel]) [plainLevel] :=
    envelope_documentText (by simp [plainLevel, ElementsFit, MembersFit, Value.Fits, Value.int])
  have hnone (entries : List Value) : ¬ Envelope "" entries := by
    rintro ⟨document, hread, -⟩
    cases hread
  refine ⟨?_, ?_, (kept_exactly_records "").2.2 hnone⟩
  · exact (((kept_exactly_records _).1 _ hplain).2.2 0 plainLevel storedLevel rfl
      ⟨rfl, rfl, rfl⟩).mpr ⟨isRecord_plainLevel, newAt_zero _ _⟩
  · exact (((kept_exactly_records _).1 _ envelope_listedLevel).2.1 0 storedLevel).mpr
      ⟨⟨listedLevel, rfl, isRecord_listedLevel⟩, newAt_zero _ _⟩

/-- Not only objects are kept. -/
theorem listed_level_kept :
    ¬ ∀ text entries, Envelope text entries → ∀ (i : Nat) (s : Shape),
      (readVerdicts text)[i]? = some (.kept s) →
        ∃ v, entries[i]? = some v ∧ IsRecord objectForm v s := by
  intro h
  have hkept := (kept_of_envelope envelope_listedLevel 0 storedLevel).mpr
    ⟨⟨listedLevel, rfl, isRecord_listedLevel⟩, newAt_zero _ _⟩
  obtain ⟨v, hv, -, _, ⟨hobject, -⟩, -⟩ := h _ _ envelope_listedLevel 0 storedLevel hkept
  cases hv
  cases hobject

end Texts

end MarketSketch.Archive
