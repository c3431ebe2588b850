import MarketSketch.Drawing.Setup

/-! Where a signal document has its entry zone. A setup takes the first value that its places hold
if it is an object; a value of another kind there hides an object in a later place. -/

namespace MarketSketch

theorem head?_filter_or {α : Type} (p : α → Bool) (xs : List α) :
    xs.head?.filter p = xs.find? p ∨ xs.head?.filter p = none := by
  cases xs with
  | nil => exact .inl rfl
  | cons x xs => cases h : p x <;> simp [Option.filter, h]

theorem head?_filter_eq_find?_iff {α : Type} (p : α → Bool) (xs : List α) :
    xs.head?.filter p = xs.find? p ↔ ∀ x ∈ xs.head?, p x = true ∨ ∀ y ∈ xs, p y = false := by
  cases xs with
  | nil => simp
  | cons x xs =>
    cases h : p x with
    | true => simp [Option.filter, h]
    | false =>
      have hnone : none = xs.find? p ↔ ∀ y ∈ xs, p y = false := by
        rw [eq_comm, List.find?_eq_none]
        simp
      simpa [Option.filter, h] using hnone

namespace Setup

open Json

/-- The values in the places of an entry zone, in the order in which the places are looked at. -/
def zoneValues (v : Value) : List Value :=
  [v.get? "entryZone", v.get? "entry_zone",
    (v.get? "evidence").bind (·.get? "entry_zone")].filterMap id

theorem zonePlace?_eq_head? (v : Value) : zonePlace? v = (zoneValues v).head? := by
  unfold zonePlace? zoneValues
  cases v.get? "entryZone" with
  | some zone => rfl
  | none =>
    cases v.get? "entry_zone" with
    | some zone => rfl
    | none => cases (v.get? "evidence").bind (·.get? "entry_zone") <;> rfl

theorem entryZone_ofJson (v : Value) :
    (ofJson v).entryZone = (zoneValues v).head?.filter (·.isObject) :=
  congrArg (Option.filter Value.isObject) (zonePlace?_eq_head? v)

/-- The entry zone of a setup is the first object in its places exactly if the first value there is
an object or none of them is one. Else the setup has no entry zone, and neither builder draws one:
the levels and the zones of risk and target are all there is. -/
theorem entry_zone_found_iff (v : Value) :
    ((ofJson v).entryZone = (zoneValues v).find? (·.isObject) ↔
      ∀ w ∈ (zoneValues v).head?, w.isObject = true ∨ ∀ o ∈ zoneValues v, o.isObject = false) ∧
    ((ofJson v).entryZone ≠ (zoneValues v).find? (·.isObject) →
      (ofJson v).entryZone = none ∧ (ofJson v).analysis.zones = [] ∧
        (ofJson v).drawings.zones = (box? (ofJson v).entry (ofJson v).stop "Risk").toList ++
          (box? (ofJson v).entry (ofJson v).target "Target").toList) := by
  rw [entryZone_ofJson]
  refine ⟨head?_filter_eq_find?_iff _ _, fun hother => ?_⟩
  have hnone : (zoneValues v).head?.filter (·.isObject) = none :=
    (head?_filter_or _ _).resolve_left hother
  have hzones : (ofJson v).analysis.zones = [] := by
    rw [analysis, entryBox?, entryZone_ofJson, hnone]
    rfl
  refine ⟨hnone, hzones, ?_⟩
  rw [drawings, hzones, List.nil_append]

def unitBand : Value := .object [("high", .int 2), ("low", .int 1)]

theorem entry_zone_found_of_nulls :
    (ofJson (.object [("entry_zone", unitBand)])).entryZone = some unitBand ∧
      (ofJson (.object [("entryZone", .null), ("entry_zone", unitBand)])).entryZone = none := by
  have halone := (entry_zone_found_iff (.object [("entry_zone", unitBand)])).1.mpr
    fun _ hw => .inl (Option.some.inj hw ▸ rfl)
  have hhidden := (entry_zone_found_iff (.object [("entryZone", .null), ("entry_zone", unitBand)]))
  refine ⟨halone, (hhidden.2 fun heq => ?_).1⟩
  cases heq

/-- Not every entry zone is found. -/
theorem null_hides_entry_zone :
    ¬ ∀ v : Value, (ofJson v).entryZone = (zoneValues v).find? (·.isObject) := by
  intro h
  cases h (.object [("entryZone", .null), ("entry_zone", unitBand)])

end Setup

end MarketSketch
