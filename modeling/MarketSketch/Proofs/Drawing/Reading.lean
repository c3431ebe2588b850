import MarketSketch.Drawing.Archive
import MarketSketch.Proofs.Drawing.Store

/-! Which shapes a stored text can hold: each passes the check of its record, and no id stands
twice. -/

namespace MarketSketch

/-- A whole number of 64 bits with a sign. -/
def IsSignedWord (n : Int) : Prop := -0x8000000000000000 ≤ n ∧ n < 0x8000000000000000

instance (n : Int) : Decidable (IsSignedWord n) := inferInstanceAs (Decidable (_ ∧ _))

theorem isSignedWord_signedWord (n : UInt64) : IsSignedWord (signedWord n) := by
  have hlt := n.toNat_lt
  unfold IsSignedWord signedWord
  split <;> omega

namespace Archive

open MarketSketch.Json

def storable (s : Shape) : Bool := !Text.isBlankText s.id && s.geometry.finite

theorem isSignedWord_of_required? {v? : Option Value} {n : Int}
    (h : required? readTime? v? = some n) : IsSignedWord n := by
  obtain ⟨v, _, hv⟩ := Option.bind_eq_some_iff.mp h
  have hrange := (Option.filter_eq_some_iff.mp hv).2
  simp only [decide_eq_true_eq] at hrange
  exact ⟨hrange.1, by omega⟩

theorem isSignedWord_of_timed {id? time? : Option Value} {s : Shape}
    {rest : String → Int → Option Shape}
    (h : ((required? text? id?).bind fun id => (required? readTime? time?).bind (rest id)) = some s)
    (hrest : ∀ id createdAt, rest id createdAt = some s → s.createdAt = createdAt) :
    IsSignedWord s.createdAt := by
  obtain ⟨id, -, h⟩ := Option.bind_eq_some_iff.mp h
  obtain ⟨createdAt, htime, h⟩ := Option.bind_eq_some_iff.mp h
  rw [hrest id createdAt h]
  exact isSignedWord_of_required? htime

theorem isSignedWord_of_readShape? {v : Value} {s : Shape} (h : readShape? v = some s) :
    IsSignedWord s.createdAt := by
  unfold readShape? at h
  obtain ⟨⟨kind, record⟩, -, h⟩ := Option.bind_eq_some_iff.mp h
  cases kind with
  | level =>
    obtain ⟨fields, -, h⟩ := Option.bind_eq_some_iff.mp h
    split at h
    · refine isSignedWord_of_timed h fun id createdAt h => ?_
      obtain ⟨label, -, h⟩ := Option.bind_eq_some_iff.mp h
      obtain ⟨price, -, h⟩ := Option.bind_eq_some_iff.mp h
      rw [← Option.some.inj h]
    · simp at h
  | trendline | zone =>
    obtain ⟨fields, -, h⟩ := Option.bind_eq_some_iff.mp h
    split at h
    · refine isSignedWord_of_timed h fun id createdAt h => ?_
      obtain ⟨label, -, h⟩ := Option.bind_eq_some_iff.mp h
      obtain ⟨a, -, h⟩ := Option.bind_eq_some_iff.mp h
      obtain ⟨b, -, h⟩ := Option.bind_eq_some_iff.mp h
      rw [← Option.some.inj h]
    · simp at h

theorem of_validShape? {v : Value} {s : Shape} (h : validShape? v = some s) :
    storable s = true ∧ IsSignedWord s.createdAt := by
  obtain ⟨hread, hvalid⟩ := Option.filter_eq_some_iff.mp h
  exact ⟨hvalid, isSignedWord_of_readShape? hread⟩

def keptShapes (seen : List String) (index : Nat) (vs : List Value) : List Shape :=
  (verdicts seen index vs).filterMap Verdict.shape?

theorem keptShapes_cons_none {seen : List String} {index : Nat} {v : Value} {vs : List Value}
    (h : validShape? v = none) :
    keptShapes seen index (v :: vs) = keptShapes seen (index + 1) vs := by
  simp only [keptShapes, verdicts, h]
  exact List.filterMap_cons_none rfl

theorem keptShapes_cons_seen {seen : List String} {index : Nat} {v : Value} {vs : List Value}
    {s : Shape} (h : validShape? v = some s) (hs : s.id ∈ seen) :
    keptShapes seen index (v :: vs) = keptShapes seen (index + 1) vs := by
  simp only [keptShapes, verdicts, h, if_pos hs]
  exact List.filterMap_cons_none rfl

theorem keptShapes_cons_new {seen : List String} {index : Nat} {v : Value} {vs : List Value}
    {s : Shape} (h : validShape? v = some s) (hs : s.id ∉ seen) :
    keptShapes seen index (v :: vs) = s :: keptShapes (s.id :: seen) (index + 1) vs := by
  simp only [keptShapes, verdicts, h, if_neg hs]
  exact List.filterMap_cons_some rfl

theorem of_mem_keptShapes {seen : List String} {index : Nat} {vs : List Value} {s : Shape}
    (h : s ∈ keptShapes seen index vs) : s.id ∉ seen ∧ ∃ v ∈ vs, validShape? v = some s := by
  induction vs generalizing seen index with
  | nil => simp [keptShapes, verdicts] at h
  | cons v vs ih =>
    cases hv : validShape? v with
    | none =>
      rw [keptShapes_cons_none hv] at h
      obtain ⟨hs, w, hw, hws⟩ := ih h
      exact ⟨hs, w, List.mem_cons_of_mem v hw, hws⟩
    | some t =>
      by_cases ht : t.id ∈ seen
      · rw [keptShapes_cons_seen hv ht] at h
        obtain ⟨hs, w, hw, hws⟩ := ih h
        exact ⟨hs, w, List.mem_cons_of_mem v hw, hws⟩
      · rw [keptShapes_cons_new hv ht] at h
        rcases List.mem_cons.mp h with rfl | h
        · exact ⟨ht, v, List.mem_cons_self, hv⟩
        · obtain ⟨hs, w, hw, hws⟩ := ih h
          exact ⟨fun hmem => hs (List.mem_cons_of_mem _ hmem), w, List.mem_cons_of_mem v hw, hws⟩

theorem nodup_keptShapes (seen : List String) (index : Nat) (vs : List Value) :
    ((keptShapes seen index vs).map (·.id)).Nodup := by
  induction vs generalizing seen index with
  | nil => exact List.nodup_nil
  | cons v vs ih =>
    cases hv : validShape? v with
    | none => rw [keptShapes_cons_none hv]; exact ih seen (index + 1)
    | some t =>
      by_cases ht : t.id ∈ seen
      · rw [keptShapes_cons_seen hv ht]
        exact ih seen (index + 1)
      · rw [keptShapes_cons_new hv ht, List.map_cons, List.nodup_cons]
        refine ⟨?_, ih (t.id :: seen) (index + 1)⟩
        intro hmem
        obtain ⟨u, hu, hid⟩ := List.mem_map.mp hmem
        exact (of_mem_keptShapes hu).1 (hid ▸ List.mem_cons_self)

theorem shapes_eq_keptShapes {text : String} {document : Value}
    (h : Value.ofText? text = some document) :
    shapes text = keptShapes [] 0 (records document) := by
  simp [shapes, readVerdicts, h, keptShapes]

theorem shapes_of_unreadable {text : String} (h : Value.ofText? text = none) :
    shapes text = [] := by
  simp [shapes, readVerdicts, h]

theorem of_mem_shapes {text : String} {s : Shape} (h : s ∈ shapes text) :
    storable s = true ∧ IsSignedWord s.createdAt := by
  cases hdocument : Value.ofText? text with
  | none => simp [shapes_of_unreadable hdocument] at h
  | some document =>
    rw [shapes_eq_keptShapes hdocument] at h
    obtain ⟨-, v, -, hv⟩ := of_mem_keptShapes h
    exact of_validShape? hv

theorem nodup_ids_shapes (text : String) : ((shapes text).map (·.id)).Nodup := by
  cases h : Value.ofText? text with
  | none => rw [shapes_of_unreadable h]; exact List.nodup_nil
  | some document => rw [shapes_eq_keptShapes h]; exact nodup_keptShapes [] 0 (records document)

end Archive

namespace Store

theorem nodup_ids_opened (key : String) (stored : Except Failure (Option String)) :
    (opened key stored).state.ids.Nodup := by
  unfold opened loaded ids
  cases stored with
  | error f => exact List.nodup_nil
  | ok text? =>
    cases text? with
    | none => exact List.nodup_nil
    | some text => exact Archive.nodup_ids_shapes text

end Store

end MarketSketch
