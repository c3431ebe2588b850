import MarketSketch.Drawing.Store
import Mathlib.Data.List.Nodup

/-! The identities of stored shapes. A store that never holds an id twice keeps the tags of its
shapes in place when a shape is overwritten; only adding, undoing and clearing change the list of
tags. -/

namespace MarketSketch

/-- What no gesture changes about a shape. -/
structure Tag where
  id : String
  createdAt : Int
  label : Option String
  kind : ShapeKind
deriving DecidableEq

namespace Shape

def tag (s : Shape) : Tag := ⟨s.id, s.createdAt, s.label, s.kind⟩

@[simp] theorem tag_id (s : Shape) : s.tag.id = s.id := rfl

@[simp] theorem tag_translated (s : Shape) (dt dp : Float) : (s.translated dt dp).tag = s.tag := by
  unfold tag translated kind
  cases s.geometry <;> rfl

@[simp] theorem tag_withEnd (s : Shape) (p : ChartPoint) : (s.withEnd p).tag = s.tag := by
  unfold tag withEnd kind
  cases s.geometry <;> rfl

end Shape

namespace Store

variable {s : Store}

def ids (s : Store) : List String := s.shapes.map (·.id)

def tags (s : Store) : List Tag := s.shapes.map (·.tag)

theorem ids_eq_tags (s : Store) : s.ids = s.tags.map (·.id) := by
  simp [ids, tags, Function.comp_def]

theorem ids_of_tags_eq {s t : Store} (h : t.tags = s.tags) : t.ids = s.ids := by
  rw [ids_eq_tags, ids_eq_tags, h]

theorem id_mem_of_tag_mem {shape : Shape} (h : shape.tag ∈ s.tags) : shape.id ∈ s.ids := by
  rw [ids_eq_tags]
  exact List.mem_map_of_mem h

theorem tag_mem {shape : Shape} (h : shape ∈ s.shapes) : shape.tag ∈ s.tags :=
  List.mem_map_of_mem h

@[simp] theorem contains_iff {id : String} : s.contains id = true ↔ id ∈ s.ids := by
  simp [contains, ids]

theorem overwritten_of_notMem {shape : Shape} {xs : List Shape}
    (h : shape.id ∉ xs.map (·.id)) : overwritten shape xs = xs := by
  induction xs with
  | nil => rfl
  | cons t rest ih =>
    simp only [List.map_cons, List.mem_cons, not_or] at h
    rw [overwritten, if_neg (Ne.symm h.1), ih h.2]

theorem overwritten_eq_map (shape : Shape) {xs : List Shape} (hd : (xs.map (·.id)).Nodup) :
    overwritten shape xs = xs.map fun t => if t.id = shape.id then shape else t := by
  induction xs with
  | nil => rfl
  | cons t rest ih =>
    rw [List.map_cons, List.nodup_cons] at hd
    rw [overwritten, List.map_cons]
    split
    · rename_i ht
      rw [← ih hd.2, overwritten_of_notMem (ht ▸ hd.1)]
    · rw [ih hd.2]

theorem map_id_overwritten (shape : Shape) (xs : List Shape) :
    (overwritten shape xs).map (·.id) = xs.map (·.id) := by
  induction xs with
  | nil => rfl
  | cons t rest ih =>
    rw [overwritten]
    split
    · rename_i h
      rw [List.map_cons, List.map_cons, h]
    · rw [List.map_cons, List.map_cons, ih]

theorem overwritten_overwritten {old new : Shape} (h : old.id = new.id) (xs : List Shape) :
    overwritten new (overwritten old xs) = overwritten new xs := by
  induction xs with
  | nil => rfl
  | cons t rest ih =>
    by_cases ht : t.id = old.id
    · have hnew : t.id = new.id := ht.trans h
      rw [overwritten, if_pos ht, overwritten, if_pos h, overwritten, if_pos hnew]
    · have hnew : t.id ≠ new.id := fun hid => ht (hid.trans h.symm)
      rw [overwritten, if_neg ht, overwritten, if_neg hnew, overwritten, if_neg hnew, ih]

theorem map_tag_overwritten {shape : Shape} {xs : List Shape} (hd : (xs.map (·.id)).Nodup)
    (ht : shape.tag ∈ xs.map (·.tag)) : (overwritten shape xs).map (·.tag) = xs.map (·.tag) := by
  rw [overwritten_eq_map shape hd, List.map_map]
  apply List.map_congr_left
  intro t htx
  obtain ⟨u, hu, hut⟩ := List.mem_map.mp ht
  have huid : u.id = shape.id := congrArg Tag.id hut
  simp only [Function.comp_apply]
  split
  · rename_i hid
    rw [← hut, List.inj_on_of_nodup_map hd htx hu (hid.trans huid.symm)]
  · rfl

section Spec

/-- A turn of a store either leaves it alone or asks for one write of the new list. -/
def Writes {ρ : Type} (s : Store) (t : Turn Store ρ) : Prop :=
  t.state.key? = s.key? ∧ (t = ⟨s, t.reply, []⟩ ∨ t.effects = t.state.saving)

theorem writes_replace (s : Store) (shape : Shape) : s.Writes (s.replace shape) := by
  unfold replace
  split
  · exact ⟨rfl, .inr rfl⟩
  · exact ⟨rfl, .inl rfl⟩

theorem writes_add (s : Store) (shape : Shape) : s.Writes (s.add shape) := by
  unfold add
  split
  · exact ⟨rfl, .inl rfl⟩
  · exact ⟨rfl, .inr rfl⟩

theorem tags_replace (hd : s.ids.Nodup) {shape : Shape} (ht : shape.tag ∈ s.tags) :
    (s.replace shape).state.tags = s.tags := by
  unfold replace
  split
  · exact map_tag_overwritten hd ht
  · rfl

theorem shapes_replace (hd : s.ids.Nodup) {shape : Shape} (hmem : shape.id ∈ s.ids) :
    (s.replace shape).state.shapes =
      s.shapes.map fun t => if t.id = shape.id then shape else t := by
  unfold replace
  rw [if_pos (contains_iff.mpr hmem)]
  exact overwritten_eq_map shape hd

theorem replace_shapes (s : Store) (shape : Shape) :
    (s.replace shape).state.shapes = overwritten shape s.shapes := by
  unfold replace
  split
  · rfl
  · rename_i h
    exact (overwritten_of_notMem (mt contains_iff.mpr h)).symm

theorem tags_add_of_mem {shape : Shape} (h : shape.id ∈ s.ids) :
    (s.add shape).state.tags = s.tags := by
  unfold add
  rw [if_pos (contains_iff.mpr h)]

theorem tags_add_of_notMem {shape : Shape} (h : shape.id ∉ s.ids) :
    (s.add shape).state.tags = s.tags ++ [shape.tag] := by
  unfold add
  rw [if_neg (mt contains_iff.mp h)]
  simp [changed, tags]

theorem tags_add (s : Store) (shape : Shape) : (s.add shape).state.tags = s.tags ∨
      shape.id ∉ s.ids ∧ (s.add shape).state.tags = s.tags ++ [shape.tag] := by
  by_cases h : shape.id ∈ s.ids
  · exact .inl (tags_add_of_mem h)
  · exact .inr ⟨h, tags_add_of_notMem h⟩

theorem nodup_ids_add (hd : s.ids.Nodup) (shape : Shape) : (s.add shape).state.ids.Nodup := by
  rcases tags_add s shape with h | ⟨hid, h⟩
  · rwa [ids_of_tags_eq h]
  · rw [ids_eq_tags, h, List.map_append, ← ids_eq_tags]
    exact hd.append (by simp) (by simpa using hid)

theorem id_mem_add (s : Store) (shape : Shape) : shape.id ∈ (s.add shape).state.ids := by
  rw [ids_eq_tags]
  by_cases h : shape.id ∈ s.ids
  · rwa [tags_add_of_mem h, ← ids_eq_tags]
  · rw [tags_add_of_notMem h]
    simp

theorem undo_reply (s : Store) : s.undo.reply = s.shapes.getLast? := by
  unfold undo
  split
  · rename_i removed h
    exact h.symm
  · rename_i h
    exact h.symm

theorem undo_shapes (s : Store) : s.undo.state.shapes = s.shapes.dropLast := by
  unfold undo
  split
  · rfl
  · rename_i h
    rw [List.getLast?_eq_none_iff.mp h, List.dropLast_nil]

theorem ids_undo (s : Store) : s.undo.state.ids = s.ids.dropLast := by
  rw [ids, undo_shapes, List.map_dropLast, ids]

end Spec

end Store

end MarketSketch
