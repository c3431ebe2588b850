import MarketSketch.Proofs.Drawing.Sketch

/-! The gesture under way and its surroundings. A draft has the kind of the tool in hand, begins at
the anchor and is not stored yet; a drag needs the select tool and holds a snapshot of a stored
shape. Only the start of a draft relies on the supply of ids. -/

namespace MarketSketch

namespace Geometry

variable {α : Type}

def start? : Geometry α → Option (Point α)
  | level _ => none
  | trendline a _ | zone a _ => some a

@[simp] theorem start?_withEnd (g : Geometry α) (p : Point α) :
    (g.withEnd p).start? = g.start? := by
  cases g <;> rfl

@[simp] theorem kind_withEnd (g : Geometry α) (p : Point α) : (g.withEnd p).kind = g.kind := by
  cases g <;> rfl

@[simp] theorem kind_anchored (k : ShapeKind) (p : Point α) : (anchored k p).kind = k := by
  cases k <;> rfl

theorem start?_anchored {k : ShapeKind} (h : k ≠ .level) (p : Point α) :
    (anchored k p).start? = some p := by
  cases k with
  | level => exact absurd rfl h
  | trendline => rfl
  | zone => rfl

end Geometry

theorem Store.get?_tag {s : Store} (hd : s.ids.Nodup) {shape : Shape} (h : shape.tag ∈ s.tags) :
    ∃ stored, s.get? shape.id = some stored ∧ stored.tag = shape.tag := by
  obtain ⟨stored, hmem, htag⟩ := List.mem_map.mp h
  have hid : stored.id = shape.id := congrArg Tag.id htag
  refine ⟨stored, ?_, htag⟩
  cases hfound : s.get? shape.id with
  | none =>
    have hnone := List.find?_eq_none.mp hfound stored hmem
    simp [hid] at hnone
  | some other =>
    have hother : other.id = shape.id := by simpa using List.find?_some hfound
    have hin : other ∈ s.shapes := List.mem_of_find?_eq_some hfound
    rw [List.inj_on_of_nodup_map hd hin hmem (hother.trans hid.symm)]

namespace Sketch

variable {s : Sketch} {m : Moment}

/-- What a gesture needs beside the stored shapes that it holds: its tool, and an id of its own. -/
structure Handled (s : Sketch) : Prop where
  drawing : ∀ anchor draft, s.gesture = .drawing anchor draft →
    s.tool.creates? = some draft.kind ∧ draft.geometry.start? = some anchor ∧
      draft.id ∉ s.store.ids
  dragging : ∀ id anchor snapshot, s.gesture = .dragging id anchor snapshot → s.tool = .select

/-- The states of a sketch: stored ids are distinct, the selection is stored, a draft fits its tool
and its anchor and is not stored, a dragged shape is stored with all that its snapshot is but for
the place. -/
structure WellFormed (s : Sketch) : Prop where
  distinct : s.store.ids.Nodup
  selected : ∀ id, s.selected = some id → id ∈ s.store.ids
  drawing : ∀ anchor draft, s.gesture = .drawing anchor draft →
    s.tool.creates? = some draft.kind ∧ draft.kind ≠ .level ∧
      draft.geometry.start? = some anchor ∧ draft.id ∉ s.store.ids
  dragging : ∀ id anchor snapshot, s.gesture = .dragging id anchor snapshot →
    s.tool = .select ∧ snapshot.id = id ∧ ∃ stored, s.store.get? id = some stored ∧
      stored.createdAt = snapshot.createdAt ∧ stored.label = snapshot.label ∧
      stored.kind = snapshot.kind

theorem kind_ne_level_of_start? {draft : Shape} {anchor : ChartPoint}
    (h : draft.geometry.start? = some anchor) : draft.kind ≠ .level := by
  unfold Shape.kind
  cases hg : draft.geometry with
  | level price => simp [hg, Geometry.start?] at h
  | trendline a b => simp [Geometry.kind]
  | zone a b => simp [Geometry.kind]

theorem Sound.wellFormed (h : s.Sound) (hh : s.Handled) : s.WellFormed := by
  refine ⟨h.distinct, h.selected, ?_, ?_⟩
  · intro anchor draft hg
    obtain ⟨htool, hstart, hnew⟩ := hh.drawing anchor draft hg
    exact ⟨htool, kind_ne_level_of_start? hstart, hstart, hnew⟩
  · intro id anchor snapshot hg
    obtain ⟨rfl, htag⟩ := h.held id anchor snapshot hg
    obtain ⟨stored, hget, heq⟩ := Store.get?_tag h.distinct htag
    exact ⟨hh.dragging _ anchor snapshot hg, rfl, stored, hget, congrArg Tag.createdAt heq,
      congrArg Tag.label heq, congrArg Tag.kind heq⟩

theorem handled_of_idle (h : s.gesture = .idle) : s.Handled :=
  ⟨by simp [h], by simp [h]⟩

theorem Handled.of_same (h : s.Handled) {t : Sketch} (hg : t.gesture = s.gesture)
    (htool : t.tool = s.tool) (hs : t.store = s.store) : t.Handled := by
  refine ⟨?_, ?_⟩
  · intro anchor draft hdrawing
    rw [htool, hs]
    exact h.drawing anchor draft (hg ▸ hdrawing)
  · intro id anchor snapshot hdragging
    rw [htool]
    exact h.dragging id anchor snapshot (hg ▸ hdragging)

section Steps

theorem handled_cancel (s : Sketch) : s.cancel.state.Handled :=
  handled_of_idle (cancel_gesture s)

theorem handled_setTool (s : Sketch) (tool : Tool) : (s.setTool tool).state.Handled :=
  handled_of_idle (cancel_gesture s)

theorem handled_undo (s : Sketch) : s.undo.state.Handled :=
  handled_of_idle (undo_gesture s)

theorem handled_clear (s : Sketch) : s.clear.state.Handled :=
  handled_of_idle (clear_gesture s)

theorem handled_startDraft {kind : ShapeKind} (htool : s.tool.creates? = some kind)
    (hkind : kind ≠ .level) (hnew : m.freshId ∉ s.store.ids) (p : ChartPoint) :
    (s.startDraft m kind p).state.Handled := by
  refine ⟨?_, by simp [startDraft]⟩
  intro anchor draft hg
  cases hg
  refine ⟨?_, Geometry.start?_anchored hkind p, hnew⟩
  show s.tool.creates? = some (Geometry.anchored kind p).kind
  rw [htool, Geometry.kind_anchored]

theorem handled_grab (hidle : s.gesture = .idle) (htool : s.tool.creates? = none) (v : ChartView)
    (at_ : Pixel) (p : ChartPoint) : (s.grab v at_ p).state.Handled := by
  have hselect : s.tool = .select := by
    cases ht : s.tool <;> simp [ht, Tool.creates?] at htool
    rfl
  rcases s.grab_cases v at_ p with ⟨shape, _, _, heq⟩ | heq <;> rw [heq]
  · exact ⟨by simp, fun _ _ _ _ => hselect⟩
  · exact handled_of_idle hidle

theorem Handled.pointerDown (h : s.Handled) (v : ChartView) (at_ : Pixel)
    (hnew : Effect.takeId ∈ (s.pointerDown m v at_).effects → m.freshId ∉ s.store.ids) :
    (s.pointerDown m v at_).state.Handled := by
  rcases s.pointerDown_cases m v at_ with
    heq | ⟨hidle, p, _, heq | ⟨kind, htool, hkind, heq⟩ | ⟨htool, heq⟩⟩ <;> rw [heq] at hnew ⊢
  · exact h
  · exact handled_of_idle hidle
  · exact handled_startDraft htool hkind (hnew (by simp [startDraft])) p
  · exact handled_grab hidle htool v at_ p

theorem Handled.track (h : s.Handled) (p : ChartPoint) : (s.track p).state.Handled := by
  unfold Sketch.track
  split
  · exact h
  · rename_i anchor draft hg
    obtain ⟨htool, hstart, hnew⟩ := h.drawing anchor draft hg
    refine ⟨?_, by simp⟩
    intro anchor' draft' hg'
    cases hg'
    refine ⟨?_, ?_, hnew⟩
    · show s.tool.creates? = some (draft.geometry.withEnd p).kind
      rw [Geometry.kind_withEnd]
      exact htool
    · show (draft.geometry.withEnd p).start? = some anchor
      rw [Geometry.start?_withEnd, hstart]
  · rename_i id anchor snapshot hg
    refine ⟨by simp [hg], ?_⟩
    intro id' anchor' snapshot' _
    exact h.dragging id anchor snapshot hg

theorem Handled.pointerMove (h : s.Handled) (v : ChartView) (at_ : Pixel) :
    (s.pointerMove v at_).state.Handled := by
  rcases s.pointerMove_cases v at_ with heq | ⟨_, p, _, heq⟩ <;> rw [heq]
  · exact h
  · exact h.track p

theorem handled_pointerUp (s : Sketch) (v : ChartView) (at_ : Pixel) :
    (s.pointerUp v at_).state.Handled :=
  handled_of_idle (pointerUp_gesture s v at_)

theorem Handled.select (h : s.Handled) (id : String) : (s.select id).state.Handled := by
  obtain ⟨hg, hs⟩ := s.select_kept id
  refine h.of_same hg ?_ hs
  unfold Sketch.select
  split <;> rfl

end Steps

end Sketch

end MarketSketch
