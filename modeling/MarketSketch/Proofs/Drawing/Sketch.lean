import MarketSketch.Drawing.Sketch
import MarketSketch.Proofs.Drawing.Store

/-! The invariant of a sketch under every operation: ids are distinct, what is selected is stored,
and a drag holds a snapshot of a stored shape. Beside it, which operations keep all tags and how
often they ask for a write. -/

namespace MarketSketch

def Effect.isWrite : Effect → Bool
  | .write _ _ => true
  | _ => false

namespace Sketch

variable {s : Sketch} {m : Moment} {v : ChartView}

/-- What holds of every sketch that a board can get into. -/
structure Sound (s : Sketch) : Prop where
  distinct : s.store.ids.Nodup
  selected : ∀ id, s.selected = some id → id ∈ s.store.ids
  held : ∀ id anchor snapshot, s.gesture = .dragging id anchor snapshot →
    snapshot.id = id ∧ snapshot.tag ∈ s.store.tags

theorem Sound.held_id (h : s.Sound) {id : String} {anchor : ChartPoint} {snapshot : Shape}
    (hg : s.gesture = .dragging id anchor snapshot) : id ∈ s.store.ids := by
  obtain ⟨hid, htag⟩ := h.held id anchor snapshot hg
  exact hid ▸ Store.id_mem_of_tag_mem htag

theorem Sound.of_tags_eq (h : s.Sound) {t : Sketch} (htags : t.store.tags = s.store.tags)
    (hgesture : t.gesture = s.gesture ∨ t.gesture.draft?.isSome ∨ t.gesture = .idle)
    (hselected : ∀ id, t.selected = some id → id ∈ s.store.ids) : t.Sound := by
  have hids := Store.ids_of_tags_eq htags
  refine ⟨hids ▸ h.distinct, hids ▸ hselected, ?_⟩
  intro id anchor snapshot hg
  rw [htags]
  rcases hgesture with hsame | hdraft | hidle
  · exact h.held id anchor snapshot (hsame ▸ hg)
  · simp [hg, Gesture.draft?] at hdraft
  · simp [hg] at hidle

section Cancel

@[simp] theorem cancel_gesture (s : Sketch) : s.cancel.state.gesture = .idle := by
  unfold cancel
  split
  · assumption
  · rfl
  · rfl

@[simp] theorem cancel_selected (s : Sketch) : s.cancel.state.selected = s.selected := by
  unfold cancel
  split <;> rfl

theorem cancel_state_of_not_reply (h : s.cancel.reply = false) : s.cancel.state = s := by
  unfold cancel at h ⊢
  split at h
  · rfl
  · simp at h
  · simp at h

theorem cancel_tags (h : s.Sound) : s.cancel.state.store.tags = s.store.tags := by
  unfold cancel
  split
  · rfl
  · rfl
  · rename_i id anchor snapshot hg
    exact Store.tags_replace h.distinct (h.held id anchor snapshot hg).2

theorem Sound.cancel (h : s.Sound) : s.cancel.state.Sound :=
  h.of_tags_eq (cancel_tags h) (.inr (.inr (cancel_gesture s)))
    (by simpa using h.selected)

end Cancel

theorem setTool_tags (h : s.Sound) (tool : Tool) :
    (s.setTool tool).state.store.tags = s.store.tags := cancel_tags h

theorem Sound.setTool (h : s.Sound) (tool : Tool) : (s.setTool tool).state.Sound := by
  refine h.of_tags_eq (setTool_tags h tool) (.inr (.inr (cancel_gesture s))) ?_
  intro id hid
  simp only [Sketch.setTool, cancel_selected] at hid
  split at hid
  · exact h.selected id hid
  · simp at hid

section Pointer

theorem pointerDown_cases (s : Sketch) (m : Moment) (v : ChartView) (at_ : Pixel) :
    s.pointerDown m v at_ = ⟨s, .ignored, []⟩ ∨
      s.gesture = .idle ∧ ∃ p, v.toPoint? at_ = some p ∧
        (s.pointerDown m v at_ = s.placeLevel m p ∨
          (∃ kind, s.tool.creates? = some kind ∧ kind ≠ .level ∧
            s.pointerDown m v at_ = s.startDraft m kind p) ∨
          (s.tool.creates? = none ∧ s.pointerDown m v at_ = s.grab v at_ p)) := by
  unfold pointerDown
  cases hg : s.gesture with
  | drawing anchor draft => simp [isIdle, hg, Gesture.isIdle]
  | dragging id anchor snapshot => simp [isIdle, hg, Gesture.isIdle]
  | idle =>
    simp only [isIdle, hg, Gesture.isIdle, Bool.not_true, Bool.false_eq_true, if_false]
    cases hp : v.toPoint? at_ with
    | none => exact .inl rfl
    | some p =>
      refine .inr ⟨trivial, p, rfl, ?_⟩
      cases s.tool with
      | select => exact .inr (.inr ⟨rfl, rfl⟩)
      | level => exact .inl rfl
      | trendline => exact .inr (.inl ⟨.trendline, rfl, by decide, rfl⟩)
      | zone => exact .inr (.inl ⟨.zone, rfl, by decide, rfl⟩)

theorem grab_cases (s : Sketch) (v : ChartView) (at_ : Pixel) (p : ChartPoint) :
    (∃ shape ∈ s.store.shapes, topmost? s.store.shapes v s.tolerance at_ = some shape ∧
      s.grab v at_ p = ⟨{ s with selected := some shape.id, gesture := .dragging shape.id p shape },
        .dragStarted shape.id, []⟩) ∨
      s.grab v at_ p = ⟨{ s with selected := none }, .selectionCleared, []⟩ := by
  unfold grab
  cases ht : topmost? s.store.shapes v s.tolerance at_ with
  | none => exact .inr rfl
  | some shape =>
    refine .inl ⟨shape, ?_, rfl, rfl⟩
    exact List.mem_reverse.mp (List.mem_of_find?_eq_some ht)

theorem Sound.placeLevel (h : s.Sound) (m : Moment) (p : ChartPoint) :
    (s.placeLevel m p).state.Sound := by
  let shape := newShape m (.level p.price)
  refine ⟨Store.nodup_ids_add h.distinct shape, ?_, ?_⟩
  · intro id hid
    cases hid
    exact Store.id_mem_add s.store shape
  · intro id anchor snapshot hg
    obtain ⟨hid, htag⟩ := h.held id anchor snapshot hg
    refine ⟨hid, ?_⟩
    show snapshot.tag ∈ (s.store.add shape).state.tags
    rcases Store.tags_add s.store shape with hsame | ⟨_, hnew⟩
    · rwa [hsame]
    · rw [hnew]
      exact List.mem_append_left _ htag

theorem Sound.startDraft (h : s.Sound) (m : Moment) (kind : ShapeKind) (p : ChartPoint) :
    (s.startDraft m kind p).state.Sound :=
  h.of_tags_eq rfl (.inr (.inl rfl)) h.selected

theorem Sound.grab (h : s.Sound) (v : ChartView) (at_ : Pixel) (p : ChartPoint) :
    (s.grab v at_ p).state.Sound := by
  rcases grab_cases s v at_ p with ⟨shape, hmem, _, heq⟩ | heq <;> rw [heq]
  · have htag : shape.tag ∈ s.store.tags := Store.tag_mem hmem
    refine ⟨h.distinct, ?_, ?_⟩
    · intro id hid
      cases hid
      exact Store.id_mem_of_tag_mem htag
    · intro id anchor snapshot hg
      cases hg
      exact ⟨rfl, htag⟩
  · exact ⟨h.distinct, by simp, h.held⟩

theorem Sound.pointerDown (h : s.Sound) (m : Moment) (v : ChartView) (at_ : Pixel) :
    (s.pointerDown m v at_).state.Sound := by
  rcases pointerDown_cases s m v at_ with heq | ⟨_, p, _, heq | ⟨kind, _, _, heq⟩ | ⟨_, heq⟩⟩ <;>
    rw [heq]
  · exact h
  · exact h.placeLevel m p
  · exact h.startDraft m kind p
  · exact h.grab v at_ p

theorem track_gesture (s : Sketch) (p : ChartPoint) :
    (s.track p).state.gesture = s.gesture ∨ (s.track p).state.gesture.draft?.isSome := by
  unfold track
  split
  · exact .inl rfl
  · exact .inr rfl
  · exact .inl rfl

@[simp] theorem track_selected (s : Sketch) (p : ChartPoint) :
    (s.track p).state.selected = s.selected := by
  unfold track
  split <;> rfl

theorem track_tags (h : s.Sound) (p : ChartPoint) :
    (s.track p).state.store.tags = s.store.tags := by
  unfold track
  split
  · rfl
  · rfl
  · rename_i id anchor snapshot hg
    refine Store.tags_replace h.distinct ?_
    rw [Shape.tag_translated]
    exact (h.held id anchor snapshot hg).2

theorem Sound.track (h : s.Sound) (p : ChartPoint) : (s.track p).state.Sound :=
  h.of_tags_eq (track_tags h p) ((track_gesture s p).imp_right .inl)
    (by simpa using h.selected)

theorem pointerMove_cases (s : Sketch) (v : ChartView) (at_ : Pixel) :
    s.pointerMove v at_ = ⟨s, .ignored, []⟩ ∨ s.gesture ≠ .idle ∧ ∃ p, v.toPoint? at_ = some p ∧
        s.pointerMove v at_ = s.track p := by
  unfold pointerMove
  split
  · exact .inl rfl
  · rename_i hidle
    cases hp : v.toPoint? at_ with
    | none => exact .inl rfl
    | some p =>
      refine .inr ⟨?_, p, rfl, rfl⟩
      intro hg
      simp [isIdle, hg, Gesture.isIdle] at hidle

theorem Sound.pointerMove (h : s.Sound) (v : ChartView) (at_ : Pixel) :
    (s.pointerMove v at_).state.Sound := by
  rcases pointerMove_cases s v at_ with heq | ⟨_, p, _, heq⟩ <;> rw [heq]
  · exact h
  · exact h.track p

theorem Sound.release (h : s.Sound) : s.release.state.Sound := by
  unfold Sketch.release
  split
  · exact h
  · rename_i anchor draft hg
    refine ⟨Store.nodup_ids_add h.distinct draft, ?_, by simp⟩
    intro id hid
    cases hid
    exact Store.id_mem_add s.store draft
  · exact ⟨h.distinct, h.selected, by simp⟩

theorem pointerUp_eq (s : Sketch) (v : ChartView) (at_ : Pixel) : s.pointerUp v at_ = s.release ∨
      ∃ p, v.toPoint? at_ = some p ∧ s.pointerUp v at_ =
        (s.track p).state.release.after (s.track p).effects := by
  unfold pointerUp
  cases hp : v.toPoint? at_ with
  | none => exact .inl rfl
  | some p => exact .inr ⟨p, rfl, rfl⟩

theorem Sound.pointerUp (h : s.Sound) (v : ChartView) (at_ : Pixel) :
    (s.pointerUp v at_).state.Sound := by
  rcases pointerUp_eq s v at_ with heq | ⟨p, _, heq⟩ <;> rw [heq]
  · exact h.release
  · exact (h.track p).release

theorem release_gesture (s : Sketch) : s.release.state.gesture = .idle := by
  unfold release
  split
  · assumption
  · rfl
  · rfl

theorem pointerUp_gesture (s : Sketch) (v : ChartView) (at_ : Pixel) :
    (s.pointerUp v at_).state.gesture = .idle := by
  rcases pointerUp_eq s v at_ with heq | ⟨p, _, heq⟩ <;> rw [heq]
  · exact release_gesture s
  · exact release_gesture (s.track p).state

end Pointer

section Removal

theorem pruned_store (s : Sketch) : s.pruned.store = s.store := by
  unfold pruned
  split
  · split <;> rfl
  · rfl

theorem pruned_gesture (s : Sketch) : s.pruned.gesture = s.gesture := by
  unfold pruned
  split
  · split <;> rfl
  · rfl

theorem undo_gesture (s : Sketch) : s.undo.state.gesture = .idle := by
  simp only [undo, pruned_gesture]
  exact cancel_gesture s

theorem clear_gesture (s : Sketch) : s.clear.state.gesture = .idle := by
  simp only [clear, pruned_gesture]
  exact cancel_gesture s

theorem pruned_selected {id : String} (h : s.pruned.selected = some id) :
    s.selected = some id ∧ id ∈ s.store.ids := by
  unfold pruned at h
  split at h
  · rename_i other hsel
    split at h
    · rename_i hmem
      rw [hsel] at h
      cases h
      exact ⟨hsel, Store.contains_iff.mp hmem⟩
    · simp at h
  · rename_i hsel
    rw [hsel] at h
    simp at h

theorem sound_pruned (hidle : s.gesture = .idle) (hd : s.store.ids.Nodup) : s.pruned.Sound := by
  refine ⟨by rwa [pruned_store], ?_, by simp [pruned_gesture, hidle]⟩
  intro id hid
  rw [pruned_store]
  exact (pruned_selected hid).2

theorem Sound.undo (h : s.Sound) : s.undo.state.Sound := by
  refine sound_pruned (cancel_gesture s) ?_
  show s.cancel.state.store.undo.state.ids.Nodup
  rw [Store.ids_undo]
  exact h.cancel.distinct.sublist (List.dropLast_sublist _)

theorem sound_clear (s : Sketch) : s.clear.state.Sound :=
  sound_pruned (cancel_gesture s) List.nodup_nil

end Removal

theorem Sound.select (h : s.Sound) (id : String) : (s.select id).state.Sound := by
  unfold Sketch.select
  split
  · rename_i hmem
    refine ⟨h.distinct, ?_, h.held⟩
    intro other hother
    cases hother
    exact Store.contains_iff.mp hmem
  · exact h

theorem select_kept (s : Sketch) (id : String) :
    (s.select id).state.gesture = s.gesture ∧ (s.select id).state.store = s.store := by
  unfold select
  split <;> exact ⟨rfl, rfl⟩

theorem Sound.clearSelection (h : s.Sound) : s.clearSelection.Sound :=
  ⟨h.distinct, by simp [Sketch.clearSelection], h.held⟩

section Ignored

theorem pointerDown_of_unchanged {at_ : Pixel}
    (h : (s.pointerDown m v at_).reply.changed = false) :
    s.pointerDown m v at_ = ⟨s, .ignored, []⟩ := by
  rcases pointerDown_cases s m v at_ with heq | ⟨_, p, _, heq | ⟨kind, _, _, heq⟩ | ⟨_, heq⟩⟩
  · exact heq
  · simp [heq, placeLevel, Outcome.changed] at h
  · simp [heq, startDraft, Outcome.changed] at h
  · rcases grab_cases s v at_ p with ⟨shape, _, _, hgrab⟩ | hgrab
    · simp [heq, hgrab, Outcome.changed] at h
    · simp [heq, hgrab, Outcome.changed] at h

theorem track_of_unchanged {p : ChartPoint} (h : (s.track p).reply.changed = false) :
    s.gesture = .idle ∧ s.track p = ⟨s, .ignored, []⟩ := by
  unfold track at h ⊢
  split at h
  · rename_i hg
    exact ⟨hg, rfl⟩
  · simp [Outcome.changed] at h
  · simp [Outcome.changed] at h

theorem track_of_idle (h : s.gesture = .idle) (p : ChartPoint) : s.track p = ⟨s, .ignored, []⟩ := by
  unfold track
  rw [h]

theorem release_of_idle (h : s.gesture = .idle) : s.release = ⟨s, .ignored, []⟩ := by
  unfold release
  rw [h]

theorem release_of_unchanged (h : s.release.reply.changed = false) : s.gesture = .idle := by
  unfold release at h
  split at h
  · assumption
  · simp [Outcome.changed] at h
  · simp [Outcome.changed] at h

theorem pointerMove_of_unchanged {at_ : Pixel} (h : (s.pointerMove v at_).reply.changed = false) :
    s.pointerMove v at_ = ⟨s, .ignored, []⟩ := by
  rcases pointerMove_cases s v at_ with heq | ⟨hg, p, _, heq⟩
  · exact heq
  · rw [heq] at h
    exact absurd (track_of_unchanged h).1 hg

theorem pointerUp_of_unchanged {at_ : Pixel} (h : (s.pointerUp v at_).reply.changed = false) :
    s.pointerUp v at_ = ⟨s, .ignored, []⟩ := by
  rcases pointerUp_eq s v at_ with heq | ⟨p, _, heq⟩ <;> rw [heq] at h ⊢
  · exact release_of_idle (release_of_unchanged h)
  · have hidle : (s.track p).state.gesture = .idle := release_of_unchanged h
    have hg : s.gesture = .idle := by
      rcases track_gesture s p with hsame | hdraft
      · exact hsame ▸ hidle
      · simp [hidle, Gesture.draft?] at hdraft
    rw [track_of_idle hg, release_of_idle hg]
    rfl

theorem select_state_of_not_reply {id : String} (h : (s.select id).reply = false) :
    (s.select id).state = s := by
  unfold select at h ⊢
  split
  · rename_i hmem
    simp [hmem] at h
  · rfl

end Ignored

section Emptied

theorem tags_eq_nil_iff {s : Store} : s.tags = [] ↔ s.shapes = [] := List.map_eq_nil_iff

theorem cancel_shapes_eq_nil_iff (h : s.Sound) :
    s.cancel.state.store.shapes = [] ↔ s.store.shapes = [] := by
  rw [← tags_eq_nil_iff, ← tags_eq_nil_iff, cancel_tags h]

theorem undo_isSome_of_ne_nil (h : s.Sound) (hs : s.store.shapes ≠ []) : s.undo.reply.isSome := by
  have hc : s.cancel.state.store.shapes ≠ [] := mt (cancel_shapes_eq_nil_iff h).mp hs
  have hlast := List.getLast?_eq_some_getLast hc
  simp [Sketch.undo, Store.undo, hlast, Store.changed]

theorem pruned_of_not_selected (h : s.selected = none) : s.pruned = s := by
  unfold pruned
  rw [h]

theorem undo_of_nil (h : s.Sound) (hs : s.store.shapes = []) :
    s.undo = ⟨{ s with gesture := .idle }, none, []⟩ := by
  have hids : s.store.ids = [] := by simp [Store.ids, hs]
  have hsel : s.selected = none := by
    cases hsel : s.selected with
    | none => rfl
    | some id => simpa [hids] using h.selected id hsel
  have hcancel : s.cancel = ⟨{ s with gesture := .idle }, s.cancel.reply, []⟩ := by
    unfold cancel
    cases hg : s.gesture with
    | idle => simp only [← hg]
    | drawing anchor draft => rfl
    | dragging id anchor snapshot => simpa [hids] using h.held_id hg
  have hnone : s.store.undo = ⟨s.store, none, []⟩ := by simp [Store.undo, hs]
  rw [Sketch.undo, hcancel]
  simp only [withStore, hnone, List.append_nil]
  rw [pruned_of_not_selected (s := { s with gesture := .idle }) hsel]

end Emptied

end Sketch

end MarketSketch
