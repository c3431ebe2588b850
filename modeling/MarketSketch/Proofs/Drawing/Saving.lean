import MarketSketch.Proofs.Drawing.Sketch

/-! Writing through. Apart from undo and clear, an operation of the sketch only adds to the tags of
the list, and asks for one write of the list that it leaves, or for none and leaves the list. -/

namespace MarketSketch

namespace Effect

def writes (es : List Effect) : List Effect := es.filter Effect.isWrite

@[simp] theorem writes_notes (ns : List Log.Note) : writes (ns.map .note) = [] := by
  rw [writes, List.filter_eq_nil_iff]
  intro e he
  obtain ⟨n, _, rfl⟩ := List.mem_map.mp he
  simp [Effect.isWrite]

@[simp] theorem writes_saving (s : Store) : writes s.saving = s.saving := by
  unfold Store.saving
  cases s.key? <;> rfl

end Effect

namespace Sketch

variable {s : Sketch} {m : Moment} {ρ : Type}

def Begun (s : Sketch) (m : Moment) (tag : Tag) : Prop :=
  tag.id = m.freshId ∧ tag.createdAt = m.now ∨ ∃ d, s.gesture.draft? = some d ∧ d.tag = tag

/-- What a step does to the list and to storage when it removes nothing. -/
structure Grows (s : Sketch) (m : Moment) (t : Turn Sketch ρ) : Prop where
  key : t.state.store.key? = s.store.key?
  tags : t.state.store.tags = s.store.tags ∨
    ∃ tag, t.state.store.tags = s.store.tags ++ [tag] ∧ s.Begun m tag
  draft : ∀ d, t.state.gesture.draft? = some d → s.Begun m d.tag
  writes : (t.state.store = s.store ∧ Effect.writes t.effects = []) ∨
    Effect.writes t.effects = t.state.store.saving

theorem Begun.of_draft {d : Shape} (h : s.gesture.draft? = some d) : s.Begun m d.tag :=
  .inr ⟨d, h, rfl⟩

theorem Grows.of_same {t : Turn Sketch ρ} (hs : t.state.store = s.store)
    (hw : Effect.writes t.effects = [])
    (hd : ∀ d, t.state.gesture.draft? = some d → s.Begun m d.tag) : s.Grows m t :=
  ⟨by rw [hs], .inl (by rw [hs]), hd, .inl ⟨hs, hw⟩⟩

theorem Grows.of_store {σ : Type} {t : Turn Sketch ρ} {w : Turn Store σ}
    (hwrites : s.store.Writes w) (hstore : t.state.store = w.state)
    (heffects : Effect.writes t.effects = Effect.writes w.effects)
    (htags : w.state.tags = s.store.tags ∨
      ∃ tag, w.state.tags = s.store.tags ++ [tag] ∧ s.Begun m tag)
    (hidle : t.state.gesture.draft? = none) : s.Grows m t := by
  obtain ⟨hkey, hquiet | hsaving⟩ := hwrites
  · refine ⟨hstore ▸ hkey, hstore ▸ htags, by simp [hidle], .inl ⟨?_, ?_⟩⟩
    · rw [hstore, hquiet]
    · rw [heffects, hquiet]
      rfl
  · refine ⟨hstore ▸ hkey, hstore ▸ htags, by simp [hidle], .inr ?_⟩
    rw [heffects, hsaving, Effect.writes_saving, hstore]

theorem grows_add (shape : Shape) (hbegun : s.Begun m shape.tag) {t : Turn Sketch ρ}
    (hstore : t.state.store = (s.store.add shape).state)
    (heffects : Effect.writes t.effects = Effect.writes (s.store.add shape).effects)
    (hidle : t.state.gesture.draft? = none) : s.Grows m t := by
  refine .of_store (Store.writes_add s.store shape) hstore heffects ?_ hidle
  rcases Store.tags_add s.store shape with h | ⟨_, h⟩
  · exact .inl h
  · exact .inr ⟨shape.tag, h, hbegun⟩

theorem grows_replace (hd : s.store.ids.Nodup) {shape : Shape} (hmem : shape.tag ∈ s.store.tags)
    {t : Turn Sketch ρ} (hstore : t.state.store = (s.store.replace shape).state)
    (heffects : Effect.writes t.effects = Effect.writes (s.store.replace shape).effects)
    (hidle : t.state.gesture.draft? = none) : s.Grows m t :=
  .of_store (Store.writes_replace s.store shape) hstore heffects
    (.inl (Store.tags_replace hd hmem)) hidle

theorem Sound.grows_cancel (h : s.Sound) (m : Moment) : s.Grows m s.cancel := by
  unfold Sketch.cancel
  split
  · rename_i hg
    exact .of_same rfl rfl (by simp [hg, Gesture.draft?])
  · exact .of_same rfl rfl (by simp [Gesture.draft?])
  · rename_i id anchor snapshot hg
    exact grows_replace h.distinct (h.held id anchor snapshot hg).2 rfl rfl rfl

theorem Sound.grows_setTool (h : s.Sound) (m : Moment) (tool : Tool) :
    s.Grows m (s.setTool tool) := by
  obtain ⟨hkey, htags, hdraft, hwrites⟩ := h.grows_cancel m
  exact ⟨hkey, htags, hdraft, hwrites⟩

theorem grows_pointerDown (s : Sketch) (m : Moment) (v : ChartView) (at_ : Pixel) :
    s.Grows m (s.pointerDown m v at_) := by
  rcases s.pointerDown_cases m v at_ with
    heq | ⟨hidle, p, _, heq | ⟨kind, _, _, heq⟩ | ⟨_, heq⟩⟩ <;> rw [heq]
  · exact .of_same rfl rfl fun d hd => .of_draft hd
  · have hdraft : s.gesture.draft? = none := by rw [hidle]; rfl
    refine grows_add (newShape m (.level p.price)) (.inl ⟨rfl, rfl⟩) rfl rfl ?_
    exact hdraft
  · refine .of_same rfl rfl fun d hd => .inl ?_
    obtain rfl : newShape m (Geometry.anchored kind p) = d := Option.some.inj hd
    exact ⟨rfl, rfl⟩
  · rcases s.grab_cases v at_ p with ⟨shape, _, _, hgrab⟩ | hgrab <;> rw [hgrab]
    · exact .of_same rfl rfl (by simp [Gesture.draft?])
    · exact .of_same rfl rfl fun d hd => .of_draft hd

theorem Sound.grows_track (h : s.Sound) (m : Moment) (p : ChartPoint) : s.Grows m (s.track p) := by
  unfold Sketch.track
  split
  · exact .of_same rfl rfl fun d hd => .of_draft hd
  · rename_i anchor draft hg
    refine .of_same rfl rfl fun d hd => .inr ⟨draft, by simp [hg, Gesture.draft?], ?_⟩
    obtain rfl : draft.withEnd p = d := Option.some.inj hd
    exact (Shape.tag_withEnd draft p).symm
  · rename_i id anchor snapshot hg
    refine grows_replace h.distinct ?_ rfl rfl (by simp [hg, Gesture.draft?])
    rw [Shape.tag_translated]
    exact (h.held id anchor snapshot hg).2

theorem Sound.grows_pointerMove (h : s.Sound) (m : Moment) (v : ChartView) (at_ : Pixel) :
    s.Grows m (s.pointerMove v at_) := by
  rcases s.pointerMove_cases v at_ with heq | ⟨_, p, _, heq⟩ <;> rw [heq]
  · exact .of_same rfl rfl fun d hd => .of_draft hd
  · exact h.grows_track m p

theorem grows_release (s : Sketch) (m : Moment) : s.Grows m s.release := by
  unfold release
  split
  · exact .of_same rfl rfl fun d hd => .of_draft hd
  · rename_i anchor draft hg
    exact grows_add draft (.of_draft (by simp [hg, Gesture.draft?])) rfl rfl rfl
  · exact .of_same rfl rfl (by simp [Gesture.draft?])

theorem Sound.grows_pointerUp (h : s.Sound) (m : Moment) (v : ChartView) (at_ : Pixel) :
    s.Grows m (s.pointerUp v at_) := by
  rcases s.pointerUp_eq v at_ with heq | ⟨p, _, heq⟩ <;> rw [heq]
  · exact grows_release s m
  · have htrack := h.grows_track m p
    -- tracking writes a drag and releasing a draft, so no release asks for two writes
    cases hg : s.gesture with
    | idle =>
      rw [track_of_idle hg]
      exact grows_release s m
    | drawing anchor draft =>
      have hbegun : s.Begun m (draft.withEnd p).tag :=
        .inr ⟨draft, by simp [hg, Gesture.draft?], (Shape.tag_withEnd draft p).symm⟩
      have htracked : s.track p =
          ⟨{ s with gesture := .drawing anchor (draft.withEnd p) }, .draftUpdated, []⟩ := by
        unfold Sketch.track
        rw [hg]
      rw [htracked]
      exact grows_add (draft.withEnd p) hbegun rfl rfl rfl
    | dragging id anchor snapshot =>
      have hgesture : (s.track p).state.gesture = .dragging id anchor snapshot := by
        unfold Sketch.track
        rw [hg]
      have hreleased : (s.track p).state.release =
          ⟨{ (s.track p).state with gesture := .idle }, .dragEnded id, []⟩ := by
        unfold Sketch.release
        rw [hgesture]
      have hidle (d : Shape) (hd : (none : Option Shape) = some d) : s.Begun m d.tag := by
        simp at hd
      rw [hreleased]
      refine ⟨htrack.key, htrack.tags, hidle, ?_⟩
      simpa [Turn.after] using htrack.writes

theorem grows_select (s : Sketch) (m : Moment) (id : String) : s.Grows m (s.select id) := by
  obtain ⟨hg, hs⟩ := s.select_kept id
  refine .of_same hs ?_ fun d hd => .of_draft (hg ▸ hd)
  unfold select
  split <;> rfl

theorem Grows.forall_tags {P : Tag → Prop} {t : Turn Sketch ρ} (h : s.Grows m t)
    (hnew : ∀ tag : Tag, tag.id = m.freshId → tag.createdAt = m.now → P tag)
    (htags : ∀ tag ∈ s.store.tags, P tag) (hdraft : ∀ d, s.gesture.draft? = some d → P d.tag) :
    (∀ tag ∈ t.state.store.tags, P tag) ∧ ∀ d, t.state.gesture.draft? = some d → P d.tag := by
  have begun {tag : Tag} (hb : s.Begun m tag) : P tag := by
    rcases hb with ⟨hid, hat⟩ | ⟨d, hd, rfl⟩
    · exact hnew tag hid hat
    · exact hdraft d hd
  refine ⟨?_, fun d hd => begun (h.draft d hd)⟩
  rcases h.tags with heq | ⟨tag, heq, hb⟩
  · rwa [heq]
  · rw [heq]
    intro u hu
    rcases List.mem_append.mp hu with hold | hone
    · exact htags u hold
    · exact List.mem_singleton.mp hone ▸ begun hb

theorem Grows.prefix_tags {t : Turn Sketch ρ} (h : s.Grows m t) :
    s.store.tags <+: t.state.store.tags := by
  rcases h.tags with heq | ⟨tag, heq, _⟩
  · exact heq ▸ List.prefix_rfl
  · exact heq ▸ List.prefix_append _ _

end Sketch

end MarketSketch
