import MarketSketch.Proofs.Board.Trail

/-! Dragging a shape. However the pointer gets there, and whatever happens to the feed or the
viewport on the way, the shape ends as its snapshot moved by the way from the press to the last
point of the chart that the pointer was at. -/

namespace MarketSketch.Board

def dragged (anchor : ChartPoint) (snapshot : Shape) : Option ChartPoint → Shape
  | none => snapshot
  | some p => snapshot.translated (p.time - anchor.time) (p.price - anchor.price)

theorem tag_dragged (anchor : ChartPoint) (snapshot : Shape) (last? : Option ChartPoint) :
    (dragged anchor snapshot last?).tag = snapshot.tag := by
  cases last? with
  | none => rfl
  | some p => exact Shape.tag_translated snapshot _ _

theorem id_dragged (anchor : ChartPoint) (snapshot : Shape) (last? : Option ChartPoint) :
    (dragged anchor snapshot last?).id = snapshot.id :=
  congrArg Tag.id (tag_dragged anchor snapshot last?)

def withShape (shape : Shape) (base : List Shape) : List Shape :=
  base.map fun t => if t.id = shape.id then shape else t

theorem map_id_withShape (shape : Shape) (base : List Shape) :
    (withShape shape base).map (·.id) = base.map (·.id) := by
  rw [withShape, List.map_map]
  apply List.map_congr_left
  intro t _
  simp only [Function.comp_apply]
  split
  · rename_i h
    exact h.symm
  · rfl

theorem withShape_withShape {old new : Shape} (h : old.id = new.id) (base : List Shape) :
    withShape new (withShape old base) = withShape new base := by
  rw [withShape, withShape, List.map_map]
  apply List.map_congr_left
  intro t _
  simp only [Function.comp_apply]
  by_cases ht : t.id = old.id
  · simp [ht, h]
  · simp [ht]

theorem withShape_self {base : List Shape} (hd : (base.map (·.id)).Nodup) {shape : Shape}
    (hmem : shape ∈ base) : withShape shape base = base := by
  conv_rhs => rw [← List.map_id base]
  apply List.map_congr_left
  intro t ht
  split
  · rename_i hid
    exact (List.inj_on_of_nodup_map hd ht hmem hid).symm
  · rfl

theorem find?_withShape {base : List Shape} {shape : Shape} (hmem : shape.id ∈ base.map (·.id)) :
    (withShape shape base).find? (·.id = shape.id) = some shape := by
  induction base with
  | nil => simp at hmem
  | cons t rest ih =>
    rw [withShape, List.map_cons]
    by_cases ht : t.id = shape.id
    · simp [ht]
    · have hrest : shape.id ∈ rest.map (·.id) := by
        rcases List.mem_cons.mp hmem with heq | hin
        · exact absurd heq.symm ht
        · exact hin
      rw [if_neg ht, List.find?_cons_of_neg (by simpa using ht)]
      exact ih hrest

/-- A drag under way over the list `base`: the gesture holds anchor and snapshot, and the list is as
it was but for the dragged shape, which stands where the last point puts it. -/
structure Dragging (base : List Shape) (anchor : ChartPoint) (snapshot : Shape)
    (last? : Option ChartPoint) (b : Board) : Prop where
  gesture : b.sketch.gesture = .dragging snapshot.id anchor snapshot
  shapes : b.shapes = withShape (dragged anchor snapshot last?) base

section Drag

variable {b : Board} {base : List Shape} {anchor : ChartPoint} {snapshot : Shape}
  {last? : Option ChartPoint}

def dragTrail (hd : (base.map (·.id)).Nodup) (hmem : snapshot.id ∈ base.map (·.id))
    (anchor : ChartPoint) : Trail where
  gesture _ := .dragging snapshot.id anchor snapshot
  shapes last? := withShape (dragged anchor snapshot last?) base
  busy _ := nofun
  track := by
    intro s last? hg hs p
    unfold Sketch.track
    rw [hg]
    refine ⟨rfl, ?_⟩
    have hids : s.store.ids = base.map (·.id) := by
      rw [Store.ids, hs, map_id_withShape]
    have hmoved : (dragged anchor snapshot (some p)).id ∈ s.store.ids := by
      rw [id_dragged, hids]
      exact hmem
    refine (@Store.shapes_replace _ (hids ▸ hd) _ hmoved).trans ?_
    show withShape _ s.store.shapes = _
    rw [hs, withShape_withShape]
    rw [id_dragged, id_dragged]

theorem Dragging.trail (h : Dragging base anchor snapshot last? b)
    (hd : (base.map (·.id)).Nodup) (hmem : snapshot.id ∈ base.map (·.id)) :
    (dragTrail hd hmem anchor).At last? b.sketch := ⟨h.gesture, h.shapes⟩

/-- The invariant of a whole drag: of all that happens between press and release only the last point
leaves a trace. -/
theorem Dragging.run (h : Dragging base anchor snapshot last? b) (hd : (base.map (·.id)).Nodup)
    (hmem : snapshot.id ∈ base.map (·.id)) {es : List (Moment × Event)}
    (hes : ∀ op ∈ es, op.2.sustains = true) :
    Dragging base anchor snapshot ((lastPoint? b.view (es.map (·.2))).or last?) (b.run es) := by
  have hall : ∀ a ∈ es.map fun op => Action.event op.1 op.2, a.sustains = true := by
    intro a ha
    obtain ⟨op, hop, rfl⟩ := List.mem_map.mp ha
    exact hes op hop
  have hrun := (h.trail hd hmem).foldl_act hall
  rw [events_map, ← run_eq_foldl_act] at hrun
  exact ⟨hrun.gesture, hrun.shapes⟩

theorem dragging_of_dragStarted (h : b.sketch.Sound) {m : Moment} {at_ : Pixel} {id : String}
    (hdown : (b.pointerDown m at_).reply = .dragStarted id) :
    ∃ anchor, b.view.toPoint? at_ = some anchor ∧ ∃ snapshot ∈ b.shapes, snapshot.id = id ∧
      Dragging b.shapes anchor snapshot none (b.pointerDown m at_).state := by
  have hdown' : (b.sketch.pointerDown m b.view at_).reply = .dragStarted id := hdown
  rcases b.sketch.pointerDown_cases m b.view at_ with
    heq | ⟨_, p, hp, heq | ⟨kind, _, _, heq⟩ | ⟨_, heq⟩⟩
  · simp [heq] at hdown'
  · simp [heq, Sketch.placeLevel] at hdown'
  · simp [heq, Sketch.startDraft] at hdown'
  · rcases b.sketch.grab_cases b.view at_ p with ⟨shape, hmem, _, hgrab⟩ | hgrab
    · rw [heq, hgrab] at hdown'
      have hstate : (b.pointerDown m at_).state.sketch = (b.sketch.grab b.view at_ p).state :=
        congrArg Turn.state heq
      rw [hgrab] at hstate
      refine ⟨p, hp, shape, hmem, by simpa using hdown', by rw [hstate], ?_⟩
      show (b.pointerDown m at_).state.sketch.store.shapes = _
      rw [hstate]
      exact (withShape_self h.distinct hmem).symm
    · simp [heq, hgrab] at hdown'

theorem Dragging.pointerUp (h : Dragging base anchor snapshot last? b)
    (hd : (base.map (·.id)).Nodup) (hmem : snapshot.id ∈ base.map (·.id)) (p : Pixel) :
    (b.pointerUp p).reply = .dragEnded snapshot.id ∧ (b.pointerUp p).state.sketch.gesture = .idle ∧
      (b.pointerUp p).state.shapes =
        withShape (dragged anchor snapshot ((lastPoint? b.view [.up p]).or last?)) base := by
  -- `release` only looks at the gesture, which tracking leaves as it is
  have ended {s : Sketch} (hg : s.gesture = .dragging snapshot.id anchor snapshot) :
      s.release = ⟨{ s with gesture := .idle }, .dragEnded snapshot.id, []⟩ := by
    unfold Sketch.release
    rw [hg]
  show (b.sketch.pointerUp b.view p).reply = _ ∧
    (b.sketch.pointerUp b.view p).state.gesture = _ ∧
    (b.sketch.pointerUp b.view p).state.store.shapes = _
  unfold Sketch.pointerUp
  cases hq : b.view.toPoint? p with
  | none =>
    have hlast : (lastPoint? b.view [.up p]).or last? = last? := by simp [lastPoint?, hq]
    rw [ended h.gesture, hlast]
    exact ⟨rfl, rfl, h.shapes⟩
  | some q =>
    have hlast : (lastPoint? b.view [.up p]).or last? = some q := by simp [lastPoint?, hq]
    obtain ⟨hg, hs⟩ := (h.trail hd hmem).track q
    rw [hlast]
    simp only [ended hg]
    exact ⟨rfl, rfl, hs⟩

end Drag

/-- A drag does not drift. A press that takes hold of a shape ends, after any events that a gesture
survives and a release, with the shape moved by the way from the press to the last point that the
pointer had, and with nothing else changed. -/
theorem drag_ends_at_last_point {b : Board} (hb : b.Arises) {m : Moment} {at_ : Pixel}
    {id : String} (hdown : (b.pointerDown m at_).reply = .dragStarted id) :
    ∃ anchor, b.view.toPoint? at_ = some anchor ∧ ∃ snapshot ∈ b.shapes, snapshot.id = id ∧
      (b.pointerDown m at_).state.sketch.gesture = .dragging id anchor snapshot ∧
      ∀ (es : List (Moment × Event)) (p : Pixel), (∀ op ∈ es, op.2.sustains = true) →
        let up := ((b.pointerDown m at_).state.run es).pointerUp p
        let moved := dragged anchor snapshot (lastPoint? b.view (es.map (·.2) ++ [.up p]))
        up.reply = .dragEnded id ∧ up.state.sketch.gesture = .idle ∧
          up.state.sketch.store.get? id = some moved ∧ moved.tag = snapshot.tag ∧
          up.state.shapes = b.shapes.map fun t => if t.id = id then moved else t := by
  have hs := hb.sound
  obtain ⟨anchor, hanchor, snapshot, hmem, rfl, hstart⟩ := dragging_of_dragStarted hs hdown
  refine ⟨anchor, hanchor, snapshot, hmem, rfl, hstart.gesture, ?_⟩
  intro es p hes up moved
  have hid : snapshot.id ∈ b.shapes.map (·.id) := List.mem_map_of_mem hmem
  have hrun := hstart.run hs.distinct hid hes
  have hview : (b.pointerDown m at_).state.view = b.view := rfl
  have hend := hrun.pointerUp hs.distinct hid p
  rw [run_view, hview, Option.or_none, ← lastPoint?_concat] at hend
  obtain ⟨hreply, hgesture, hshapes⟩ := hend
  have hmoved : moved.id = snapshot.id := id_dragged anchor snapshot _
  refine ⟨hreply, hgesture, ?_, tag_dragged anchor snapshot _, ?_⟩
  · show up.state.shapes.find? (·.id = snapshot.id) = some moved
    rw [hshapes, ← hmoved]
    exact find?_withShape (hmoved ▸ hid)
  · rw [hshapes, ← hmoved]
    rfl

theorem drag_ends_at_last_point_of_zone :
    let d := Double.ofNat
    let zone : Shape := ⟨"z", 1, some "range", .zone ⟨d 20, d 30⟩ ⟨d 40, d 70⟩⟩
    let view (price : Nat) : ChartView := ⟨d 0, d 100, d price, d (price + 100), d 100, d 100⟩
    let m : Moment := ⟨7, "unused"⟩
    let level : Shape := ⟨"l", 0, none, .level (d 90)⟩
    let store := (({} : Store).add level).state.add zone |>.state
    let b := (ofStore store (d 6) 9).setViewport (view 0)
    let es : List (Moment × Event) := [(m, .move ⟨d 50, d 60⟩), (m, .down ⟨d 1, d 1⟩),
      (m, .viewport (view 200)), (m, .move ⟨d 35, d 20⟩), (m, .select "l"), (m, .move ⟨d 150, d 0⟩)]
    (b.pointerDown m ⟨d 30, d 50⟩).reply = .dragStarted "z" ∧
      (∀ op ∈ es, op.2.sustains = true) ∧
      (((b.pointerDown m ⟨d 30, d 50⟩).state.run es).pointerUp ⟨d 0, d 500⟩).state.shapes =
        [level, ⟨"z", 1, some "range", .zone ⟨d 25, d 260⟩ ⟨d 45, d 300⟩⟩] := by
  intro d zone view m level store b es
  have hstore : store.Arises := .add zone (.add level .inMemory)
  have hb : b.Arises := ⟨store, d 6, 9, [.event m (.viewport (view 0))], hstore, rfl⟩
  have hdown : (b.pointerDown m ⟨d 30, d 50⟩).reply = .dragStarted "z" := by decide +kernel
  have hes : ∀ op ∈ es, op.2.sustains = true := by decide
  refine ⟨hdown, hes, ?_⟩
  obtain ⟨anchor, hanchor, snapshot, hmem, hid, -, hends⟩ := drag_ends_at_last_point hb hdown
  have hat : b.view.toPoint? ⟨d 30, d 50⟩ = some ⟨d 30, d 50⟩ := by decide +kernel
  have hshapes : b.shapes = [level, zone] := by decide +kernel
  have hsnapshot : snapshot = zone := by
    rw [hshapes] at hmem
    rcases List.mem_pair.mp hmem with rfl | rfl
    · exact absurd hid (by decide)
    · rfl
  obtain rfl : anchor = ⟨d 30, d 50⟩ := Option.some.inj (hanchor.symm.trans hat)
  have hend := (hends es ⟨d 0, d 500⟩ hes).2.2.2.2
  rw [hend, hshapes, hsnapshot]
  decide +kernel

end MarketSketch.Board
