import MarketSketch.Proofs.Board.Run

/-! The trail of a gesture. Of all that happens between its press and its end only the points of the
chart that the pointer was at count, and of these only the last: it settles how the gesture looks
and which shapes are listed. -/

namespace MarketSketch

/-- A way for a gesture to go on: at each further point it forgets the one before. -/
structure Trail where
  gesture : Option ChartPoint → Gesture
  shapes : Option ChartPoint → List Shape
  busy : ∀ last?, gesture last? ≠ .idle
  track : ∀ (s : Sketch) (last? : Option ChartPoint), s.gesture = gesture last? →
    s.store.shapes = shapes last? → ∀ p : ChartPoint,
      (s.track p).state.gesture = gesture (some p) ∧
        (s.track p).state.store.shapes = shapes (some p)

structure Trail.At (c : Trail) (last? : Option ChartPoint) (s : Sketch) : Prop where
  gesture : s.gesture = c.gesture last?
  shapes : s.store.shapes = c.shapes last?

theorem Sketch.pointerMove_of_busy {s : Sketch} (h : s.gesture ≠ .idle) (v : ChartView)
    (at_ : Pixel) : s.pointerMove v at_ = match v.toPoint? at_ with
      | none => ⟨s, .ignored, []⟩
      | some p => s.track p := by
  have hbusy : s.isIdle = false := by
    unfold isIdle
    cases hg : s.gesture with
    | idle => exact absurd hg h
    | _ => rfl
  unfold pointerMove
  rw [hbusy]
  rfl

theorem Sketch.pointerDown_of_busy {s : Sketch} (h : s.gesture ≠ .idle) (m : Moment)
    (v : ChartView) (at_ : Pixel) : s.pointerDown m v at_ = ⟨s, .ignored, []⟩ := by
  rcases s.pointerDown_cases m v at_ with heq | ⟨hidle, _⟩
  · exact heq
  · exact absurd hidle h

namespace Board

/-- The events under which a gesture goes on. -/
def Event.sustains : Event → Bool
  | .up _ | .tool _ | .cancel | .undo | .clear | .teardown => false
  | _ => true

def Action.sustains : Action → Bool
  | .event _ e => e.sustains
  | _ => true

def Action.event? : Action → Option Event
  | .event _ e => some e
  | _ => none

def events (as : List Action) : List Event := as.filterMap Action.event?

def lastPoint? (v : ChartView) : List Event → Option ChartPoint
  | [] => none
  | .viewport w :: es => lastPoint? w es
  | .move p :: es | .up p :: es => (lastPoint? v es).or (v.toPoint? p)
  | _ :: es => lastPoint? v es

theorem lastPoint?_cons (v : ChartView) (e : Event) (es : List Event) :
    lastPoint? v (e :: es) = (lastPoint? (e.viewAfter v) es).or (lastPoint? v [e]) := by
  cases e <;> simp [lastPoint?, Event.viewAfter]

theorem run_view (b : Board) (es : List (Moment × Event)) :
    (b.run es).view = (es.map (·.2)).foldl (fun v e => e.viewAfter v) b.view := by
  induction es generalizing b with
  | nil => rfl
  | cons op es ih =>
    rw [run_cons, ih, step_view]
    rfl

theorem lastPoint?_concat (v : ChartView) (es : List Event) (e : Event) :
    lastPoint? v (es ++ [e]) =
      (lastPoint? (es.foldl (fun v e => e.viewAfter v) v) [e]).or (lastPoint? v es) := by
  induction es generalizing v with
  | nil => simp [lastPoint?]
  | cons d es ih =>
    rw [List.cons_append, lastPoint?_cons, ih, Option.or_assoc, ← lastPoint?_cons v d es]
    rfl

theorem run_eq_foldl_act (b : Board) (es : List (Moment × Event)) :
    b.run es = (es.map fun op => Action.event op.1 op.2).foldl act b := by
  rw [List.foldl_map]
  rfl

theorem events_map (es : List (Moment × Event)) :
    events (es.map fun op => Action.event op.1 op.2) = es.map (·.2) := by
  unfold events
  rw [List.filterMap_map]
  exact congrFun List.filterMap_eq_map es

theorem onSketch_of_busy {s : Sketch} (hbusy : s.gesture ≠ .idle) (m : Moment) (v : ChartView)
    {e : Event} (he : e.sustains = true) :
    (lastPoint? v [e] = none ∧ (e.onSketch m v s).state.gesture = s.gesture ∧
        (e.onSketch m v s).state.store = s.store) ∨
      ∃ p, lastPoint? v [e] = some p ∧ (e.onSketch m v s).state = (s.track p).state := by
  cases e with
  | up | tool | cancel | undo | clear | teardown => cases he
  | down p =>
    have hpress := s.pointerDown_of_busy hbusy m v p
    rw [Event.onSketch, hpress]
    exact .inl ⟨rfl, rfl, rfl⟩
  | move p =>
    have hmove := s.pointerMove_of_busy hbusy v p
    rw [Event.onSketch, hmove]
    cases hp : v.toPoint? p with
    | none => exact .inl ⟨hp, rfl, rfl⟩
    | some q => exact .inr ⟨q, hp, rfl⟩
  | select id => exact .inl ⟨rfl, s.select_kept id⟩
  | _ => exact .inl ⟨rfl, rfl, rfl⟩

theorem act_of_no_event {a : Action} (h : a.event? = none) (b : Board) :
    (b.act a).sketch = b.sketch ∧ (b.act a).view = b.view := by
  have hdrawn {σ : Type} (style : Style) (surface : Surface σ) (start : σ) :
      (b.render style surface start).1.view = b.view := by
    rcases b.render_cases style surface start with ⟨_, _, heq⟩ | ⟨_, _, heq⟩ <;> rw [heq]
    rfl
  have hsketch := b.act_sketch a
  cases a with
  | event m e => cases h
  | render style surface start => exact ⟨hsketch, hdrawn _ _ _⟩
  | renderIfNeeded style surface start =>
    refine ⟨hsketch, ?_⟩
    show (b.renderIfNeeded style surface start).1.view = b.view
    cases hneeded : b.needsRedraw with
    | true => rw [renderIfNeeded_of_needed hneeded, hdrawn]
    | false => rw [renderIfNeeded_of_upToDate hneeded]

end Board

namespace Trail.At

open Board

variable {c : Trail} {last? : Option ChartPoint} {s : Sketch} {b : Board}

theorem of_same (h : c.At last? s) {t : Sketch} (hg : t.gesture = s.gesture)
    (hs : t.store = s.store) : c.At last? t :=
  ⟨hg.trans h.gesture, (congrArg Store.shapes hs).trans h.shapes⟩

theorem not_idle (h : c.At last? s) : s.gesture ≠ .idle := h.gesture ▸ c.busy last?

theorem track (h : c.At last? s) (p : ChartPoint) : c.At (some p) (s.track p).state := by
  obtain ⟨hg, hs⟩ := c.track s last? h.gesture h.shapes p
  exact ⟨hg, hs⟩

theorem onSketch (h : c.At last? s) (m : Moment) (v : ChartView) {e : Event}
    (he : e.sustains = true) : c.At ((lastPoint? v [e]).or last?) (e.onSketch m v s).state := by
  rcases onSketch_of_busy h.not_idle m v he with ⟨hnone, hg, hs⟩ | ⟨p, hp, heq⟩
  · rw [hnone]
    exact h.of_same hg hs
  · rw [hp, heq]
    exact h.track p

/-- The invariant of a whole gesture, with the drawing of pictures in between. -/
theorem foldl_act (h : c.At last? b.sketch) {as : List Action}
    (has : ∀ a ∈ as, a.sustains = true) :
    c.At ((lastPoint? b.view (events as)).or last?) (as.foldl act b).sketch := by
  induction as generalizing b last? with
  | nil => exact h
  | cons a as ih =>
    have hrest : ∀ a' ∈ as, a'.sustains = true := fun a' ha' => has a' (List.mem_cons_of_mem a ha')
    cases hevent : a.event? with
    | none =>
      obtain ⟨hsketch, hview⟩ := act_of_no_event hevent b
      have hafter := ih (b := b.act a) (hsketch ▸ h) hrest
      have hevents : events (a :: as) = events as := List.filterMap_cons_none hevent
      rw [hview] at hafter
      rwa [hevents]
    | some e =>
      cases a with
      | event m e' =>
        obtain rfl : e' = e := Option.some.inj hevent
        have hstep := h.onSketch m b.view (has _ List.mem_cons_self)
        rw [← step_sketch] at hstep
        have hafter := ih (b := (b.step m e').state) hstep hrest
        rw [step_view, ← Option.or_assoc, ← lastPoint?_cons] at hafter
        exact hafter
      | _ => cases hevent

end Trail.At

end MarketSketch
