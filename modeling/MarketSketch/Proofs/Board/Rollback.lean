import MarketSketch.Proofs.Board.Drag

/-! Giving up a gesture. What cancelling would leave of the list of shapes is settled when the
gesture begins, and nothing that goes on during the gesture changes it. Every way to give up a
gesture cancels first and does its own work on that list. -/

namespace MarketSketch

/-- A press that is answered like this starts a draft or takes hold of a shape. -/
def Outcome.begins : Outcome → Bool
  | draftStarted | dragStarted _ => true
  | _ => false

namespace Sketch

variable {s : Sketch} {shapes : List Shape}

def restored (s : Sketch) : List Shape :=
  match s.gesture with
  | .dragging _ _ snapshot => Store.overwritten snapshot s.store.shapes
  | _ => s.store.shapes

theorem cancel_shapes (s : Sketch) : s.cancel.state.store.shapes = s.restored := by
  unfold cancel restored
  cases hg : s.gesture with
  | idle => rfl
  | drawing anchor draft => rfl
  | dragging id anchor snapshot => exact Store.replace_shapes s.store snapshot

theorem restored_of_same {t : Sketch} (hg : t.gesture = s.gesture) (hs : t.store = s.store) :
    t.restored = s.restored := by
  unfold restored
  rw [hg, hs]

theorem track_restored (s : Sketch) (p : ChartPoint) : (s.track p).state.restored = s.restored := by
  unfold track
  cases hg : s.gesture with
  | idle => rfl
  | drawing anchor draft =>
    unfold restored
    rw [hg]
  | dragging id anchor snapshot =>
    let moved := snapshot.translated (p.time - anchor.time) (p.price - anchor.price)
    have hid : moved.id = snapshot.id := rfl
    simp only [restored, hg]
    rw [Store.replace_shapes]
    exact Store.overwritten_overwritten hid s.store.shapes

theorem track_gesture_ne_idle (hs : s.gesture ≠ .idle) (p : ChartPoint) :
    (s.track p).state.gesture ≠ .idle := by
  rcases track_gesture s p with hsame | hdraft
  · rwa [hsame]
  · intro hidle
    simp [hidle, Gesture.draft?] at hdraft

/-- A gesture under way that began over these shapes. -/
structure Underway (shapes : List Shape) (s : Sketch) : Prop where
  busy : s.gesture ≠ .idle
  restored : s.restored = shapes

theorem Underway.of_same (h : Underway shapes s) {t : Sketch} (hg : t.gesture = s.gesture)
    (hs : t.store = s.store) : Underway shapes t :=
  ⟨hg ▸ h.busy, (restored_of_same hg hs).trans h.restored⟩

theorem Underway.track (h : Underway shapes s) (p : ChartPoint) :
    Underway shapes (s.track p).state :=
  ⟨track_gesture_ne_idle h.busy p, (track_restored s p).trans h.restored⟩

theorem underway_of_begins (hd : s.store.ids.Nodup) {m : Moment} {v : ChartView} {at_ : Pixel}
    (h : (s.pointerDown m v at_).reply.begins = true) :
    Underway s.store.shapes (s.pointerDown m v at_).state := by
  rcases s.pointerDown_cases m v at_ with heq | ⟨_, p, _, heq | ⟨kind, _, _, heq⟩ | ⟨_, heq⟩⟩ <;>
    rw [heq] at h ⊢
  · simp [Outcome.begins] at h
  · simp [placeLevel, Outcome.begins] at h
  · exact ⟨by simp [startDraft], rfl⟩
  · rcases s.grab_cases v at_ p with ⟨shape, hmem, _, hgrab⟩ | hgrab <;> rw [hgrab] at h ⊢
    · refine ⟨by simp, ?_⟩
      exact (Store.overwritten_eq_map shape hd).trans (Board.withShape_self hd hmem)
    · simp [Outcome.begins] at h

end Sketch

namespace Board

open Sketch

variable {b : Board} {shapes : List Shape}

theorem underway_onSketch {s : Sketch} (h : Underway shapes s) (m : Moment) (v : ChartView)
    {e : Event} (he : e.sustains = true) : Underway shapes (e.onSketch m v s).state := by
  rcases onSketch_of_busy h.busy m v he with ⟨-, hg, hs⟩ | ⟨p, -, heq⟩
  · exact h.of_same hg hs
  · rw [heq]
    exact h.track p

theorem underway_act (h : Underway shapes b.sketch) {a : Action} (ha : a.sustains = true) :
    Underway shapes (b.act a).sketch := by
  rw [act_sketch]
  cases a with
  | event m e => exact underway_onSketch h m b.view ha
  | _ => exact h

theorem underway_foldl_act (h : Underway shapes b.sketch) {as : List Action}
    (has : ∀ a ∈ as, a.sustains = true) : Underway shapes (as.foldl act b).sketch := by
  induction as generalizing b with
  | nil => exact h
  | cons a as ih =>
    exact ih (underway_act h (has a List.mem_cons_self)) fun a' ha' =>
      has a' (List.mem_cons_of_mem a ha')

structure Rests (b : Board) (shapes : List Shape) : Prop where
  idle : b.sketch.gesture = .idle
  shapes : b.shapes = shapes

section GivenUp

theorem cancelled_rests (h : Underway shapes b.sketch) {c : Board}
    (hc : c.sketch.store = b.sketch.cancel.state.store)
    (hg : c.sketch.gesture = b.sketch.cancel.state.gesture) : c.Rests shapes := by
  refine ⟨hg.trans (cancel_gesture b.sketch), ?_⟩
  rw [Board.shapes, hc, cancel_shapes, h.restored]

theorem cancelGesture_reply (h : Underway shapes b.sketch) : b.cancelGesture.reply = true := by
  show b.sketch.cancel.reply = true
  unfold Sketch.cancel
  cases hg : b.sketch.gesture with
  | idle => exact absurd hg h.busy
  | drawing anchor draft => rfl
  | dragging id anchor snapshot => rfl

theorem undo_reply (h : Underway shapes b.sketch) : b.undo.reply = shapes.getLast? := by
  show b.sketch.cancel.state.store.undo.reply = shapes.getLast?
  rw [Store.undo_reply, cancel_shapes, h.restored]

theorem undo_rests (h : Underway shapes b.sketch) : b.undo.state.Rests shapes.dropLast := by
  refine ⟨undo_gesture b.sketch, ?_⟩
  show (Sketch.pruned _).store.shapes = shapes.dropLast
  rw [pruned_store]
  show b.sketch.cancel.state.store.undo.state.shapes = shapes.dropLast
  rw [Store.undo_shapes, cancel_shapes, h.restored]

theorem clearAll_rests (b : Board) : b.clearAll.state.Rests [] := by
  refine ⟨clear_gesture b.sketch, ?_⟩
  show (Sketch.pruned _).store.shapes = []
  rw [pruned_store]
  rfl

end GivenUp

/-- A gesture that is given up leaves no trace. After a press that starts a draft or takes hold of a
shape and anything that does not end the gesture, cancelling, another tool and a teardown leave the
shapes as they were before the press; undoing takes the last of those; clearing takes them all. -/
theorem abandoned_gesture_rolls_back {b : Board} (hb : b.Arises) {m : Moment} {at_ : Pixel}
    (hdown : (b.pointerDown m at_).reply.begins = true) {as : List Action}
    (has : ∀ a ∈ as, a.sustains = true) :
    let during := as.foldl act (b.pointerDown m at_).state
    during.cancelGesture.reply = true ∧
      during.cancelGesture.state.Rests b.shapes ∧
      (∀ t, (during.setTool t).state.Rests b.shapes) ∧
      during.teardown.state.Rests b.shapes ∧
      during.undo.reply = b.shapes.getLast? ∧
      during.undo.state.Rests b.shapes.dropLast ∧
      during.clearAll.state.Rests [] := by
  intro during
  have hstart : Underway b.shapes (b.pointerDown m at_).state.sketch :=
    underway_of_begins hb.sound.distinct hdown
  have hduring : Underway b.shapes during.sketch := underway_foldl_act hstart has
  exact ⟨cancelGesture_reply hduring, cancelled_rests hduring rfl rfl,
    fun t => cancelled_rests hduring rfl rfl, cancelled_rests hduring rfl rfl,
    undo_reply hduring, undo_rests hduring, clearAll_rests during⟩

theorem abandoned_gesture_rolls_back_of_zone :
    let d := Double.ofNat
    let zone : Shape := ⟨"z", 1, some "range", .zone ⟨d 20, d 30⟩ ⟨d 40, d 70⟩⟩
    let level : Shape := ⟨"l", 2, none, .level (d 90)⟩
    let view (price : Nat) : ChartView := ⟨d 0, d 100, d price, d (price + 100), d 100, d 100⟩
    let store := (({} : Store).add zone).state.add level |>.state
    let m : Moment := ⟨7, "unused"⟩
    let b := (ofStore store (d 6) 9).setViewport (view 0)
    let as : List Action := [.event m (.move ⟨d 50, d 60⟩), .event m (.down ⟨d 1, d 1⟩),
      .event m (.switch ⟨"EURUSD"⟩), .event m (.viewport (view 200)), .event m (.select "l"),
      .event m (.move ⟨d 35, d 20⟩)]
    let during := as.foldl act (b.pointerDown m ⟨d 30, d 50⟩).state
    (b.pointerDown m ⟨d 30, d 50⟩).reply.begins = true ∧ (∀ a ∈ as, a.sustains = true) ∧
      during.shapes = [⟨"z", 1, some "range", .zone ⟨d 25, d 260⟩ ⟨d 45, d 300⟩⟩, level] ∧
      during.cancelGesture.state.shapes = [zone, level] ∧
      during.undo.reply = some level ∧ during.undo.state.shapes = [zone] := by
  intro d zone level view store m b as during
  have hstore : store.Arises := .add level (.add zone .inMemory)
  have hb : b.Arises := ⟨store, d 6, 9, [.event m (.viewport (view 0))], hstore, rfl⟩
  have hdown : (b.pointerDown m ⟨d 30, d 50⟩).reply.begins = true := by decide +kernel
  have has : ∀ a ∈ as, a.sustains = true := by decide
  obtain ⟨-, hcancel, -, -, hreply, hundo, -⟩ := abandoned_gesture_rolls_back hb hdown has
  exact ⟨hdown, has, by decide +kernel, hcancel.shapes, hreply, hundo.shapes⟩

end Board

end MarketSketch
