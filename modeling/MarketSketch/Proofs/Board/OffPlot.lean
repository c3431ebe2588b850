import MarketSketch.Proofs.Board.Rollback
import Mathlib.Data.List.Induction

/-! Pointer events that are ignored, and those off the plot. An ignored event changes nothing at
all; a press or a move without a point of the chart is ignored. A release without one still ends the
gesture, and leaves what the last event with a point had made of it. -/

namespace MarketSketch

namespace Geometry

variable {α : Type}

@[simp] theorem withEnd_withEnd (g : Geometry α) (p q : Point α) :
    (g.withEnd p).withEnd q = g.withEnd q := by
  cases g <;> rfl

@[simp] theorem withEnd_anchored (k : ShapeKind) (p : Point α) :
    (anchored k p).withEnd p = anchored k p := by
  cases k <;> rfl

end Geometry

namespace Sketch

variable {s : Sketch} {m : Moment} {v : ChartView} {at_ : Pixel}

theorem pointerDown_changed (hidle : s.gesture = .idle) {p : ChartPoint}
    (hp : v.toPoint? at_ = some p) : (s.pointerDown m v at_).reply.changed = true := by
  have hready : s.isIdle = true := by rw [isIdle, hidle]; rfl
  unfold pointerDown
  rw [hready, hp]
  cases s.tool with
  | select =>
    show (s.grab v at_ p).reply.changed = true
    rcases s.grab_cases v at_ p with ⟨shape, _, _, heq⟩ | heq <;> rw [heq] <;> rfl
  | _ => rfl

theorem pointerDown_ignored_iff : (s.pointerDown m v at_).reply = .ignored ↔
    s.gesture ≠ .idle ∨ v.toPoint? at_ = none := by
  constructor
  · intro h
    by_contra hcon
    obtain ⟨hidle, hsome⟩ := not_or.mp hcon
    obtain ⟨p, hp⟩ := Option.ne_none_iff_exists'.mp hsome
    have hchanged := pointerDown_changed (m := m) (not_not.mp hidle) hp
    rw [h] at hchanged
    cases hchanged
  · rintro (hbusy | hnone)
    · rw [s.pointerDown_of_busy hbusy]
    · rcases s.pointerDown_cases m v at_ with heq | ⟨_, p, hp, _⟩
      · rw [heq]
      · rw [hnone] at hp
        cases hp

theorem pointerMove_ignored_iff : (s.pointerMove v at_).reply = .ignored ↔
    s.gesture = .idle ∨ v.toPoint? at_ = none := by
  by_cases hidle : s.gesture = .idle
  · refine iff_of_true ?_ (.inl hidle)
    rcases s.pointerMove_cases v at_ with heq | ⟨hbusy, _⟩
    · rw [heq]
    · exact absurd hidle hbusy
  · rw [s.pointerMove_of_busy hidle, or_iff_right hidle]
    cases v.toPoint? at_ with
    | none => exact iff_of_true rfl rfl
    | some p =>
      refine iff_of_false (fun h => ?_) nofun
      have hreply : (s.track p).reply = .ignored := h
      have hunchanged : (s.track p).reply.changed = false := by rw [hreply]; rfl
      exact hidle (track_of_unchanged hunchanged).1

theorem pointerUp_ignored_iff : (s.pointerUp v at_).reply = .ignored ↔ s.gesture = .idle := by
  constructor
  · intro h
    have hunchanged : (s.pointerUp v at_).reply.changed = false := by rw [h]; rfl
    have hidle := s.pointerUp_gesture v at_
    rwa [pointerUp_of_unchanged hunchanged] at hidle
  · intro hidle
    rcases s.pointerUp_eq v at_ with heq | ⟨p, _, heq⟩
    · rw [heq, release_of_idle hidle]
    · rw [heq, track_of_idle hidle, release_of_idle hidle]
      rfl

end Sketch

namespace Board

open Sketch

variable {b : Board} {m : Moment} {e : Event} {at_ : Pixel}

section Ignored

theorem sketched_of_ignored {t : Turn Sketch Outcome} (h : t = ⟨b.sketch, .ignored, []⟩) :
    b.sketched t Outcome.changed = ⟨b, .ignored, []⟩ := by
  subst h
  have hflag : (b.needsRedraw || false) = b.needsRedraw := Bool.or_false _
  simp only [sketched, Turn.lift, touched, Outcome.changed, hflag]

theorem step_of_ignored (h : (b.step m e).reply = .outcome .ignored) :
    b.step m e = ⟨b, .outcome .ignored, []⟩ := by
  have ignored {t : Turn Sketch Outcome} (ht : t = ⟨b.sketch, .ignored, []⟩) :
      answered (b.sketched t Outcome.changed) .outcome = ⟨b, .outcome .ignored, []⟩ := by
    rw [sketched_of_ignored ht]
    rfl
  cases e with
  | down p =>
    have hreply : (b.sketch.pointerDown m b.view p).reply = .ignored := Reply.outcome.inj h
    exact ignored (pointerDown_of_unchanged (by rw [hreply]; rfl))
  | move p =>
    have hreply : (b.sketch.pointerMove b.view p).reply = .ignored := Reply.outcome.inj h
    exact ignored (pointerMove_of_unchanged (by rw [hreply]; rfl))
  | up p =>
    have hreply : (b.sketch.pointerUp b.view p).reply = .ignored := Reply.outcome.inj h
    exact ignored (pointerUp_of_unchanged (by rw [hreply]; rfl))
  | _ => cases h

end Ignored

section Began

/-- The gesture began with this press on the board `b₀`, and these operations did not end it. -/
structure Began (b₀ : Board) (m₀ : Moment) (at₀ : Pixel) (as : List Action) (b : Board) : Prop where
  arises : b₀.Arises
  begins : (b₀.pointerDown m₀ at₀).reply.begins = true
  sustained : ∀ a ∈ as, a.sustains = true
  now : b = as.foldl act (b₀.pointerDown m₀ at₀).state

theorem idle_onSketch (s : Sketch) (m : Moment) (v : ChartView) (h : e.sustains = false) :
    (e.onSketch m v s).state.gesture = .idle := by
  cases e with
  | up p => exact s.pointerUp_gesture v p
  | tool t => exact s.cancel_gesture
  | cancel => exact s.cancel_gesture
  | undo => exact s.undo_gesture
  | clear => exact s.clear_gesture
  | teardown => exact s.cancel_gesture
  | _ => cases h

theorem begins_of_busy {s : Sketch} {v : ChartView} (hidle : s.gesture = .idle)
    (hbusy : (e.onSketch m v s).state.gesture ≠ .idle) :
    ∃ p, e = .down p ∧ (s.pointerDown m v p).reply.begins = true := by
  cases e with
  | down p =>
    refine ⟨p, rfl, ?_⟩
    have hbusy : (s.pointerDown m v p).state.gesture ≠ .idle := hbusy
    rcases s.pointerDown_cases m v p with heq | ⟨_, q, _, heq | ⟨kind, _, _, heq⟩ | ⟨_, heq⟩⟩ <;>
      rw [heq] at hbusy ⊢
    · exact absurd hidle hbusy
    · exact absurd hidle hbusy
    · rfl
    · rcases s.grab_cases v p q with ⟨shape, _, _, hgrab⟩ | hgrab <;> rw [hgrab] at hbusy ⊢
      · rfl
      · exact absurd hidle hbusy
  | move p =>
    rcases s.pointerMove_cases v p with heq | ⟨hnot, _⟩
    · have hsame : (Event.onSketch m v s (.move p)).state = s := by rw [Event.onSketch, heq]; rfl
      rw [hsame] at hbusy
      exact absurd hidle hbusy
    · exact absurd hidle hnot
  | select id =>
    have hsame : (Event.onSketch m v s (.select id)).state.gesture = s.gesture :=
      (s.select_kept id).1
    exact absurd (hsame.trans hidle) hbusy
  | up p => exact absurd (idle_onSketch s m v rfl) hbusy
  | tool t => exact absurd (idle_onSketch s m v rfl) hbusy
  | cancel | undo | clear | teardown => exact absurd (idle_onSketch s m v rfl) hbusy
  | _ => exact absurd hidle hbusy

theorem act_cases (b : Board) (a : Action) :
    (b.act a).sketch.gesture = .idle ∨ b.sketch.gesture ≠ .idle ∧ a.sustains = true ∨
      ∃ m p, a = .event m (.down p) ∧ (b.pointerDown m p).reply.begins = true := by
  by_cases hafter : (b.act a).sketch.gesture = .idle
  · exact .inl hafter
  refine .inr ?_
  rw [act_sketch] at hafter
  cases a with
  | event m e =>
    by_cases hidle : b.sketch.gesture = .idle
    · obtain ⟨p, rfl, hbegins⟩ := begins_of_busy hidle hafter
      exact .inr ⟨m, p, rfl, hbegins⟩
    · refine .inl ⟨hidle, ?_⟩
      cases hs : e.sustains with
      | true => exact hs
      | false => exact absurd (idle_onSketch b.sketch m b.view hs) hafter
  | _ => exact .inl ⟨hafter, rfl⟩

theorem exists_began (hb : b.Arises) (hbusy : b.sketch.gesture ≠ .idle) :
    ∃ b₀ m₀ at₀ as, Began b₀ m₀ at₀ as b := by
  obtain ⟨store, tolerance, limit, as, hstore, rfl⟩ := hb
  induction as using List.reverseRecOn with
  | nil => exact absurd rfl hbusy
  | append_singleton as a ih =>
    have hlast : (as ++ [a]).foldl act (ofStore store tolerance limit) =
        (as.foldl act (ofStore store tolerance limit)).act a := by
      rw [List.foldl_append]
      rfl
    rw [hlast] at hbusy ⊢
    rcases act_cases (as.foldl act (ofStore store tolerance limit)) a with
      hidle | ⟨hunder, hsustains⟩ | ⟨m, p, rfl, hbegins⟩
    · exact absurd hidle hbusy
    · obtain ⟨b₀, m₀, at₀, before, h⟩ := ih hunder
      refine ⟨b₀, m₀, at₀, before ++ [a], h.arises, h.begins, ?_, ?_⟩
      · intro a' ha'
        rcases List.mem_append.mp ha' with hbefore | hone
        · exact h.sustained a' hbefore
        · exact List.mem_singleton.mp hone ▸ hsustains
      · rw [List.foldl_append, ← h.now]
        rfl
    · exact ⟨_, m, p, [], ⟨store, tolerance, limit, as, hstore, rfl⟩, hbegins, by simp, rfl⟩

end Began

section Release

variable {b₀ : Board} {m₀ : Moment} {at₀ : Pixel} {as : List Action}

def drafted (m : Moment) (kind : ShapeKind) (anchor : ChartPoint) (last? : Option ChartPoint) :
    Shape :=
  (newShape m (Geometry.anchored kind anchor)).withEnd (last?.getD anchor)

def draftTrail (base : List Shape) (m : Moment) (kind : ShapeKind) (anchor : ChartPoint) :
    Trail where
  gesture last? := .drawing anchor (drafted m kind anchor last?)
  shapes _ := base
  busy _ := nofun
  track := by
    intro s last? hg hs p
    have hmoved : (drafted m kind anchor last?).withEnd p = drafted m kind anchor (some p) := by
      simp [drafted, Shape.withEnd]
    unfold Sketch.track
    rw [hg]
    exact ⟨congrArg (Gesture.drawing anchor) hmoved, hs⟩

theorem draft_of_draftStarted (h : (b.pointerDown m at_).reply = .draftStarted) :
    ∃ anchor, b.view.toPoint? at_ = some anchor ∧ ∃ kind, b.sketch.tool.creates? = some kind ∧
      kind ≠ .level ∧
      (draftTrail b.shapes m kind anchor).At none (b.pointerDown m at_).state.sketch := by
  have hdown : (b.sketch.pointerDown m b.view at_).reply = .draftStarted := h
  rcases b.sketch.pointerDown_cases m b.view at_ with
    heq | ⟨_, p, hp, heq | ⟨kind, htool, hkind, heq⟩ | ⟨_, heq⟩⟩
  · rw [heq] at hdown
    cases hdown
  · rw [heq] at hdown
    cases hdown
  · refine ⟨p, hp, kind, htool, hkind, ?_⟩
    have hstate : (b.pointerDown m at_).state.sketch = (b.sketch.startDraft m kind p).state :=
      congrArg Turn.state heq
    rw [hstate]
    refine ⟨congrArg (Gesture.drawing p) ?_, rfl⟩
    simp [drafted, Shape.withEnd, newShape]
  · rcases b.sketch.grab_cases b.view at_ p with ⟨shape, _, _, hgrab⟩ | hgrab <;>
      rw [heq, hgrab] at hdown <;> cases hdown

theorem pointerUp_off_plot (hoff : b.view.toPoint? at_ = none) :
    b.pointerUp at_ = b.sketched b.sketch.release Outcome.changed := by
  have hrelease : b.sketch.pointerUp b.view at_ = b.sketch.release := by
    unfold Sketch.pointerUp
    rw [hoff]
  rw [pointerUp, hrelease]

theorem Began.draft_committed (h : Began b₀ m₀ at₀ as b)
    (hstart : (b₀.pointerDown m₀ at₀).reply = .draftStarted)
    (hnew : m₀.freshId ∉ b₀.sketch.store.ids) (hoff : b.view.toPoint? at_ = none) :
    ∃ anchor, b₀.view.toPoint? at₀ = some anchor ∧ ∃ kind, b₀.sketch.tool.creates? = some kind ∧
      (b.pointerUp at_).reply = .committed m₀.freshId ∧ (b.pointerUp at_).state.Rests
        (b₀.shapes ++ [drafted m₀ kind anchor (lastPoint? b₀.view (events as))]) ∧
      (b.pointerUp at_).state.sketch.selected = some m₀.freshId ∧
      (b.pointerUp at_).effects = (b.pointerUp at_).state.sketch.store.saving := by
  obtain ⟨anchor, hanchor, kind, hkind, -, htrail⟩ := draft_of_draftStarted hstart
  have hend := htrail.foldl_act h.sustained
  rw [← h.now, Option.or_none] at hend
  have hview : (b₀.pointerDown m₀ at₀).state.view = b₀.view := rfl
  rw [hview] at hend
  let draft := drafted m₀ kind anchor (lastPoint? b₀.view (events as))
  have hgesture : b.sketch.gesture = .drawing anchor draft := hend.gesture
  have hshapes : b.sketch.store.shapes = b₀.shapes := hend.shapes
  have hfresh : draft.id ∉ b.sketch.store.ids := by
    rw [Store.ids, hshapes]
    exact hnew
  have hadd : b.sketch.store.add draft =
      Store.changed { b.sketch.store with shapes := b₀.shapes ++ [draft] } true := by
    unfold Store.add
    rw [if_neg (mt Store.contains_iff.mp hfresh), hshapes]
  have hrelease : b.sketch.release =
      ⟨{ b.sketch with
          gesture := .idle
          store := { b.sketch.store with shapes := b₀.shapes ++ [draft] }
          selected := some draft.id },
        .committed draft.id,
        Store.saving { b.sketch.store with shapes := b₀.shapes ++ [draft] }⟩ := by
    unfold Sketch.release
    rw [hgesture]
    dsimp only
    rw [hadd]
    rfl
  refine ⟨anchor, hanchor, kind, hkind, ?_⟩
  rw [pointerUp_off_plot hoff, hrelease]
  exact ⟨rfl, ⟨rfl, rfl⟩, rfl, rfl⟩

theorem Began.drag_ended (h : Began b₀ m₀ at₀ as b) {id : String}
    (hstart : (b₀.pointerDown m₀ at₀).reply = .dragStarted id) (hoff : b.view.toPoint? at_ = none) :
    ∃ anchor, b₀.view.toPoint? at₀ = some anchor ∧ ∃ snapshot ∈ b₀.shapes, snapshot.id = id ∧
      (b.pointerUp at_).reply = .dragEnded id ∧ (b.pointerUp at_).state.Rests b.shapes ∧
      b.shapes = withShape (dragged anchor snapshot (lastPoint? b₀.view (events as))) b₀.shapes ∧
      (b.pointerUp at_).state.sketch.store = b.sketch.store ∧ (b.pointerUp at_).effects = [] := by
  have hsound := h.arises.sound
  obtain ⟨anchor, hanchor, snapshot, hmem, hid, hdragging⟩ := dragging_of_dragStarted hsound hstart
  have hlisted : snapshot.id ∈ b₀.shapes.map (·.id) := List.mem_map_of_mem hmem
  have hend := (hdragging.trail hsound.distinct hlisted).foldl_act h.sustained
  rw [← h.now, Option.or_none] at hend
  have hview : (b₀.pointerDown m₀ at₀).state.view = b₀.view := rfl
  rw [hview] at hend
  have hrelease : b.sketch.release =
      ⟨{ b.sketch with gesture := .idle }, .dragEnded snapshot.id, []⟩ := by
    unfold Sketch.release
    rw [hend.gesture]
    rfl
  refine ⟨anchor, hanchor, snapshot, hmem, hid, ?_⟩
  rw [pointerUp_off_plot hoff, hrelease, ← hid]
  exact ⟨rfl, ⟨rfl, rfl⟩, hend.shapes, rfl, rfl⟩

end Release

/-- A pointer event that is ignored leaves the whole board as it is and asks for nothing; and it is
known which are: presses during a gesture or off the plot, moves during no gesture or off the plot,
and releases during no gesture. A gesture under way has begun with a press; released off the plot it
ends as the last event on the plot left it, which is where the draft is committed, with an id that
was new, and where a dragged shape stays. -/
theorem ignored_changes_nothing {b : Board} (hb : b.Arises) (m : Moment) (at_ : Pixel) :
    (∀ e, (b.step m e).reply = .outcome .ignored → b.step m e = ⟨b, .outcome .ignored, []⟩) ∧
    ((b.pointerDown m at_).reply = .ignored ↔
      b.sketch.gesture ≠ .idle ∨ b.view.toPoint? at_ = none) ∧
    ((b.pointerMove at_).reply = .ignored ↔ b.sketch.gesture = .idle ∨ b.view.toPoint? at_ = none) ∧
    ((b.pointerUp at_).reply = .ignored ↔ b.sketch.gesture = .idle) ∧
    (b.sketch.gesture ≠ .idle → ∃ b₀ m₀ at₀ as, Began b₀ m₀ at₀ as b) ∧
    ∀ b₀ m₀ at₀ as, Began b₀ m₀ at₀ as b → b.view.toPoint? at_ = none →
      let last? := lastPoint? b₀.view (events as)
      let up := b.pointerUp at_
      ((b₀.pointerDown m₀ at₀).reply = .draftStarted → m₀.freshId ∉ b₀.sketch.store.ids →
        ∃ anchor, b₀.view.toPoint? at₀ = some anchor ∧ ∃ kind,
          b₀.sketch.tool.creates? = some kind ∧ up.reply = .committed m₀.freshId ∧
          up.state.Rests (b₀.shapes ++ [drafted m₀ kind anchor last?]) ∧
          up.state.sketch.selected = some m₀.freshId ∧
          up.effects = up.state.sketch.store.saving) ∧
      ∀ id, (b₀.pointerDown m₀ at₀).reply = .dragStarted id →
        ∃ anchor, b₀.view.toPoint? at₀ = some anchor ∧ ∃ snapshot ∈ b₀.shapes, snapshot.id = id ∧
          up.reply = .dragEnded id ∧ up.state.Rests b.shapes ∧
          b.shapes = withShape (dragged anchor snapshot last?) b₀.shapes ∧
          up.state.sketch.store = b.sketch.store ∧ up.effects = [] :=
  ⟨fun _ => step_of_ignored, Sketch.pointerDown_ignored_iff, Sketch.pointerMove_ignored_iff,
    Sketch.pointerUp_ignored_iff, exists_began hb, fun _ _ _ _ h hoff =>
      ⟨fun hstart hnew => h.draft_committed hstart hnew hoff,
        fun _ hstart => h.drag_ended hstart hoff⟩⟩

theorem ignored_changes_nothing_of_offPlotZone :
    let d := Double.ofNat
    let view (price : Nat) : ChartView := ⟨d 0, d 100, d price, d (price + 100), d 100, d 100⟩
    let m : Moment := ⟨7, "new"⟩
    let before : List Action := [.event m (.viewport (view 0)), .event m (.tool .zone)]
    let b₀ := before.foldl act (ofStore {} (d 6) 9)
    let as : List Action := [.event m (.move ⟨d 60, d 50⟩), .event m (.viewport (view 200)),
      .event m (.move ⟨d 150, d 0⟩), .event m (.down ⟨d 1, d 1⟩)]
    let b := as.foldl act (b₀.pointerDown m ⟨d 20, d 20⟩).state
    let off : Pixel := ⟨d 150, d 0⟩
    b.Arises ∧ Began b₀ m ⟨d 20, d 20⟩ as b ∧ b.view.toPoint? off = none ∧
      b.step m (.move off) = ⟨b, .outcome .ignored, []⟩ ∧
      (b.pointerUp off).state.shapes =
        [⟨"new", 7, none, .zone ⟨d 20, d 80⟩ ⟨d 60, d 50⟩⟩] := by
  intro d view m before b₀ as b off
  have hb₀ : b₀.Arises := ⟨{}, d 6, 9, before, .inMemory, rfl⟩
  have hb : b.Arises :=
    ⟨{}, d 6, 9, before ++ .event m (.down ⟨d 20, d 20⟩) :: as, .inMemory, rfl⟩
  have hstart : (b₀.pointerDown m ⟨d 20, d 20⟩).reply = .draftStarted := by decide +kernel
  have hbegan : Began b₀ m ⟨d 20, d 20⟩ as b :=
    ⟨hb₀, by rw [hstart]; rfl, by decide, rfl⟩
  have hoff : b.view.toPoint? off = none := by decide +kernel
  obtain ⟨hsame, -, hmove, -, -, hends⟩ := ignored_changes_nothing hb m off
  have hignored : (b.pointerMove off).reply = .ignored := hmove.mpr (.inr hoff)
  obtain ⟨anchor, hanchor, kind, hkind, -, hrests, -⟩ :=
    (hends b₀ m ⟨d 20, d 20⟩ as hbegan hoff).1 hstart (by decide +kernel)
  have hat : b₀.view.toPoint? ⟨d 20, d 20⟩ = some ⟨d 20, d 80⟩ := by decide +kernel
  obtain rfl : anchor = ⟨d 20, d 80⟩ := Option.some.inj (hanchor.symm.trans hat)
  obtain rfl : kind = .zone := Option.some.inj (hkind.symm.trans rfl)
  refine ⟨hb, hbegan, hoff, hsame _ (congrArg Reply.outcome hignored), ?_⟩
  rw [hrests.shapes]
  decide +kernel

end Board

end MarketSketch
