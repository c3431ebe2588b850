import MarketSketch.Proofs.Board.Run

/-! The flag of a board. Every event that changes the picture asks for a frame, with one exception:
undoing while a draft is drawn over an empty list drops the draft and says nothing. -/

namespace MarketSketch.Board

/-- All that a frame depends on: the viewport, the shapes of both layers, the draft and the
selection. -/
structure Picture where
  view : ChartView
  frame : Frame
deriving DecidableEq

def picture (b : Board) : Picture := ⟨b.view, b.frame⟩

/-- The event drops a draft although no stored shape is there to be undone. -/
def losesDraft (b : Board) : Event → Bool
  | .undo => b.sketch.gesture.draft?.isSome && b.shapes.isEmpty
  | _ => false

variable {b : Board} {m : Moment} {e : Event}

theorem losesDraft_iff : b.losesDraft e = true ↔
    e = .undo ∧ b.sketch.gesture.draft?.isSome ∧ b.shapes = [] := by
  cases e <;> simp [losesDraft]

section Step

theorem sketched_picture_or_flag {ρ : Type} {t : Turn Sketch ρ} (changed : ρ → Bool)
    (h : changed t.reply = false → t.state = b.sketch) :
    (b.sketched t changed).state.picture = b.picture ∨
      (b.sketched t changed).state.needsRedraw = true := by
  cases hr : changed t.reply with
  | false =>
    left
    show picture { b with sketch := t.state, needsRedraw := _ } = b.picture
    rw [h hr]
    rfl
  | true => exact .inr (by simp [sketched, Turn.lift, touched, hr])

theorem undo_picture_or_flag (h : b.sketch.Sound) :
    b.undo.state.picture = b.picture ∨ b.undo.state.needsRedraw = true ∨
      b.losesDraft .undo = true := by
  by_cases hs : b.sketch.store.shapes = []
  · cases hd : b.sketch.gesture.draft? with
    | some draft => exact .inr (.inr (losesDraft_iff.mpr ⟨rfl, by simp [hd], hs⟩))
    | none =>
      left
      unfold undo
      rw [Sketch.undo_of_nil h hs]
      show picture { b with sketch := { b.sketch with gesture := .idle }, needsRedraw := _ } = _
      simp only [picture, view, frame, shapes, hd]
      rfl
  · right; left
    simp [undo, sketched, Turn.lift, touched, Sketch.undo_isSome_of_ne_nil h hs]

theorem analysis_picture_or_flag (b : Board) (m : Moment) (t : Ticket) (payload : Json.Value) :
    (b.applyAnalysis m t payload).state.picture = b.picture ∨
      (b.applyAnalysis m t payload).state.needsRedraw = true := by
  rw [applyAnalysis_state]
  split
  · exact .inr rfl
  · exact .inl rfl

theorem step_picture_or_flag (h : b.sketch.Sound) (m : Moment) (e : Event) :
    (b.step m e).state.picture = b.picture ∨ (b.step m e).state.needsRedraw = true ∨
      b.losesDraft e = true := by
  have weaken {x y z : Prop} (hxy : x ∨ y) : x ∨ y ∨ z := hxy.imp_right .inl
  -- six events set the flag by their answer, and of these only an undo can change more than it says
  cases e with
  | undo => exact undo_picture_or_flag h
  | down p =>
    refine weaken (sketched_picture_or_flag Outcome.changed fun hr => ?_)
    rw [Sketch.pointerDown_of_unchanged hr]
  | move p =>
    refine weaken (sketched_picture_or_flag Outcome.changed fun hr => ?_)
    rw [Sketch.pointerMove_of_unchanged hr]
  | up p =>
    refine weaken (sketched_picture_or_flag Outcome.changed fun hr => ?_)
    rw [Sketch.pointerUp_of_unchanged hr]
  | cancel => exact weaken (sketched_picture_or_flag (fun c => c) Sketch.cancel_state_of_not_reply)
  | select id =>
    exact weaken (sketched_picture_or_flag (fun c => c) Sketch.select_state_of_not_reply)
  | analysis t payload => exact weaken (analysis_picture_or_flag b m t payload)
  | tool t => exact .inr (.inl (by simp [step, answered, setTool, sketched, Turn.lift, touched]))
  | clear => exact .inr (.inl (by simp [step, answered, clearAll, sketched, Turn.lift, touched]))
  | viewport w => exact .inr (.inl rfl)
  | clearSelection => exact .inr (.inl rfl)
  | switch s => exact .inr (.inl rfl)
  | resetEngine => exact .inr (.inl rfl)
  | teardown => exact .inr (.inl rfl)
  | beginSync => exact .inl rfl
  | history t candles => exact .inl rfl
  | update t c => exact .inl rfl

theorem step_keeps_flag (h : b.needsRedraw = true) (m : Moment) (e : Event) :
    (b.step m e).state.needsRedraw = true := by
  cases e with
  | analysis t payload =>
    show (b.applyAnalysis m t payload).state.needsRedraw = true
    rw [applyAnalysis_state]
    split
    · rfl
    · exact h
  | viewport | clearSelection | switch | resetEngine | teardown => rfl
  | beginSync => exact h
  | _ => simp [step, answered, sketched, Turn.lift, touched, pointerDown, pointerMove, pointerUp,
      setTool, cancelGesture, undo, clearAll, select, applyHistory, applyUpdate, h]

theorem step_of_losesDraft (h : b.sketch.Sound) (hl : b.losesDraft e = true) (m : Moment) :
    (b.step m e).state = { b with sketch := { b.sketch with gesture := .idle } } := by
  obtain ⟨rfl, _, hs⟩ := losesDraft_iff.mp hl
  show b.undo.state = _
  unfold undo
  rw [Sketch.undo_of_nil h hs]
  show { b with sketch := _, needsRedraw := b.needsRedraw || false } = _
  rw [Bool.or_false]

theorem draft_ne_of_losesDraft (h : b.sketch.Sound) (hl : b.losesDraft e = true) (m : Moment) :
    (b.step m e).state.picture ≠ b.picture := by
  rw [step_of_losesDraft h hl]
  intro heq
  have hdraft : none = b.sketch.gesture.draft? := congrArg (·.frame.draft?) heq
  have hsome := (losesDraft_iff.mp hl).2.1
  simp [← hdraft] at hsome

theorem unnoticed_iff (h : b.sketch.Sound) (m : Moment) (e : Event) :
    ((b.step m e).state.picture ≠ b.picture ∧ (b.step m e).state.needsRedraw = false) ↔
      (b.needsRedraw = false ∧ b.losesDraft e = true) := by
  constructor
  · rintro ⟨hp, hf⟩
    have hb : b.needsRedraw = false := by
      by_contra hne
      have := step_keeps_flag (b := b) (by simpa using hne) m e
      simp [this] at hf
    refine ⟨hb, ?_⟩
    rcases step_picture_or_flag h m e with heq | hflag | hl
    · exact absurd heq hp
    · simp [hflag] at hf
    · exact hl
  · rintro ⟨hb, hl⟩
    refine ⟨draft_ne_of_losesDraft h hl m, ?_⟩
    rw [step_of_losesDraft h hl]
    exact hb

end Step

section Screen

def Action.draws (b : Board) : Action → Bool
  | .event _ _ => false
  | .render style surface start => (b.render style surface start).2.2.isOk
  | .renderIfNeeded style surface start =>
    match (b.renderIfNeeded style surface start).2.2 with
    | .ok (some _) => true
    | _ => false

def Action.losesDraft (b : Board) : Action → Bool
  | .event _ e => b.losesDraft e
  | _ => false

theorem act_of_draws {a : Action} (h : a.draws b = true) :
    b.act a = { b with needsRedraw := false } := by
  have render_of_ok {σ : Type} {style : Style} {surface : Surface σ} {start : σ}
      (hok : (b.render style surface start).2.2.isOk = true) :
      (b.render style surface start).1 = { b with needsRedraw := false } := by
    rcases b.render_cases style surface start with ⟨_, _, heq⟩ | ⟨f, hf, _⟩
    · exact heq
    · simp [hf, Except.isOk, Except.toBool] at hok
  cases a with
  | event m e => simp [Action.draws] at h
  | render style surface start => exact render_of_ok h
  | renderIfNeeded style surface start =>
    simp only [Action.draws] at h
    cases hn : b.needsRedraw with
    | false => simp [renderIfNeeded_of_upToDate hn] at h
    | true =>
      rw [renderIfNeeded_of_needed hn] at h
      show (b.renderIfNeeded style surface start).1 = _
      rw [renderIfNeeded_of_needed hn]
      refine render_of_ok ?_
      cases hr : (b.render style surface start).2.2 with
      | error f => simp [hr, Except.map] at h
      | ok n => rfl

theorem act_of_not_draws {a : Action} (h : a.draws b = false) :
    b.act a = b ∨ ∃ m e, a = .event m e := by
  have render_of_not_ok {σ : Type} {style : Style} {surface : Surface σ} {start : σ}
      (hok : (b.render style surface start).2.2.isOk = false) :
      (b.render style surface start).1 = b := by
    rcases b.render_cases style surface start with ⟨n, hn, _⟩ | ⟨_, _, heq⟩
    · simp [hn, Except.isOk, Except.toBool] at hok
    · exact heq
  cases a with
  | event m e => exact .inr ⟨m, e, rfl⟩
  | render style surface start => exact .inl (render_of_not_ok h)
  | renderIfNeeded style surface start =>
    left
    show (b.renderIfNeeded style surface start).1 = b
    cases hn : b.needsRedraw with
    | false => rw [renderIfNeeded_of_upToDate hn]
    | true =>
      simp only [Action.draws, renderIfNeeded_of_needed hn] at h
      rw [renderIfNeeded_of_needed hn]
      refine render_of_not_ok ?_
      cases hr : (b.render style surface start).2.2 with
      | error f => rfl
      | ok n => simp [hr, Except.map] at h

/-- A board with what is on screen: the picture that the last successful frame showed, and whether
an undo has dropped a draft since. -/
structure Screen where
  board : Board
  shown? : Option Picture := none
  draftLost : Bool := false

namespace Screen

def opened (c : Config) (stored : Except Failure (Option String)) : Screen :=
  { board := (Board.opened c stored).state }

def act (s : Screen) (a : Action) : Screen :=
  if a.draws s.board then ⟨s.board.act a, some s.board.picture, false⟩
  else ⟨s.board.act a, s.shown?, s.draftLost || a.losesDraft s.board⟩

/-- While no frame is asked for, the screen shows the picture, or the picture with a draft that was
lost. -/
structure Faithful (s : Screen) : Prop where
  sound : s.board.sketch.Sound
  shown : s.board.needsRedraw = false → ∃ p, s.shown? = some p ∧
    (s.draftLost = false → p = s.board.picture) ∧
    (s.draftLost = true → p.frame.draft?.isSome ∧ s.board.picture.frame.draft? = none)

theorem faithful_opened (c : Config) (stored : Except Failure (Option String)) :
    (opened c stored).Faithful :=
  ⟨sound_opened c stored, by simp [opened, Board.opened, Turn.lift, ofStore]⟩

theorem faithful_event {s : Screen} (h : s.Faithful) (m : Moment) (e : Event) :
    (s.act (.event m e)).Faithful := by
  refine ⟨sound_act h.sound (.event m e), ?_⟩
  intro hflag
  have hb : s.board.needsRedraw = false := by
    by_contra hne
    have hkept : (s.board.step m e).state.needsRedraw = true :=
      step_keeps_flag (by simpa using hne) m e
    exact absurd (hkept.symm.trans hflag) (by decide)
  obtain ⟨p, hp, hcurrent, hlost⟩ := h.shown hb
  refine ⟨p, hp, ?_⟩
  show ((s.draftLost || s.board.losesDraft e) = false → p = (s.board.step m e).state.picture) ∧
    ((s.draftLost || s.board.losesDraft e) = true →
      p.frame.draft?.isSome ∧ (s.board.step m e).state.picture.frame.draft? = none)
  cases hl : s.board.losesDraft e with
  | false =>
    have hsame : (s.board.step m e).state.picture = s.board.picture := by
      by_contra hne
      have := ((unnoticed_iff h.sound m e).mp ⟨hne, hflag⟩).2
      simp [hl] at this
    rw [hsame, Bool.or_false]
    exact ⟨hcurrent, hlost⟩
  | true =>
    obtain ⟨_, hdraft, _⟩ := losesDraft_iff.mp hl
    have hnot : s.draftLost = false := by
      by_contra hne
      have hnone : s.board.sketch.gesture.draft? = none := (hlost (by simpa using hne)).2
      simp [hnone] at hdraft
    rw [step_of_losesDraft h.sound hl, Bool.or_true]
    refine ⟨by simp, fun _ => ⟨?_, rfl⟩⟩
    rw [hcurrent hnot]
    exact hdraft

theorem faithful_act {s : Screen} (h : s.Faithful) (a : Action) : (s.act a).Faithful := by
  cases hd : a.draws s.board with
  | true =>
    have hact : s.act a = ⟨s.board.act a, some s.board.picture, false⟩ := by simp [act, hd]
    refine ⟨by rw [hact]; exact sound_act h.sound a, fun _ => ⟨s.board.picture, ?_, ?_, ?_⟩⟩
    · rw [hact]
    · rw [hact, act_of_draws hd]
      exact fun _ => rfl
    · simp [hact]
  | false =>
    rcases act_of_not_draws hd with hsame | ⟨m, e, rfl⟩
    · cases a with
      | event m e => exact faithful_event h m e
      | render style surface start =>
        have hact : s.act (.render style surface start) = s := by
          simp [act, hd, hsame, Action.losesDraft]
        rwa [hact]
      | renderIfNeeded style surface start =>
        have hact : s.act (.renderIfNeeded style surface start) = s := by
          simp [act, hd, hsame, Action.losesDraft]
        rwa [hact]
    · exact faithful_event h m e

theorem faithful_foldl_act {s : Screen} (h : s.Faithful) (as : List Action) :
    (as.foldl act s).Faithful := by
  induction as generalizing s with
  | nil => exact h
  | cons a as ih => exact ih (faithful_act h a)

end Screen

end Screen

/-- In every state that a run reaches, the events whose change of the picture goes unnoticed are
exactly the undos of a draft over an empty list with the flag down; and while the flag is down the
last successful frame showed the picture exactly, unless such a draft was lost since. -/
theorem flag_complete_but_for_lost_drafts (c : Config)
    (stored : Except Failure (Option String)) (as : List Action) :
    let s := as.foldl Screen.act (Screen.opened c stored)
    (∀ m e, ((s.board.step m e).state.picture ≠ s.board.picture ∧
        (s.board.step m e).state.needsRedraw = false) ↔
      (s.board.needsRedraw = false ∧ s.board.losesDraft e = true)) ∧
    (s.board.needsRedraw = false →
      ∃ p, s.shown? = some p ∧ (p = s.board.picture ↔ s.draftLost = false)) := by
  intro s
  have h : s.Faithful := Screen.faithful_foldl_act (Screen.faithful_opened c stored) as
  refine ⟨unnoticed_iff h.sound, fun hflag => ?_⟩
  obtain ⟨p, hp, hcurrent, hlost⟩ := h.shown hflag
  refine ⟨p, hp, ?_, hcurrent⟩
  intro heq
  by_contra hne
  obtain ⟨hsome, hnone⟩ := hlost (by simpa using hne)
  simp [heq, hnone] at hsome

/-- An undo in the middle of the first trend line: the draft is gone, the frame shows it still. -/
theorem undo_drops_first_draft_unnoticed :
    ¬ ∀ (c : Config) (stored : Except Failure (Option String)) (as : List Action) (m : Moment)
        (e : Event), let b := as.foldl act (opened c stored).state
      (b.step m e).state.picture ≠ b.picture → (b.step m e).state.needsRedraw = true := by
  intro h
  let hundred := Double.ofNat 100
  let view : ChartView := ⟨Double.ofNat 0, hundred, Double.ofNat 0, hundred, hundred, hundred⟩
  let m : Moment := ⟨0, "line"⟩
  let blank : Surface Unit := fun _ s => (s, none)
  let as : List Action := [.event m (.viewport view), .event m (.tool .trendline),
    .event m (.down ⟨Double.ofNat 10, Double.ofNat 10⟩), .render {} blank ()]
  have hflag := h {} (.ok none) as m .undo (by decide +kernel)
  exact absurd hflag (by decide +kernel)

end MarketSketch.Board
