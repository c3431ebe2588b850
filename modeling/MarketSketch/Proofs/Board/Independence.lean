import MarketSketch.Proofs.Board.Bench

/-! The two sides of a board. Drawing has the viewport, the sketch and what is stored; feeding has
the session, the candles and the analysis. An event of one side leaves the other as it is and sees
nothing of it, so a run of both is a run of each. -/

namespace MarketSketch

namespace Board

/-- The events of drawing. A teardown ends a gesture, so it is one of them. -/
def Event.draws : Event → Bool
  | .viewport _ | .down _ | .move _ | .up _ | .tool _ | .cancel | .undo | .clear | .select _
  | .clearSelection | .teardown => true
  | _ => false

def Event.feeds : Event → Bool
  | .switch _ | .beginSync | .history _ _ | .update _ _ | .analysis _ _ | .resetEngine
  | .teardown => true
  | _ => false

variable {b c : Board} {m : Moment} {e : Event}

theorem step_of_not_draws (he : e.draws = false) :
    (b.step m e).state.sketch = b.sketch ∧ (b.step m e).state.bridge = b.bridge ∧
      Effect.writes (b.step m e).effects = [] := by
  have hwrites := step_writes b m e
  cases e with
  | viewport | down | move | up | tool | cancel | undo | clear | select | clearSelection
  | teardown => simp [Event.draws] at he
  | analysis t payload =>
    show (b.applyAnalysis m t payload).state.sketch = _ ∧
      (b.applyAnalysis m t payload).state.bridge = _ ∧ _
    rw [applyAnalysis_state]
    split <;> exact ⟨rfl, rfl, hwrites⟩
  | _ => exact ⟨rfl, rfl, hwrites⟩

theorem step_of_not_feeds (he : e.feeds = false) :
    (b.step m e).state.guard = b.guard ∧ (b.step m e).state.feed = b.feed ∧
      (b.step m e).state.engine = b.engine := by
  cases e with
  | switch | beginSync | history | update | analysis | resetEngine | teardown =>
    simp [Event.feeds] at he
  | _ => exact ⟨rfl, rfl, rfl⟩

theorem step_of_same_drawing (he : e.draws = true) (hsketch : b.sketch = c.sketch)
    (hbridge : b.bridge = c.bridge) :
    (b.step m e).state.sketch = (c.step m e).state.sketch ∧
      (b.step m e).state.bridge = (c.step m e).state.bridge ∧
      (b.step m e).reply = (c.step m e).reply ∧
      (b.step m e).effects = (c.step m e).effects := by
  obtain ⟨sketch, engine, bridge, guard, feed, flag⟩ := b
  obtain ⟨sketch', engine', bridge', guard', feed', flag'⟩ := c
  cases hsketch
  cases hbridge
  cases e with
  | switch | beginSync | history | update | analysis | resetEngine => simp [Event.draws] at he
  | _ => exact ⟨rfl, rfl, rfl, rfl⟩

theorem step_of_same_feed (he : e.feeds = true) (hguard : b.guard = c.guard)
    (hfeed : b.feed = c.feed) (hengine : b.engine = c.engine) :
    (b.step m e).state.guard = (c.step m e).state.guard ∧
      (b.step m e).state.feed = (c.step m e).state.feed ∧
      (b.step m e).state.engine = (c.step m e).state.engine ∧
      (b.step m e).reply = (c.step m e).reply := by
  obtain ⟨sketch, engine, bridge, guard, feed, flag⟩ := b
  obtain ⟨sketch', engine', bridge', guard', feed', flag'⟩ := c
  cases hguard
  cases hfeed
  cases hengine
  cases e with
  | viewport | down | move | up | tool | cancel | undo | clear | select | clearSelection =>
    simp [Event.feeds] at he
  | analysis t payload =>
    by_cases hcurrent : guard.isCurrent t
    · simp [step, answered, applyAnalysis, isCurrent, hcurrent, analysisWindow]
    · simp [step, answered, applyAnalysis, isCurrent, hcurrent]
  | _ => exact ⟨rfl, rfl, rfl, rfl⟩

end Board

namespace Bench

open Board (Event Reply)

@[ext]
structure DrawingSide where
  bridge : Bridge
  sketch : Sketch
  vault : Vault
  atWrite : Nat → UInt64

@[ext]
structure FeedSide where
  guard : Guard
  feed : LiveFeed
  engine : List EngineShape

def drawing (w : Bench) : DrawingSide :=
  ⟨w.board.bridge, w.board.sketch, w.desk.vault, w.desk.atWrite⟩

def feeding (w : Bench) : FeedSide := ⟨w.board.guard, w.board.feed, w.board.engine⟩

def met (w : Bench) (op : Moment × Event) : Bench :=
  let t := w.board.step op.1 op.2
  ⟨t.state, w.desk.performAll t.effects⟩

def metAll (w : Bench) (ops : List (Moment × Event)) : Bench := ops.foldl met w

def answers (w : Bench) : List (Moment × Event) → List (Event × Reply)
  | [] => []
  | op :: ops => (op.2, (w.board.step op.1 op.2).reply) :: answers (w.met op) ops

/-- What an observer of some events sees: it is not changed by the others, and it determines what
the events do to it and what they are answered. -/
structure Confined {σ : Type} (watched : Event → Bool) (side : Bench → σ) : Prop where
  quiet : ∀ w op, watched op.2 = false → side (w.met op) = side w
  settled : ∀ w w' op, watched op.2 = true → side w = side w' →
    side (w.met op) = side (w'.met op) ∧
      (w.board.step op.1 op.2).reply = (w'.board.step op.1 op.2).reply

theorem Confined.run {σ : Type} {watched : Event → Bool} {side : Bench → σ}
    (h : Confined watched side) {w w' : Bench} (hside : side w = side w')
    (ops : List (Moment × Event)) :
    (w.answers ops).filter (fun a => watched a.1) =
        w'.answers (ops.filter fun op => watched op.2) ∧
      side (w.metAll ops) = side (w'.metAll (ops.filter fun op => watched op.2)) := by
  induction ops generalizing w w' with
  | nil => exact ⟨rfl, hside⟩
  | cons op ops ih =>
    cases hwatched : watched op.2 with
    | false =>
      have hnext : side (w.met op) = side w' := (h.quiet w op hwatched).trans hside
      obtain ⟨hanswers, hend⟩ := ih hnext
      rw [answers, List.filter_cons_of_neg (by simp [hwatched]),
        List.filter_cons_of_neg (by simp [hwatched])]
      exact ⟨hanswers, hend⟩
    | true =>
      obtain ⟨hnext, hreply⟩ := h.settled w w' op hwatched hside
      obtain ⟨hanswers, hend⟩ := ih hnext
      rw [answers, List.filter_cons_of_pos (by simp [hwatched]),
        List.filter_cons_of_pos (by simp [hwatched]), answers, hanswers, hreply]
      exact ⟨rfl, hend⟩

theorem met_vault (w : Bench) (op : Moment × Event) :
    (w.met op).desk.vault =
      (w.desk.performAll (Effect.writes (w.board.step op.1 op.2).effects)).vault :=
  Desk.performAll_vault w.desk _

theorem met_atWrite (w : Bench) (op : Moment × Event) :
    (w.met op).desk.atWrite = w.desk.atWrite := Desk.performAll_atWrite w.desk _

theorem confined_drawing : Confined Event.draws drawing where
  quiet w op he := by
    obtain ⟨hsketch, hbridge, hwrites⟩ := Board.step_of_not_draws (b := w.board) (m := op.1) he
    have hvault : (w.met op).desk.vault = w.desk.vault := by
      rw [met_vault, hwrites]
      rfl
    exact DrawingSide.ext hbridge hsketch hvault (met_atWrite w op)
  settled w w' op he hside := by
    have hsame : w.board.sketch = w'.board.sketch := congrArg DrawingSide.sketch hside
    obtain ⟨hsketch, hbridge, hreply, heffects⟩ :=
      Board.step_of_same_drawing (m := op.1) he hsame (congrArg DrawingSide.bridge hside)
    have hat : w.desk.atWrite = w'.desk.atWrite := congrArg DrawingSide.atWrite hside
    have hvault : (w.met op).desk.vault = (w'.met op).desk.vault := by
      rw [met_vault, met_vault, heffects]
      exact Desk.performAll_vault_congr (congrArg DrawingSide.vault hside) hat _
    have hat' : (w.met op).desk.atWrite = (w'.met op).desk.atWrite := by
      rw [met_atWrite, met_atWrite, hat]
    exact ⟨DrawingSide.ext hbridge hsketch hvault hat', hreply⟩

theorem confined_feeding : Confined Event.feeds feeding where
  quiet w op he := by
    obtain ⟨hguard, hfeed, hengine⟩ := Board.step_of_not_feeds (b := w.board) (m := op.1) he
    exact FeedSide.ext hguard hfeed hengine
  settled w w' op he hside := by
    have hsame : w.board.guard = w'.board.guard := congrArg FeedSide.guard hside
    obtain ⟨hguard, hfeed, hengine, hreply⟩ := Board.step_of_same_feed (m := op.1) he hsame
      (congrArg FeedSide.feed hside) (congrArg FeedSide.engine hside)
    exact ⟨FeedSide.ext hguard hfeed hengine, hreply⟩

/-- Drawing and feeding are independent. In any run, the events of drawing are answered as in the
run of them alone, which ends with the same viewport, shapes, tool, gesture and selection and the
same stored text; and the events of feeding are answered as in the run of them alone, which ends
with the same session, candles and analysis. -/
theorem drawing_and_feeding_independent (w : Bench) (ops : List (Moment × Event)) :
    let drawn := ops.filter fun op => op.2.draws
    let fed := ops.filter fun op => op.2.feeds
    (w.answers ops).filter (fun a => a.1.draws) = w.answers drawn ∧
      (w.metAll ops).drawing = (w.metAll drawn).drawing ∧
      (w.answers ops).filter (fun a => a.1.feeds) = w.answers fed ∧
      (w.metAll ops).feeding = (w.metAll fed).feeding := by
  intro drawn fed
  obtain ⟨hdrawn, hdrawing⟩ := confined_drawing.run (w := w) rfl ops
  obtain ⟨hfed, hfeeding⟩ := confined_feeding.run (w := w) rfl ops
  exact ⟨hdrawn, hdrawing, hfed, hfeeding⟩

end Bench

end MarketSketch
