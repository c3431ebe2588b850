import MarketSketch.Board
import MarketSketch.Proofs.Drawing.Reading
import MarketSketch.Proofs.Drawing.Sketch

/-! Runs of a board. Every event acts on the sketch by itself, through the viewport alone, so what
holds of a sketch after each of its operations holds of every board that can be reached. -/

namespace MarketSketch

namespace Turn

variable {σ ρ κ : Type}

def map (t : Turn σ ρ) (f : ρ → κ) : Turn σ κ := ⟨t.state, f t.reply, t.effects⟩

@[simp] theorem map_state (t : Turn σ ρ) (f : ρ → κ) : (t.map f).state = t.state := rfl

end Turn

/-- A store kept in memory or read from storage, and worked on before a board is made on it. -/
inductive Store.Arises : Store → Prop
  | inMemory : Arises {}
  | opened (key : String) (stored : Except Failure (Option String)) :
    Arises (Store.opened key stored).state
  | add {s : Store} (shape : Shape) : Arises s → Arises (s.add shape).state
  | replace {s : Store} (shape : Shape) : Arises s → Arises (s.replace shape).state
  | undo {s : Store} : Arises s → Arises s.undo.state
  | clear {s : Store} : Arises s → Arises s.clear.state

theorem Store.Arises.distinct {s : Store} (h : s.Arises) : s.ids.Nodup := by
  induction h with
  | inMemory => exact List.nodup_nil
  | opened key stored => exact Store.nodup_ids_opened key stored
  | add shape _ ih => exact Store.nodup_ids_add ih shape
  | @replace s shape _ ih =>
    rw [Store.ids, Store.replace_shapes, Store.map_id_overwritten]
    exact ih
  | @undo s _ ih =>
    rw [Store.ids_undo]
    exact ih.sublist (List.dropLast_sublist s.ids)
  | clear _ _ => exact List.nodup_nil

namespace Board

variable {b : Board} {m : Moment} {e : Event}

def Event.onSketch (m : Moment) (v : ChartView) (s : Sketch) : Event → Turn Sketch Reply
  | .down p => (s.pointerDown m v p).map .outcome
  | .move p => (s.pointerMove v p).map .outcome
  | .up p => (s.pointerUp v p).map .outcome
  | .tool t => (s.setTool t).map fun _ => .done
  | .cancel => s.cancel.map .flag
  | .undo => s.undo.map .removed
  | .clear => s.clear.map fun _ => .done
  | .select id => (s.select id).map .flag
  | .clearSelection => ⟨s.clearSelection, .done, []⟩
  | .teardown => s.cancel.map fun _ => .done
  | .viewport _ | .switch _ | .beginSync | .history _ _ | .update _ _ | .analysis _ _
  | .resetEngine => ⟨s, .done, []⟩

def Event.viewAfter (v : ChartView) : Event → ChartView
  | .viewport w => w
  | _ => v

theorem applyAnalysis_state (b : Board) (m : Moment) (t : Ticket) (payload : Json.Value) :
    (b.applyAnalysis m t payload).state =
      if b.isCurrent t then
        { b with
          engine := (Analysis.adapt (b.analysisWindow m) payload).shapes
          needsRedraw := true }
      else b := by
  unfold applyAnalysis
  split <;> rfl

theorem step_sketch (b : Board) (m : Moment) (e : Event) :
    (b.step m e).state.sketch = (e.onSketch m b.view b.sketch).state := by
  cases e with
  | analysis t payload =>
    show (b.applyAnalysis m t payload).state.sketch = b.sketch
    rw [applyAnalysis_state]
    split <;> rfl
  | _ => rfl

theorem step_view (b : Board) (m : Moment) (e : Event) :
    (b.step m e).state.view = e.viewAfter b.view := by
  cases e with
  | analysis t payload =>
    show (b.applyAnalysis m t payload).state.view = b.view
    rw [applyAnalysis_state]
    split <;> rfl
  | _ => rfl

theorem sound_onSketch {s : Sketch} (h : s.Sound) (m : Moment) (v : ChartView) (e : Event) :
    (e.onSketch m v s).state.Sound := by
  cases e with
  | down p => exact h.pointerDown m v p
  | move p => exact h.pointerMove v p
  | up p => exact h.pointerUp v p
  | tool t => exact h.setTool t
  | cancel => exact h.cancel
  | undo => exact h.undo
  | clear => exact Sketch.sound_clear s
  | select id => exact h.select id
  | clearSelection => exact h.clearSelection
  | teardown => exact h.cancel
  | _ => exact h

def run (b : Board) (es : List (Moment × Event)) : Board :=
  es.foldl (fun b op => (b.step op.1 op.2).state) b

@[simp] theorem run_cons (b : Board) (op : Moment × Event) (es : List (Moment × Event)) :
    b.run (op :: es) = (b.step op.1 op.2).state.run es := rfl

/-- Every operation of a board: an event, or one of the two ways to draw it, with any style on any
surface. -/
inductive Action where
  | event (m : Moment) (e : Event)
  | render {σ : Type} (style : Style) (surface : Surface σ) (start : σ)
  | renderIfNeeded {σ : Type} (style : Style) (surface : Surface σ) (start : σ)

def act (b : Board) : Action → Board
  | .event m e => (b.step m e).state
  | .render style surface start => (b.render style surface start).1
  | .renderIfNeeded style surface start => (b.renderIfNeeded style surface start).1

theorem render_cases {σ : Type} (b : Board) (style : Style) (surface : Surface σ) (start : σ) :
    (∃ n, (b.render style surface start).2.2 = .ok n ∧
      (b.render style surface start).1 = { b with needsRedraw := false }) ∨
    ∃ f, (b.render style surface start).2.2 = .error f ∧ (b.render style surface start).1 = b := by
  unfold render
  rcases b.frame.render style b.view surface start with ⟨drawn, _ | n⟩
  · exact .inr ⟨_, rfl, rfl⟩
  · exact .inl ⟨n, rfl, rfl⟩

theorem renderIfNeeded_of_needed {σ : Type} (h : b.needsRedraw = true) (style : Style)
    (surface : Surface σ) (start : σ) :
    b.renderIfNeeded style surface start =
      ((b.render style surface start).1, (b.render style surface start).2.1,
        (b.render style surface start).2.2.map some) := by
  unfold renderIfNeeded
  rw [if_pos h]

theorem renderIfNeeded_of_upToDate {σ : Type} (h : b.needsRedraw = false) (style : Style)
    (surface : Surface σ) (start : σ) :
    b.renderIfNeeded style surface start = (b, start, .ok none) := by
  unfold renderIfNeeded
  rw [if_neg (by simp [h])]

theorem render_sketch {σ : Type} (b : Board) (style : Style) (surface : Surface σ) (start : σ) :
    (b.render style surface start).1.sketch = b.sketch := by
  rcases b.render_cases style surface start with ⟨_, _, h⟩ | ⟨_, _, h⟩ <;> rw [h]

theorem renderIfNeeded_sketch {σ : Type} (b : Board) (style : Style) (surface : Surface σ)
    (start : σ) : (b.renderIfNeeded style surface start).1.sketch = b.sketch := by
  cases h : b.needsRedraw with
  | true => rw [renderIfNeeded_of_needed h, render_sketch]
  | false => rw [renderIfNeeded_of_upToDate h]

theorem act_sketch (b : Board) (a : Action) :
    (b.act a).sketch =
      match a with
      | .event m e => (e.onSketch m b.view b.sketch).state
      | _ => b.sketch := by
  cases a with
  | event m e => exact b.step_sketch m e
  | render style surface start => exact b.render_sketch style surface start
  | renderIfNeeded style surface start => exact b.renderIfNeeded_sketch style surface start

theorem sound_act (h : b.sketch.Sound) (a : Action) : (b.act a).sketch.Sound := by
  rw [act_sketch]
  cases a with
  | event m e => exact sound_onSketch h m b.view e
  | _ => exact h

theorem sound_opened (c : Config) (stored : Except Failure (Option String)) :
    (opened c stored).state.sketch.Sound :=
  ⟨Store.nodup_ids_opened c.storageKey stored, by simp [opened, Turn.lift, ofStore],
    by simp [opened, Turn.lift, ofStore]⟩

theorem sound_foldl_act (h : b.sketch.Sound) (as : List Action) :
    (as.foldl act b).sketch.Sound := by
  induction as generalizing b with
  | nil => exact h
  | cons a as ih => exact ih (sound_act h a)

/-- It was made on any store that there can be, stored or not, and operated on. -/
def Arises (b : Board) : Prop :=
  ∃ (store : Store) (tolerance : Float) (limit : Nat) (as : List Action),
    store.Arises ∧ b = as.foldl act (ofStore store tolerance limit)

theorem arises_opened (c : Config) (stored : Except Failure (Option String)) (as : List Action) :
    (as.foldl act (opened c stored).state).Arises :=
  ⟨_, c.hitTolerance, c.historyLimit, as, .opened c.storageKey stored, rfl⟩

theorem Arises.sound (h : b.Arises) : b.sketch.Sound := by
  obtain ⟨store, tolerance, limit, as, hstore, rfl⟩ := h
  exact sound_foldl_act ⟨hstore.distinct, by simp [ofStore], by simp [ofStore]⟩ as

end Board

end MarketSketch
