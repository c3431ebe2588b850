import MarketSketch.Proofs.Board.Bench
import MarketSketch.Proofs.Drawing.Gesture

/-! Well-formed boards. Whatever text the drawings were read from, and whatever is refused, a run of
any operations leaves gesture, tool, selection and stored shapes in agreement, as long as the ids
that are handed out are new. -/

namespace MarketSketch

namespace Board

variable {s : Sketch} {m : Moment} {e : Event}

theorem handled_onSketch (h : s.Handled) (v : ChartView)
    (hnew : Effect.takeId ∈ (e.onSketch m v s).effects → m.freshId ∉ s.store.ids) :
    (e.onSketch m v s).state.Handled := by
  cases e with
  | down p => exact h.pointerDown v p hnew
  | move p => exact h.pointerMove v p
  | up p => exact s.handled_pointerUp v p
  | tool t => exact s.handled_setTool t
  | cancel => exact s.handled_cancel
  | undo => exact s.handled_undo
  | clear => exact s.handled_clear
  | select id => exact h.select id
  | clearSelection => exact h.of_same rfl rfl rfl
  | teardown => exact s.handled_cancel
  | _ => exact h

theorem takeId_onSketch {b : Board} (h : Effect.takeId ∈ (e.onSketch m b.view b.sketch).effects) :
    Effect.takeId ∈ (b.step m e).effects := by
  cases e with
  | viewport | switch | beginSync | history | update | analysis | resetEngine =>
    simp [Event.onSketch] at h
  | _ => exact h

end Board

namespace Bench

variable {w : Bench} {op : Op}

def visits (w : Bench) : List Op → List (Bench × Op)
  | [] => []
  | op :: ops => (w, op) :: visits (w.next op) ops

/-- If the operation takes an id, no stored shape has it. -/
def TakesNewId (w : Bench) (op : Op) : Prop :=
  let m := (op.clocked w.desk).moment
  Effect.takeId ∈ op.effects w.board m → m.freshId ∉ w.board.sketch.store.ids

instance (w : Bench) (op : Op) : Decidable (w.TakesNewId op) :=
  inferInstanceAs (Decidable (_ → _))

theorem handled_next (h : w.board.sketch.Handled) (hnew : w.TakesNewId op) :
    (w.next op).board.sketch.Handled := by
  rw [next_sketch]
  cases op with
  | event clock e =>
    exact Board.handled_onSketch h w.board.view fun htake => hnew (Board.takeId_onSketch htake)
  | _ => exact h

theorem sound_handled_after {ops : List Op} (hs : w.board.sketch.Sound)
    (hh : w.board.sketch.Handled) (hnew : ∀ k ∈ w.visits ops, k.1.TakesNewId k.2) :
    (w.after ops).board.sketch.Sound ∧ (w.after ops).board.sketch.Handled := by
  induction ops generalizing w with
  | nil => exact ⟨hs, hh⟩
  | cons op ops ih =>
    have hsound : (w.next op).board.sketch.Sound := Board.sound_act hs _
    have hhandled := handled_next hh (hnew (w, op) List.mem_cons_self)
    exact ih hsound hhandled fun k hk => hnew k (List.mem_cons_of_mem _ hk)

/-- A board is well-formed after every run that was opened on any text, with any reads and writes
refused, if the ids that it takes are new when it takes them. -/
theorem wellFormed_of_new_ids (c : Config) (d : Desk) (ops : List Op)
    (hnew : ∀ k ∈ (opened c d).visits ops, k.1.TakesNewId k.2) :
    ((opened c d).after ops).board.sketch.WellFormed := by
  have hs : (opened c d).board.sketch.Sound := Board.sound_opened c (d.vault.read c.storageKey)
  have hh : (opened c d).board.sketch.Handled := Sketch.handled_of_idle rfl
  obtain ⟨hsound, hhandled⟩ := sound_handled_after hs hh hnew
  exact hsound.wellFormed hhandled

def doubledDesk : Desk :=
  let n := Double.ofNat
  let stored := Archive.encode [⟨"l", 1, none, .level (n 90)⟩, ⟨"l", 2, none, .level (n 10)⟩] 5
  { clock := 0
    vault :=
      { entries := [(defaultStorageKey, stored)]
        writeFault := fun n => if n = 0 then some "full" else none } }

def interruptedDrag : List Op :=
  let n := Double.ofNat
  [.event 7 (.viewport ⟨n 0, n 100, n 0, n 100, n 100, n 100⟩), .event 7 (.tool .level),
    .event 8 (.down ⟨n 10, n 40⟩), .event 9 (.tool .select), .event 9 (.down ⟨n 10, n 10⟩),
    .event 9 (.move ⟨n 10, n 30⟩), .event 9 .teardown, .event 10 (.tool .zone),
    .event 10 (.down ⟨n 20, n 20⟩), .event 11 (.select "l"), .event 11 (.move ⟨n 60, n 50⟩)]

theorem wellFormed_of_new_ids_of_interruptedDrag :
    let n := Double.ofNat
    let s := ((opened {} doubledDesk).after interruptedDrag).board.sketch
    (∀ k ∈ (opened {} doubledDesk).visits interruptedDrag, k.1.TakesNewId k.2) ∧
      s.gesture = .drawing ⟨n 20, n 80⟩ ⟨"shape-2", 10, none, .zone ⟨n 20, n 80⟩ ⟨n 60, n 50⟩⟩ ∧
      s.tool.creates? = some .zone ∧ "shape-2" ∉ s.store.ids ∧ "l" ∈ s.store.ids := by
  have hnew : ∀ k ∈ (opened {} doubledDesk).visits interruptedDrag, k.1.TakesNewId k.2 := by
    decide +kernel
  have hdrawing : ((opened {} doubledDesk).after interruptedDrag).board.sketch.gesture =
      .drawing ⟨Double.ofNat 20, Double.ofNat 80⟩ ⟨"shape-2", 10, none,
        .zone ⟨Double.ofNat 20, Double.ofNat 80⟩ ⟨Double.ofNat 60, Double.ofNat 50⟩⟩ ∧
      ((opened {} doubledDesk).after interruptedDrag).board.sketch.selected = some "l" := by
    decide +kernel
  have hs := wellFormed_of_new_ids {} doubledDesk interruptedDrag hnew
  obtain ⟨htool, -, -, hid⟩ := hs.drawing _ _ hdrawing.1
  exact ⟨hnew, hdrawing.1, htool, hid, hs.selected "l" hdrawing.2⟩

end Bench

end MarketSketch
