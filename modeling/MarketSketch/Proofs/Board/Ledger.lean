import MarketSketch.Proofs.Board.WellFormed

/-! The user's drawings as a stack. Whoever keeps count of the calls of a board, their answers and
the clock knows the tags of all drawings, whatever gestures and refused writes there were. -/

namespace MarketSketch

/-- What is known from outside: the tags on the stack, the tool in hand, and when a draft was last
begun. -/
structure Ledger where
  tags : List Tag
  tool : Tool := .select
  begun : Int := 0

namespace Ledger

def push (l : Ledger) (id : String) (createdAt : Int) : Ledger :=
  { l with tags := l.tags ++ (l.tool.creates?.map fun kind => ⟨id, createdAt, none, kind⟩).toList }

/-- A creation and a commit push, an undo that gives a shape back pops. -/
def note (l : Ledger) (now : Int) : Board.Event → Board.Reply → Ledger
  | _, .outcome (.created id) => l.push id now
  | _, .outcome .draftStarted => { l with begun := now }
  | _, .outcome (.committed id) => l.push id l.begun
  | _, .removed (some _) => { l with tags := l.tags.dropLast }
  | .clear, _ => { l with tags := [] }
  | .tool t, _ => { l with tool := t }
  | _, _ => l

structure Tallies (l : Ledger) (s : Sketch) : Prop where
  tags : s.store.tags = l.tags
  tool : s.tool = l.tool
  begun : ∀ anchor draft, s.gesture = .drawing anchor draft →
    draft.createdAt = l.begun ∧ draft.label = none

end Ledger

namespace Sketch

variable {s : Sketch} {m : Moment}

@[simp] theorem cancel_tool (s : Sketch) : s.cancel.state.tool = s.tool := by
  unfold cancel
  split <;> rfl

@[simp] theorem track_tool (s : Sketch) (p : ChartPoint) : (s.track p).state.tool = s.tool := by
  unfold track
  split <;> rfl

@[simp] theorem pruned_tool (s : Sketch) : s.pruned.tool = s.tool := by
  unfold pruned
  split
  · split <;> rfl
  · rfl

theorem select_tool (s : Sketch) (id : String) : (s.select id).state.tool = s.tool := by
  unfold select
  split <;> rfl

theorem undo_tags (h : s.Sound) : s.undo.state.store.tags = s.store.tags.dropLast := by
  rw [← cancel_tags h, undo, pruned_store]
  simp only [withStore, Store.tags, Store.undo_shapes, List.map_dropLast]

theorem undo_reply_tag (h : s.Sound) : s.undo.reply.map Shape.tag = s.store.tags.getLast? := by
  rw [← cancel_tags h, undo]
  simp only [Store.undo_reply, Store.tags, List.getLast?_map]

theorem creates?_of_created {v : ChartView} {at_ : Pixel} {id : String}
    (h : (s.pointerDown m v at_).reply = .created id) : s.tool.creates? = some .level := by
  unfold pointerDown at h
  split at h
  · cases h
  · split at h
    · cases h
    · rename_i p _
      split at h
      · rcases s.grab_cases v at_ p with ⟨shape, _, _, hgrab⟩ | hgrab <;> rw [hgrab] at h <;>
          cases h
      · assumption
      · cases h

end Sketch

namespace Ledger

variable {l : Ledger} {s : Sketch} {m : Moment}

theorem Tallies.of_idle (h : l.Tallies s) {t : Sketch} (htags : t.store.tags = s.store.tags)
    (htool : t.tool = s.tool) (hidle : t.gesture = .idle) : l.Tallies t :=
  ⟨htags.trans h.tags, htool.trans h.tool, by simp [hidle]⟩

theorem Tallies.of_same (h : l.Tallies s) {t : Sketch} (hstore : t.store = s.store)
    (htool : t.tool = s.tool) (hgesture : t.gesture = s.gesture) : l.Tallies t :=
  ⟨hstore ▸ h.tags, htool.trans h.tool, hgesture ▸ h.begun⟩

theorem Tallies.cancel (h : l.Tallies s) (hs : s.Sound) : l.Tallies s.cancel.state :=
  h.of_idle (Sketch.cancel_tags hs) (Sketch.cancel_tool s) (Sketch.cancel_gesture s)

theorem Tallies.setTool (h : l.Tallies s) (hs : s.Sound) (t : Tool) :
    Tallies { l with tool := t } (s.setTool t).state := by
  have hc := h.cancel hs
  exact ⟨hc.tags, rfl, hc.begun⟩

section Pointer

variable {v : ChartView} {p : Pixel}

theorem push_of_creates {kind : ShapeKind} (h : l.tool.creates? = some kind) (id : String)
    (createdAt : Int) :
    l.push id createdAt = { l with tags := l.tags ++ [⟨id, createdAt, none, kind⟩] } := by
  simp [push, h]

theorem Tallies.down (h : l.Tallies s)
    (hnew : Effect.takeId ∈ (s.pointerDown m v p).effects → m.freshId ∉ s.store.ids) :
    (l.note m.now (.down p) (.outcome (s.pointerDown m v p).reply)).Tallies
      (s.pointerDown m v p).state := by
  have hcreates : ∀ id, (s.pointerDown m v p).reply = .created id →
      l.tool.creates? = some .level := fun id hid => h.tool ▸ Sketch.creates?_of_created hid
  rcases s.pointerDown_cases m v p with
    heq | ⟨hidle, q, _, heq | ⟨kind, _, _, heq⟩ | ⟨_, heq⟩⟩ <;> rw [heq] at hnew hcreates ⊢
  · exact h
  · have hid : m.freshId ∉ s.store.ids := hnew (by simp [Sketch.placeLevel])
    have hpush := push_of_creates (hcreates _ rfl) m.freshId m.now
    show (l.push m.freshId m.now).Tallies _
    rw [hpush]
    refine ⟨?_, h.tool, by simp [Sketch.placeLevel, hidle]⟩
    show (s.store.add (Sketch.newShape m (.level q.price))).state.tags = _
    rw [Store.tags_add_of_notMem hid, h.tags]
    rfl
  · refine ⟨h.tags, h.tool, ?_⟩
    intro anchor draft hg
    cases hg
    exact ⟨rfl, rfl⟩
  · rcases s.grab_cases v p q with ⟨shape, _, _, hgrab⟩ | hgrab <;> rw [hgrab]
    · exact ⟨h.tags, h.tool, by simp⟩
    · exact h.of_idle rfl rfl hidle

theorem Tallies.track (h : l.Tallies s) (hs : s.Sound) (q : ChartPoint) :
    l.Tallies (s.track q).state := by
  refine ⟨(Sketch.track_tags hs q).trans h.tags, (Sketch.track_tool s q).trans h.tool, ?_⟩
  intro anchor draft hg
  unfold Sketch.track at hg
  split at hg
  · rename_i hidle
    simp [hidle] at hg
  · rename_i hdrawing
    cases hg
    obtain ⟨htime, hlabel⟩ := h.begun _ _ hdrawing
    exact ⟨htime, hlabel⟩
  · rename_i id anchor' snapshot hdragging
    simp [hdragging] at hg

theorem note_track (l : Ledger) (now : Int) (s : Sketch) (q : ChartPoint) :
    l.note now (.move p) (.outcome (s.track q).reply) = l := by
  unfold Sketch.track
  split <;> rfl

theorem Tallies.move (h : l.Tallies s) (hs : s.Sound) (now : Int) :
    (l.note now (.move p) (.outcome (s.pointerMove v p).reply)).Tallies
      (s.pointerMove v p).state := by
  rcases s.pointerMove_cases v p with heq | ⟨_, q, _, heq⟩ <;> rw [heq]
  · exact h
  · rw [note_track]
    exact h.track hs q

theorem Tallies.release (h : l.Tallies s) (hh : s.Handled) (now : Int) :
    (l.note now (.up p) (.outcome s.release.reply)).Tallies s.release.state := by
  unfold Sketch.release
  split
  · exact h
  · rename_i anchor draft hg
    obtain ⟨hcreates, -, hnew⟩ := hh.drawing anchor draft hg
    obtain ⟨hbegun, hlabel⟩ := h.begun anchor draft hg
    have hpush := push_of_creates (h.tool ▸ hcreates) draft.id l.begun
    show (l.push draft.id l.begun).Tallies _
    rw [hpush]
    refine ⟨?_, h.tool, by simp⟩
    show (s.store.add draft).state.tags = _
    rw [Store.tags_add_of_notMem hnew, h.tags, Shape.tag, hbegun, hlabel]
  · exact h.of_idle rfl rfl rfl

theorem Tallies.up (h : l.Tallies s) (hs : s.Sound) (hh : s.Handled) (now : Int) :
    (l.note now (.up p) (.outcome (s.pointerUp v p).reply)).Tallies (s.pointerUp v p).state := by
  rcases s.pointerUp_eq v p with heq | ⟨q, _, heq⟩ <;> rw [heq]
  · exact h.release hh now
  · exact (h.track hs q).release (hh.track q) now

end Pointer

theorem Tallies.undo (h : l.Tallies s) (hs : s.Sound) (now : Int) :
    (l.note now .undo (.removed s.undo.reply)).Tallies s.undo.state := by
  have hpopped : Tallies { l with tags := l.tags.dropLast } s.undo.state := by
    refine ⟨(Sketch.undo_tags hs).trans (congrArg _ h.tags), ?_, ?_⟩
    · simpa [Sketch.undo, Sketch.withStore] using h.tool
    · simp [Sketch.undo, Sketch.pruned_gesture, Sketch.withStore]
  cases hr : s.undo.reply with
  | some shape => exact hpopped
  | none =>
    have hlast : l.tags.getLast? = none := by
      rw [← h.tags, ← Sketch.undo_reply_tag hs, hr, Option.map_none]
    have hnil : l.tags = [] := List.getLast?_eq_none_iff.mp hlast
    have htags := hpopped.tags
    rw [hnil] at htags
    exact ⟨htags.trans hnil.symm, hpopped.tool, hpopped.begun⟩

theorem Tallies.clear (h : l.Tallies s) : Tallies { l with tags := [] } s.clear.state := by
  refine ⟨?_, ?_, ?_⟩
  · simp [Sketch.clear, Sketch.pruned_store, Sketch.withStore, Store.clear, Store.changed,
      Store.tags]
  · simpa [Sketch.clear, Sketch.withStore] using h.tool
  · simp [Sketch.clear, Sketch.pruned_gesture, Sketch.withStore]

theorem Tallies.onSketch (h : l.Tallies s) (hs : s.Sound) (hh : s.Handled) (v : ChartView)
    (e : Board.Event)
    (hnew : Effect.takeId ∈ (e.onSketch m v s).effects → m.freshId ∉ s.store.ids) :
    (l.note m.now e (e.onSketch m v s).reply).Tallies (e.onSketch m v s).state := by
  cases e with
  | down p => exact h.down hnew
  | move p => exact h.move hs m.now
  | up p => exact h.up hs hh m.now
  | tool t => exact h.setTool hs t
  | cancel => exact h.cancel hs
  | undo => exact h.undo hs m.now
  | clear => exact h.clear
  | select id =>
    obtain ⟨hgesture, hstore⟩ := s.select_kept id
    exact h.of_same hstore (Sketch.select_tool s id) hgesture
  | clearSelection => exact h.of_same rfl rfl rfl
  | teardown => exact h.cancel hs
  | _ => exact h

theorem note_step (l : Ledger) (now : Int) (b : Board) (m : Moment) (e : Board.Event) :
    l.note now e (b.step m e).reply = l.note now e (e.onSketch m b.view b.sketch).reply := by
  cases e <;> rfl

end Ledger

namespace Bench

variable {w : Bench} {op : Op}

def told? (w : Bench) : Op → Option (Int × Board.Event × Board.Reply)
  | .event clock e =>
    let m := ((Op.event clock e).clocked w.desk).moment
    some (signedWord clock, e, (w.board.step m e).reply)
  | .render _ _ _ | .renderIfNeeded _ _ _ => none

def transcript (w : Bench) (ops : List Op) : List (Int × Board.Event × Board.Reply) :=
  (w.visits ops).filterMap fun k => k.1.told? k.2

end Bench

namespace Ledger

variable {l : Ledger} {w : Bench}

def follow (l : Ledger) (told : List (Int × Board.Event × Board.Reply)) : Ledger :=
  told.foldl (fun l t => l.note t.1 t.2.1 t.2.2) l

def loaded (stored : Except Failure (Option String)) : Ledger :=
  { tags := (Store.loaded stored).1.map Shape.tag }

theorem Tallies.next (h : l.Tallies w.board.sketch) (hs : w.board.sketch.Sound)
    (hh : w.board.sketch.Handled) {op : Bench.Op} (hnew : w.TakesNewId op) :
    (l.follow (w.told? op).toList).Tallies (w.next op).board.sketch := by
  rw [Bench.next_sketch]
  cases op with
  | event clock e =>
    let m := ((Bench.Op.event clock e).clocked w.desk).moment
    show (l.note m.now e (w.board.step m e).reply).Tallies _
    rw [note_step]
    exact h.onSketch hs hh w.board.view e fun htake => hnew (Board.takeId_onSketch htake)
  | _ => exact h

theorem follow_transcript_cons (l : Ledger) (w : Bench) (op : Bench.Op) (ops : List Bench.Op) :
    l.follow (w.transcript (op :: ops)) =
      (l.follow (w.told? op).toList).follow ((w.next op).transcript ops) := by
  unfold Bench.transcript
  rw [Bench.visits, List.filterMap_cons]
  cases w.told? op <;> rfl

theorem Tallies.after (h : l.Tallies w.board.sketch) (hs : w.board.sketch.Sound)
    (hh : w.board.sketch.Handled) {ops : List Bench.Op}
    (hnew : ∀ k ∈ w.visits ops, k.1.TakesNewId k.2) :
    (l.follow (w.transcript ops)).Tallies (w.after ops).board.sketch := by
  induction ops generalizing l w with
  | nil => exact h
  | cons op ops ih =>
    have hfirst : w.TakesNewId op := hnew (w, op) List.mem_cons_self
    rw [follow_transcript_cons]
    exact ih (h.next hs hh hfirst) (Board.sound_act hs _) (Bench.handled_next hh hfirst)
      fun k hk => hnew k (List.mem_cons_of_mem _ hk)

theorem tallies_opened (c : Config) (d : Desk) :
    (loaded (d.vault.read c.storageKey)).Tallies (Bench.opened c d).board.sketch :=
  ⟨rfl, rfl, fun _ _ hg => nomatch hg⟩

end Ledger

namespace Bench

/-- The drawings are a stack that only answers move: a creation or a commit pushes, an undo pops and
gives back what it popped, clearing empties. All else, of any outcome, leaves it as it is; and
undoing and clearing leave the analysis as it is. -/
theorem tags_eq_ledger (c : Config) (d : Desk) (ops : List Op)
    (hnew : ∀ k ∈ (opened c d).visits ops, k.1.TakesNewId k.2) :
    let b := ((opened c d).after ops).board
    let l := (Ledger.loaded (d.vault.read c.storageKey)).follow ((opened c d).transcript ops)
    b.sketch.store.tags = l.tags ∧
      ∀ m : Moment,
        (∃ popped, (b.step m .undo).reply = .removed popped ∧
          popped.map Shape.tag = l.tags.getLast?) ∧
        (b.step m .undo).state.engine = b.engine ∧ (b.step m .clear).state.engine = b.engine := by
  intro b l
  have hs : (opened c d).board.sketch.Sound := Board.sound_opened c (d.vault.read c.storageKey)
  have hh : (opened c d).board.sketch.Handled := Sketch.handled_of_idle rfl
  have htallies : l.Tallies b.sketch := (Ledger.tallies_opened c d).after hs hh hnew
  have hsound : b.sketch.Sound := (sound_handled_after hs hh hnew).1
  refine ⟨htallies.tags, fun m => ⟨⟨b.sketch.undo.reply, rfl, ?_⟩, rfl, rfl⟩⟩
  rw [Sketch.undo_reply_tag hsound, htallies.tags]

def undoneDrag : List Op :=
  let n := Double.ofNat
  interruptedDrag ++ [.event 12 (.up ⟨n 60, n 50⟩), .event 13 (.tool .select),
    .event 13 (.down ⟨n 10, n 10⟩), .event 14 (.move ⟨n 10, n 30⟩), .event 15 .undo]

theorem tags_eq_ledger_of_undoneDrag :
    let b := ((opened {} doubledDesk).after undoneDrag).board
    let l := (Ledger.loaded (doubledDesk.vault.read defaultStorageKey)).follow
      ((opened {} doubledDesk).transcript undoneDrag)
    (∀ k ∈ (opened {} doubledDesk).visits undoneDrag, k.1.TakesNewId k.2) ∧
      l.tags = [⟨"l", 1, none, .level⟩, ⟨"shape-1", 8, none, .level⟩] ∧
      b.sketch.store.tags = l.tags ∧
      ∀ m : Moment,
        (∃ popped, (b.step m .undo).reply = .removed popped ∧
          popped.map Shape.tag = l.tags.getLast?) ∧
        (b.step m .undo).state.engine = b.engine ∧
        (b.step m .clear).state.engine = b.engine := by
  intro b l
  have hnew : ∀ k ∈ (opened {} doubledDesk).visits undoneDrag, k.1.TakesNewId k.2 := by
    decide +kernel
  have hl : l.tags = [⟨"l", 1, none, .level⟩, ⟨"shape-1", 8, none, .level⟩] := by
    decide +kernel
  exact ⟨hnew, hl, tags_eq_ledger {} doubledDesk undoneDrag hnew⟩

end Bench

end MarketSketch
