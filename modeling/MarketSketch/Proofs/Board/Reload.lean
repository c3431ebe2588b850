import MarketSketch.Proofs.Board.Drag
import MarketSketch.Proofs.Board.WellFormed
import MarketSketch.Proofs.Drawing.Everywhere
import MarketSketch.Proofs.Drawing.RoundTrip

/-! Saving and loading in the middle of a run. The list is loaded as it is as long as no drag has
put its shape beyond the numbers: viewports that lie far apart can make the way of the pointer so
long that a price or a time overflows. -/

namespace MarketSketch

namespace Shape

structure Named (s : Shape) : Prop where
  shows : Text.isBlankText s.id = false
  timed : IsSignedWord s.createdAt

structure Lasting (s : Shape) : Prop extends Named s where
  finite : s.geometry.finite = true

variable {s : Shape} {m : Moment}

theorem named_newShape (hid : Text.isBlankText m.freshId = false) (hnow : IsSignedWord m.now)
    (g : ChartGeometry) : (Sketch.newShape m g).Named := ⟨hid, hnow⟩

theorem Named.withEnd (h : s.Named) (p : ChartPoint) : (s.withEnd p).Named := ⟨h.shows, h.timed⟩

theorem Named.translated (h : s.Named) (dt dp : Float) : (s.translated dt dp).Named :=
  ⟨h.shows, h.timed⟩

theorem Lasting.withEnd (h : s.Lasting) {p : ChartPoint} (hp : p.finite = true) :
    (s.withEnd p).Lasting := ⟨h.toNamed.withEnd p, Geometry.finite_withEnd h.finite hp⟩

theorem Named.storable_iff (h : s.Named) :
    Archive.storable s = true ↔ s.geometry.finite = true := by
  simp [Archive.storable, h.shows]

end Shape

/-- Saved at any time, the list is loaded as it is. -/
def Reloads (shapes : List Shape) : Prop :=
  ∀ savedAt, IsSignedWord savedAt → Archive.shapes (Archive.encode shapes savedAt) = shapes

theorem reloads_iff {shapes : List Shape} (hd : (shapes.map (·.id)).Nodup)
    (hnamed : ∀ s ∈ shapes, s.Named) :
    Reloads shapes ↔ ∀ s ∈ shapes, s.geometry.finite = true := by
  have hread {savedAt : Int} (hat : IsSignedWord savedAt) :
      Archive.shapes (Archive.encode shapes savedAt) = shapes.filter Archive.storable := by
    have hdistinct : ((shapes.filter Archive.storable).map (·.id)).Nodup :=
      hd.sublist (List.filter_sublist.map _)
    rw [Archive.shapes_encode (fun s hs => (hnamed s hs).timed) hat]
    exact Archive.firsts_eq_self hdistinct (by simp)
  have hzero : IsSignedWord 0 := by decide
  constructor
  · intro h s hs
    have hall := List.filter_eq_self.mp ((hread hzero).symm.trans (h 0 hzero))
    exact (hnamed s hs).storable_iff.mp (hall s hs)
  · intro h savedAt hat
    rw [hread hat]
    exact List.filter_eq_self.mpr fun s hs => (hnamed s hs).storable_iff.mpr (h s hs)

namespace Board

open Sketch

variable {P : Shape → Prop} {b : Board} {s : Sketch} {m : Moment} {e : Event}

/-- A pointer event that puts the shape it drags where there is no point of the chart. -/
def flings (b : Board) : Event → Bool
  | .move at_ | .up at_ =>
    match b.sketch.gesture, b.view.toPoint? at_ with
    | .dragging _ anchor snapshot, some p => !(dragged anchor snapshot (some p)).geometry.finite
    | _, _ => false
  | _ => false

theorem everywhere_onSketch (h : s.Everywhere P)
    (hnew : ∀ g : ChartGeometry, g.finite = true → P (newShape m g))
    (hend : ∀ (t : Shape) (p : ChartPoint), P t → p.finite = true → P (t.withEnd p))
    {v : ChartView} (hcarries : ∀ at_ p, e = .move at_ ∨ e = .up at_ → v.toPoint? at_ = some p →
      s.Carries P p) : (e.onSketch m v s).state.Everywhere P := by
  cases e with
  | down at_ => exact h.pointerDown hnew v at_
  | move at_ => exact h.pointerMove hend (fun p hp => hcarries at_ p (.inl rfl) hp)
  | up at_ => exact h.pointerUp hend (fun p hp => hcarries at_ p (.inr rfl) hp)
  | tool t => exact h.setTool t
  | cancel => exact h.cancel
  | undo => exact h.undo
  | clear => exact everywhere_clear P s
  | select id => exact h.select id
  | clearSelection => exact h.of_same rfl rfl
  | teardown => exact h.cancel
  | _ => exact h

theorem carries_of_not_flings (h : b.sketch.Everywhere Shape.Lasting) (he : b.flings e = false)
    {at_ : Pixel} {p : ChartPoint} (hat : e = .move at_ ∨ e = .up at_)
    (hp : b.view.toPoint? at_ = some p) : b.sketch.Carries Shape.Lasting p := by
  intro id anchor snapshot hg
  refine ⟨(h.snapshot hg).toNamed.translated _ _, ?_⟩
  rcases hat with rfl | rfl <;> simpa [flings, hg, hp, dragged] using he

theorem mem_track (h : s.Sound) {id : String} {anchor : ChartPoint} {snapshot : Shape}
    (hg : s.gesture = .dragging id anchor snapshot) (p : ChartPoint) :
    dragged anchor snapshot (some p) ∈ (s.track p).state.store.shapes := by
  obtain ⟨hid, htag⟩ := h.held id anchor snapshot hg
  unfold Sketch.track
  rw [hg]
  dsimp only
  rw [Store.replace_shapes]
  have hmem : snapshot.id ∈ s.store.ids := Store.id_mem_of_tag_mem htag
  exact Store.mem_overwritten_self hmem

theorem mem_release {t : Shape} (h : t ∈ s.store.shapes) : t ∈ s.release.state.store.shapes := by
  unfold Sketch.release
  cases s.gesture with
  | idle => exact h
  | drawing anchor draft =>
    show t ∈ (s.store.add draft).state.shapes
    unfold Store.add
    split
    · exact h
    · exact List.mem_append_left _ h
  | dragging id anchor snapshot => exact h

theorem exists_drag_of_flings (he : b.flings e = true) :
    ∃ at_ p id anchor snapshot, (e = .move at_ ∨ e = .up at_) ∧
      b.view.toPoint? at_ = some p ∧ b.sketch.gesture = .dragging id anchor snapshot ∧
      (dragged anchor snapshot (some p)).geometry.finite = false := by
  unfold flings at he
  split at he
  · rename_i at_
    split at he
    · rename_i hg hp
      exact ⟨at_, _, _, _, _, .inl rfl, hp, hg, by simpa using he⟩
    · cases he
  · rename_i at_
    split at he
    · rename_i hg hp
      exact ⟨at_, _, _, _, _, .inr rfl, hp, hg, by simpa using he⟩
    · cases he
  · cases he

theorem exists_infinite_of_flings (h : b.sketch.Sound) (he : b.flings e = true) :
    ∃ t ∈ (e.onSketch m b.view b.sketch).state.store.shapes, t.geometry.finite = false := by
  obtain ⟨at_, p, id, anchor, snapshot, hat, hp, hg, hinfinite⟩ := exists_drag_of_flings he
  refine ⟨dragged anchor snapshot (some p), ?_, hinfinite⟩
  have htracked := mem_track h hg p
  rcases hat with rfl | rfl
  · show _ ∈ (b.sketch.pointerMove b.view at_).state.store.shapes
    simpa [Sketch.pointerMove, isIdle, hg, Gesture.isIdle, hp] using htracked
  · show _ ∈ (b.sketch.pointerUp b.view at_).state.store.shapes
    simpa [Sketch.pointerUp, hp, Turn.after] using mem_release htracked

end Board

namespace Bench

variable {w : Bench} {op : Op}

def flings (w : Bench) : Op → Bool
  | .event _ e => w.board.flings e
  | _ => false

theorem next_cases (w : Bench) (op : Op) :
    ((w.next op).board.sketch = w.board.sketch ∧ w.flings op = false) ∨
      ∃ (m : Moment) (e : Board.Event), IsSignedWord m.now ∧ (∃ n, w.desk.ids n = m.freshId) ∧
        (w.next op).board.sketch = (e.onSketch m w.board.view w.board.sketch).state ∧
        w.flings op = w.board.flings e := by
  have hnext := w.next_sketch op
  cases op with
  | event clock e =>
    exact .inr ⟨((Op.event clock e).clocked w.desk).moment, e, isSignedWord_signedWord clock,
      ⟨w.desk.drawn + 1, rfl⟩, hnext, rfl⟩
  | _ => exact .inl ⟨hnext, rfl⟩

theorem named_next (hids : ∀ n, Text.isBlankText (w.desk.ids n) = false)
    (h : w.board.sketch.Everywhere Shape.Named) :
    (w.next op).board.sketch.Everywhere Shape.Named := by
  rcases w.next_cases op with ⟨hsame, -⟩ | ⟨m, e, hnow, ⟨n, hid⟩, hnext, -⟩
  · exact hsame ▸ h
  · rw [hnext]
    have hshows : Text.isBlankText m.freshId = false := hid ▸ hids n
    exact Board.everywhere_onSketch h (fun g _ => Shape.named_newShape hshows hnow g)
      (fun t p ht _ => ht.withEnd p)
      (fun at_ p _ _ id anchor snapshot hg => (h.snapshot hg).translated _ _)

theorem lasting_next (hids : ∀ n, Text.isBlankText (w.desk.ids n) = false)
    (h : w.board.sketch.Everywhere Shape.Lasting) (hop : w.flings op = false) :
    (w.next op).board.sketch.Everywhere Shape.Lasting := by
  rcases w.next_cases op with ⟨hsame, -⟩ | ⟨m, e, hnow, ⟨n, hid⟩, hnext, hflings⟩
  · exact hsame ▸ h
  · rw [hnext]
    have hshows : Text.isBlankText m.freshId = false := hid ▸ hids n
    exact Board.everywhere_onSketch h (fun g hg => ⟨Shape.named_newShape hshows hnow g, hg⟩)
      (fun t p ht hp => ht.withEnd hp)
      (fun at_ p hat hp => Board.carries_of_not_flings h (hflings ▸ hop) hat hp)

theorem exists_infinite_next (hs : w.board.sketch.Sound) (hop : w.flings op = true) :
    ∃ s ∈ (w.next op).board.shapes, s.geometry.finite = false := by
  rcases w.next_cases op with ⟨-, hstill⟩ | ⟨m, e, -, -, hnext, hflings⟩
  · rw [hstill] at hop
    cases hop
  · rw [Board.shapes, hnext]
    exact Board.exists_infinite_of_flings hs (hflings ▸ hop)

theorem lasting_opened (c : Config) (d : Desk) :
    (opened c d).board.sketch.Everywhere Shape.Lasting := by
  refine .of_idle (fun s hs => ?_) rfl
  have hloaded : s ∈ (Store.loaded (d.vault.read c.storageKey)).1 := hs
  unfold Store.loaded at hloaded
  split at hloaded
  · obtain ⟨hstorable, htimed⟩ := Archive.of_mem_shapes hloaded
    obtain ⟨hshows, hfinite⟩ := Bool.and_eq_true_iff.mp hstorable
    exact ⟨⟨by simpa using hshows, htimed⟩, hfinite⟩
  · cases hloaded
  · cases hloaded

theorem sound_after (hs : w.board.sketch.Sound) (ops : List Op) :
    (w.after ops).board.sketch.Sound := by
  induction ops generalizing w with
  | nil => exact hs
  | cons op ops ih => exact ih (Board.sound_act hs _)

theorem named_after (hids : ∀ n, Text.isBlankText (w.desk.ids n) = false)
    (h : w.board.sketch.Everywhere Shape.Named) (ops : List Op) :
    (w.after ops).board.sketch.Everywhere Shape.Named := by
  induction ops generalizing w with
  | nil => exact h
  | cons op ops ih =>
    have hids' : ∀ n, Text.isBlankText ((w.next op).desk.ids n) = false := by rwa [next_ids]
    exact ih hids' (named_next hids h)

theorem finite_after_iff (hids : ∀ n, Text.isBlankText (w.desk.ids n) = false)
    (hs : w.board.sketch.Sound) (h : w.board.sketch.Everywhere Shape.Lasting) (ops : List Op) :
    (∀ past, past <+: ops → ∀ s ∈ (w.after past).board.shapes, s.geometry.finite = true) ↔
      ∀ k ∈ w.visits ops, k.1.flings k.2 = false := by
  induction ops generalizing w with
  | nil =>
    refine iff_of_true (fun past hpast => ?_) (by simp [visits])
    rw [List.prefix_nil.mp hpast]
    exact fun s hs => (h.stored s hs).finite
  | cons op ops ih =>
    have hids' : ∀ n, Text.isBlankText ((w.next op).desk.ids n) = false := by rwa [next_ids]
    have hs' : (w.next op).board.sketch.Sound := Board.sound_act hs _
    constructor
    · intro hpast
      have hop : w.flings op = false := by
        by_contra hflings
        obtain ⟨s, hmem, hinfinite⟩ :=
          exists_infinite_next hs (Bool.eq_true_of_not_eq_false hflings)
        have hfinite := hpast [op] (List.prefix_append [op] ops) s hmem
        rw [hinfinite] at hfinite
        cases hfinite
      have hrest := (ih hids' hs' (lasting_next hids h hop)).mp fun past hprefix =>
        hpast (op :: past) (List.prefix_cons_inj op |>.mpr hprefix)
      intro k hk
      rcases List.mem_cons.mp hk with rfl | hk
      · exact hop
      · exact hrest k hk
    · intro hvisits past hprefix
      have hop : w.flings op = false := hvisits (w, op) List.mem_cons_self
      rcases List.prefix_cons_iff.mp hprefix with rfl | ⟨past, rfl, hrest⟩
      · exact fun s hs => (h.stored s hs).finite
      · exact (ih hids' hs' (lasting_next hids h hop)).mpr
          (fun k hk => hvisits k (List.mem_cons_of_mem _ hk)) past hrest

/-- Opened on any text, refused or not, and operated on through any viewports: at every moment the
list is loaded as it would be saved exactly if all its shapes have a place on the chart, and that is
so at all moments of a run exactly if no drag flings its shape. -/
theorem reloads_unless_flung (c : Config) (d : Desk) (ops : List Op)
    (hids : ∀ n, Text.isBlankText (d.ids n) = false) :
    (Reloads ((opened c d).after ops).board.shapes ↔
        ∀ s ∈ ((opened c d).after ops).board.shapes, s.geometry.finite = true) ∧
      ((∀ past, past <+: ops → Reloads ((opened c d).after past).board.shapes) ↔
        ∀ k ∈ (opened c d).visits ops, k.1.flings k.2 = false) := by
  have hs : (opened c d).board.sketch.Sound := Board.sound_opened c (d.vault.read c.storageKey)
  have hlasting := lasting_opened c d
  have hnamed : (opened c d).board.sketch.Everywhere Shape.Named :=
    ⟨fun s hs => (hlasting.stored s hs).toNamed, fun s hs => (hlasting.inHand s hs).toNamed⟩
  have hdesk : ∀ n, Text.isBlankText ((opened c d).desk.ids n) = false := by
    rwa [show (opened c d).desk.ids = d.ids from Desk.performAll_ids d _]
  have hreloads (past : List Op) : Reloads ((opened c d).after past).board.shapes ↔
      ∀ s ∈ ((opened c d).after past).board.shapes, s.geometry.finite = true :=
    reloads_iff (sound_after hs past).distinct (named_after hdesk hnamed past).stored
  refine ⟨hreloads ops, ?_⟩
  simp only [hreloads]
  exact finite_after_iff hdesk hs hlasting ops

def strokes (n : Nat) : String := String.ofList (List.replicate (n + 1) '|')

theorem strokes_injective : Function.Injective strokes := by
  intro n k h
  have hlength := congrArg String.length h
  simpa [strokes] using hlength

theorem isBlankText_strokes (n : Nat) : Text.isBlankText (strokes n) = false := by
  simp [Text.isBlankText, strokes, List.replicate_succ, Text.isBlank]

theorem reloads_unless_flung_of_interruptedDrag :
    let d := { doubledDesk with ids := strokes }
    (∀ n, Text.isBlankText (d.ids n) = false) ∧
      ∀ past, past <+: interruptedDrag → Reloads ((opened {} d).after past).board.shapes := by
  intro d
  have hstill : ∀ k ∈ (opened {} d).visits interruptedDrag, k.1.flings k.2 = false := by
    decide +kernel
  exact ⟨isBlankText_strokes,
    (reloads_unless_flung {} d interruptedDrag isBlankText_strokes).2.mpr hstill⟩

def farPrice (negative : Bool) (k : Nat) : Float := Double.ofDecimal negative ⟨k, 306⟩

def farView (negative : Bool) (bottom top : Nat) : ChartView :=
  ⟨Double.ofNat 0, Double.ofNat 100, farPrice negative bottom, farPrice negative top,
    Double.ofNat 100, Double.ofNat 100⟩

def farDesk : Desk where
  clock := 0
  ids := strokes
  vault := { entries :=
    [(defaultStorageKey, Archive.encode [⟨"a", 1, none, .level (farPrice true 165)⟩] 0)] }

def farDrag : List Op :=
  let middle : Pixel := ⟨Double.ofNat 50, Double.ofNat 50⟩
  [.event 0 (.viewport (farView true 170 160)), .event 0 (.down middle),
    .event 0 (.viewport (farView false 160 170)), .event 0 (.move middle)]

theorem flung_shape_not_reloaded :
    ¬ ∀ (c : Config) (d : Desk) (ops : List Op), (∀ n, Text.isBlankText (d.ids n) = false) →
      Function.Injective d.ids → Reloads ((opened c d).after ops).board.shapes := by
  intro h
  have hloaded := h {} farDesk farDrag isBlankText_strokes strokes_injective 0 (by decide)
  exact absurd (congrArg List.length hloaded) (by decide +kernel)

end Bench

end MarketSketch
