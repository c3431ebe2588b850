import MarketSketch.Proofs.Drawing.Saving

/-! Edits of the list of shapes. Every operation of the sketch changes its store by a short list of
edits, which its gesture and its tool decide. Each edit that takes effect asks for one write, of the
list right after it, and nothing else asks for any. -/

namespace MarketSketch

inductive Edit where
  | add (shape : Shape)
  | replace (shape : Shape)
  | undo
  | clear
deriving DecidableEq

namespace Edit

variable {s : Store} {e : Edit}

def on (s : Store) : Edit → Store
  | .add shape => (s.add shape).state
  | .replace shape => (s.replace shape).state
  | .undo => s.undo.state
  | .clear => s.clear.state

def asks (s : Store) : Edit → List Effect
  | .add shape => (s.add shape).effects
  | .replace shape => (s.replace shape).effects
  | .undo => s.undo.effects
  | .clear => s.clear.effects

/-- Clearing counts even where there is nothing to clear. -/
def takesEffect (s : Store) : Edit → Bool
  | .add shape => decide (shape.id ∉ s.ids)
  | .replace shape => decide (shape.id ∈ s.ids)
  | .undo => !s.shapes.isEmpty
  | .clear => true

theorem asks_of_takesEffect (h : e.takesEffect s = true) : e.asks s = (e.on s).saving := by
  cases e with
  | add shape =>
    have habsent : shape.id ∉ s.ids := by simpa [takesEffect] using h
    simp [asks, on, Store.add, habsent, Store.changed]
  | replace shape =>
    have hpresent : shape.id ∈ s.ids := by simpa [takesEffect] using h
    simp [asks, on, Store.replace, hpresent, Store.changed]
  | undo =>
    have hne : s.shapes ≠ [] := by simpa [takesEffect] using h
    simp [asks, on, Store.undo, List.getLast?_eq_some_getLast hne, Store.changed]
  | clear => rfl

theorem of_not_takesEffect (h : e.takesEffect s = false) : e.on s = s ∧ e.asks s = [] := by
  cases e with
  | add shape =>
    have hpresent : shape.id ∈ s.ids := by simpa [takesEffect] using h
    simp [asks, on, Store.add, hpresent]
  | replace shape =>
    have habsent : shape.id ∉ s.ids := by simpa [takesEffect] using h
    simp [asks, on, Store.replace, habsent]
  | undo =>
    have hnil : s.shapes = [] := by simpa [takesEffect] using h
    simp [asks, on, Store.undo, hnil]
  | clear => simp [takesEffect] at h

theorem on_key? (s : Store) (e : Edit) : (e.on s).key? = s.key? := by
  cases e with
  | add shape => exact (Store.writes_add s shape).1
  | replace shape => exact (Store.writes_replace s shape).1
  | undo =>
    show s.undo.state.key? = s.key?
    unfold Store.undo
    split <;> rfl
  | clear => rfl

end Edit

namespace Store

variable {s : Store}

def edited (s : Store) (es : List Edit) : Store := es.foldl (fun s e => e.on s) s

def copies (s : Store) : List Edit → List (List Shape)
  | [] => []
  | e :: es =>
    let t := e.on s
    if e.takesEffect s then t.shapes :: copies t es else copies t es

theorem edited_append (s : Store) (es es' : List Edit) :
    s.edited (es ++ es') = (s.edited es).edited es' := List.foldl_append

theorem copies_append (s : Store) (es es' : List Edit) :
    s.copies (es ++ es') = s.copies es ++ (s.edited es).copies es' := by
  induction es generalizing s with
  | nil => rfl
  | cons e es ih =>
    have hrest := ih (e.on s)
    simp only [List.cons_append, copies, hrest]
    split <;> rfl

theorem edited_key? (s : Store) (es : List Edit) : (s.edited es).key? = s.key? := by
  induction es generalizing s with
  | nil => rfl
  | cons e es ih => exact (ih (e.on s)).trans (Edit.on_key? s e)

theorem asks_eq_copies {key : String} (hkey : s.key? = some key) (e : Edit) :
    e.asks s = (s.copies [e]).map (.write key) := by
  cases he : e.takesEffect s with
  | true =>
    have hnew : (e.on s).key? = some key := (Edit.on_key? s e).trans hkey
    simp [Edit.asks_of_takesEffect he, copies, he, saving, hnew]
  | false => simp [(Edit.of_not_takesEffect he).2, copies, he]

end Store

namespace Sketch

variable {s : Sketch} {key : String} {ρ σ : Type} {t : Turn Sketch ρ}

/-- A step that changes the list by these edits and asks for a write after each that takes effect,
and for no other. -/
structure MadeOf (key : String) (s : Sketch) (es : List Edit) (t : Turn Sketch ρ) : Prop where
  store : t.state.store = s.store.edited es
  writes : Effect.writes t.effects = (s.store.copies es).map (.write key)

theorem MadeOf.key? {es : List Edit} (h : s.MadeOf key es t) :
    t.state.store.key? = s.store.key? := by
  rw [h.store, Store.edited_key?]

theorem MadeOf.nothing (hstore : t.state.store = s.store) (hwrites : Effect.writes t.effects = []) :
    s.MadeOf key [] t := ⟨hstore, hwrites⟩

theorem MadeOf.single (hkey : s.store.key? = some key) {e : Edit}
    (hstore : t.state.store = e.on s.store)
    (heffects : Effect.writes t.effects = Effect.writes (e.asks s.store)) : s.MadeOf key [e] t := by
  refine ⟨hstore, ?_⟩
  rw [heffects, Store.asks_eq_copies hkey]
  exact List.filter_eq_self.mpr fun x hx => by
    obtain ⟨copy, -, rfl⟩ := List.mem_map.mp hx
    rfl

theorem MadeOf.append {es es' : List Edit} (h : s.MadeOf key es t) {u : Turn Sketch σ}
    (h' : t.state.MadeOf key es' u) {v : Turn Sketch σ}
    (hstore : v.state.store = u.state.store) (heffects : v.effects = t.effects ++ u.effects) :
    s.MadeOf key (es ++ es') v := by
  constructor
  · rw [hstore, h'.store, h.store, Store.edited_append]
  · have hsplit : Effect.writes v.effects = Effect.writes t.effects ++ Effect.writes u.effects := by
      rw [heffects]
      exact List.filter_append ..
    rw [hsplit, h.writes, h'.writes, h.store, Store.copies_append, List.map_append]

section Operations

def cancelEdits (s : Sketch) : List Edit :=
  match s.gesture with
  | .dragging _ _ snapshot => [.replace snapshot]
  | _ => []

def pressEdits (s : Sketch) (m : Moment) (v : ChartView) (at_ : Pixel) : List Edit :=
  match s.gesture, s.tool, v.toPoint? at_ with
  | .idle, .level, some p => [.add (newShape m (.level p.price))]
  | _, _, _ => []

def trackEdits (s : Sketch) (p : ChartPoint) : List Edit :=
  match s.gesture with
  | .dragging _ anchor snapshot =>
    [.replace (snapshot.translated (p.time - anchor.time) (p.price - anchor.price))]
  | _ => []

def moveEdits (s : Sketch) (v : ChartView) (at_ : Pixel) : List Edit :=
  match v.toPoint? at_ with
  | some p => s.trackEdits p
  | none => []

def releaseEdits (s : Sketch) : List Edit :=
  match s.gesture with
  | .drawing _ draft => [.add draft]
  | _ => []

def upEdits (s : Sketch) (v : ChartView) (at_ : Pixel) : List Edit :=
  match v.toPoint? at_ with
  | some p => s.trackEdits p ++ (s.track p).state.releaseEdits
  | none => s.releaseEdits

theorem madeOf_cancel (hkey : s.store.key? = some key) : s.MadeOf key s.cancelEdits s.cancel := by
  unfold cancel cancelEdits
  cases s.gesture with
  | idle => exact .nothing rfl rfl
  | drawing anchor draft => exact .nothing rfl rfl
  | dragging id anchor snapshot => exact .single hkey rfl rfl

theorem madeOf_setTool (hkey : s.store.key? = some key) (tool : Tool) :
    s.MadeOf key s.cancelEdits (s.setTool tool) := by
  obtain ⟨hstore, hwrites⟩ := madeOf_cancel hkey
  exact ⟨hstore, hwrites⟩

theorem madeOf_pointerDown (hkey : s.store.key? = some key) (m : Moment) (v : ChartView)
    (at_ : Pixel) : s.MadeOf key (s.pressEdits m v at_) (s.pointerDown m v at_) := by
  unfold pointerDown pressEdits isIdle
  cases s.gesture with
  | drawing anchor draft => exact .nothing rfl rfl
  | dragging id anchor snapshot => exact .nothing rfl rfl
  | idle =>
    cases v.toPoint? at_ with
    | none => cases s.tool <;> exact .nothing rfl rfl
    | some p =>
      cases s.tool with
      | level => exact .single hkey rfl rfl
      | trendline => exact .nothing rfl rfl
      | zone => exact .nothing rfl rfl
      | select =>
        rcases s.grab_cases v at_ p with ⟨shape, -, -, hgrab⟩ | hgrab
        · exact .nothing (congrArg (·.state.store) hgrab) (congrArg (Effect.writes ·.effects) hgrab)
        · exact .nothing (congrArg (·.state.store) hgrab) (congrArg (Effect.writes ·.effects) hgrab)

theorem madeOf_track (hkey : s.store.key? = some key) (p : ChartPoint) :
    s.MadeOf key (s.trackEdits p) (s.track p) := by
  unfold track trackEdits
  cases s.gesture with
  | idle => exact .nothing rfl rfl
  | drawing anchor draft => exact .nothing rfl rfl
  | dragging id anchor snapshot => exact .single hkey rfl rfl

theorem madeOf_pointerMove (hkey : s.store.key? = some key) (v : ChartView)
    (at_ : Pixel) : s.MadeOf key (s.moveEdits v at_) (s.pointerMove v at_) := by
  have htrack := madeOf_track hkey
  unfold pointerMove moveEdits isIdle
  cases hg : s.gesture with
  | idle =>
    have hnone (p : ChartPoint) : s.trackEdits p = [] := by rw [trackEdits, hg]
    cases v.toPoint? at_ with
    | none => exact .nothing rfl rfl
    | some p =>
      dsimp only
      rw [hnone]
      exact .nothing rfl rfl
  | drawing anchor draft =>
    cases v.toPoint? at_ with
    | none => exact .nothing rfl rfl
    | some p => exact htrack p
  | dragging id anchor snapshot =>
    cases v.toPoint? at_ with
    | none => exact .nothing rfl rfl
    | some p => exact htrack p

theorem madeOf_release (hkey : s.store.key? = some key) :
    s.MadeOf key s.releaseEdits s.release := by
  unfold release releaseEdits
  cases s.gesture with
  | idle => exact .nothing rfl rfl
  | drawing anchor draft => exact .single hkey rfl rfl
  | dragging id anchor snapshot => exact .nothing rfl rfl

theorem madeOf_pointerUp (hkey : s.store.key? = some key) (v : ChartView)
    (at_ : Pixel) : s.MadeOf key (s.upEdits v at_) (s.pointerUp v at_) := by
  unfold pointerUp upEdits
  cases v.toPoint? at_ with
  | none => exact madeOf_release hkey
  | some p =>
    have htrack := madeOf_track hkey p
    exact htrack.append (madeOf_release (htrack.key?.trans hkey)) rfl rfl

theorem madeOf_after_cancel (hkey : s.store.key? = some key) (e : Edit)
    (hstore : t.state.store = e.on s.cancel.state.store)
    (heffects : t.effects = s.cancel.effects ++ e.asks s.cancel.state.store) :
    s.MadeOf key (s.cancelEdits ++ [e]) t := by
  have hcancel := madeOf_cancel hkey
  let u : Turn Sketch ρ := ⟨t.state, t.reply, e.asks s.cancel.state.store⟩
  have hedit : s.cancel.state.MadeOf key [e] u :=
    .single (hcancel.key?.trans hkey) hstore rfl
  exact hcancel.append hedit rfl heffects

theorem madeOf_undo (hkey : s.store.key? = some key) :
    s.MadeOf key (s.cancelEdits ++ [.undo]) s.undo :=
  madeOf_after_cancel hkey .undo (pruned_store _) rfl

theorem madeOf_clear (hkey : s.store.key? = some key) :
    s.MadeOf key (s.cancelEdits ++ [.clear]) s.clear :=
  madeOf_after_cancel hkey .clear (pruned_store _) rfl

theorem madeOf_select (s : Sketch) (id : String) : s.MadeOf key [] (s.select id) := by
  refine .nothing (s.select_kept id).2 ?_
  unfold select
  split <;> rfl

end Operations

end Sketch

end MarketSketch
