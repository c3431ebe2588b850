import MarketSketch.Config
import MarketSketch.Drawing.Analysis
import MarketSketch.Drawing.Sketch
import MarketSketch.Feed.LiveFeed
import MarketSketch.Paint.Compositor

/-!
The board: the user's sketch, the analysis layer, the viewport and the candle feed, with a flag that
says whether the picture is out of date. Drawing and feeding are independent: an analysis replaces
only its own layer, a gesture touches only the sketch. `Board.step` is every operation but drawing.
-/

namespace MarketSketch

/-- What the overlay shows. The candles and the analysis belong to a symbol; the sketch does not. -/
structure Board where
  sketch : Sketch
  engine : List EngineShape := []
  bridge : Bridge := {}
  guard : Guard := {}
  feed : LiveFeed
  needsRedraw : Bool := true

namespace Board

def ofStore (store : Store) (tolerance : Float) (limit : Nat) : Board :=
  { sketch := { store := store, tolerance := tolerance }, feed := { limit := limit } }

def opened (c : Config) (stored : Except Failure (Option String)) : Turn Board Unit :=
  (Store.opened c.storageKey stored).lift fun store => ofStore store c.hitTolerance c.historyLimit

def view (b : Board) : ChartView := b.bridge.viewport

def shapes (b : Board) : List Shape := b.sketch.store.shapes

def candles (b : Board) : List Candle := b.feed.candles

def touched (b : Board) (changed : Bool) : Board :=
  { b with needsRedraw := b.needsRedraw || changed }

def sketched {ρ : Type} (b : Board) (t : Turn Sketch ρ) (changed : ρ → Bool) : Turn Board ρ :=
  t.lift fun s => { b with sketch := s }.touched (changed t.reply)

def setViewport (b : Board) (v : ChartView) : Board :=
  { b with bridge := b.bridge.report v, needsRedraw := true }

def pointerDown (b : Board) (m : Moment) (p : Pixel) : Turn Board Outcome :=
  b.sketched (b.sketch.pointerDown m b.view p) Outcome.changed

def pointerMove (b : Board) (p : Pixel) : Turn Board Outcome :=
  b.sketched (b.sketch.pointerMove b.view p) Outcome.changed

def pointerUp (b : Board) (p : Pixel) : Turn Board Outcome :=
  b.sketched (b.sketch.pointerUp b.view p) Outcome.changed

def setTool (b : Board) (t : Tool) : Turn Board Unit :=
  b.sketched (b.sketch.setTool t) fun _ => true

def cancelGesture (b : Board) : Turn Board Bool :=
  b.sketched b.sketch.cancel fun changed => changed

def undo (b : Board) : Turn Board (Option Shape) :=
  b.sketched b.sketch.undo Option.isSome

def clearAll (b : Board) : Turn Board Unit :=
  b.sketched b.sketch.clear fun _ => true

def select (b : Board) (id : String) : Turn Board Bool :=
  b.sketched (b.sketch.select id) fun changed => changed

def clearSelection (b : Board) : Board :=
  { b with sketch := b.sketch.clearSelection, needsRedraw := true }

def resetEngine (b : Board) : Board := { b with engine := [], needsRedraw := true }

def switchSymbol (b : Board) (s : Symbol) : Board × Ticket :=
  let (guard, feed, t) := b.feed.switch b.guard s
  ({ b.resetEngine with guard := guard, feed := feed }, t)

def isCurrent (b : Board) (t : Ticket) : Bool := b.guard.isCurrent t

def currentTicket? (b : Board) : Option Ticket := b.feed.current? b.guard

def symbol? (b : Board) : Option Symbol := b.feed.symbol? b.guard

def applyHistory (b : Board) (t : Ticket) (candles : List Candle) : Turn Board Bool :=
  let r := b.feed.load b.guard t candles
  r.lift fun feed => { b with feed := feed }.touched r.reply

/-- Takes a streamed candle, unless it is outdated. One that the candles refuse changes nothing. -/
def applyUpdate (b : Board) (t : Ticket) (c : Candle) : Turn Board (Option FeedUpdate) :=
  let r := b.feed.update b.guard t c
  r.lift fun feed => { b with feed := feed }.touched (r.reply.any FeedUpdate.applied)

def seconds (m : Moment) : Float := Double.ofInt m.now / Double.ofNat 1000

def analysisWindow (b : Board) (m : Moment) : Analysis.Window :=
  Analysis.Window.over b.feed.buffer.span? (seconds m) m.now

def applyAnalysis (b : Board) (m : Moment) (t : Ticket) (payload : Json.Value) :
    Turn Board (Option Analysis.Adaptation) :=
  if b.isCurrent t then
    let a := Analysis.adapt (b.analysisWindow m) payload
    ⟨{ b with engine := a.shapes, needsRedraw := true }, some a, a.notes.map .note⟩
  else
    ⟨b, none, [.note ⟨.debug, .application, "ChartOverlay",
      "discarding stale annotations for " ++ t.symbol.name⟩]⟩

def teardown (b : Board) : Turn Board Unit :=
  let c := b.sketch.cancel
  let (guard, feed) := b.feed.stop b.guard
  ⟨{ b with sketch := c.state, guard := guard, feed := feed }.resetEngine, (), c.effects⟩

/-- The picture to draw: the analysis below, then the user's shapes, then the draft. -/
def frame (b : Board) : Frame :=
  { engine := b.engine
    user := b.shapes
    draft? := b.sketch.gesture.draft?
    selected := b.sketch.selected }

/-- Draws the picture. A frame that failed stays out of date. -/
def render {σ : Type} (b : Board) (s : Style) (surface : Surface σ) (start : σ) :
    Board × σ × Except Failure Nat :=
  match b.frame.render s b.view surface start with
  | (drawn, .ok n) => ({ b with needsRedraw := false }, drawn, .ok n)
  | (drawn, .error f) => (b, drawn, .error f)

def renderIfNeeded {σ : Type} (b : Board) (s : Style) (surface : Surface σ) (start : σ) :
    Board × σ × Except Failure (Option Nat) :=
  if b.needsRedraw then
    let (b, drawn, r) := b.render s surface start
    (b, drawn, r.map some)
  else (b, start, .ok none)

inductive Event where
  | viewport (v : ChartView)
  | down (p : Pixel)
  | move (p : Pixel)
  | up (p : Pixel)
  | tool (t : Tool)
  | cancel
  | undo
  | clear
  | select (id : String)
  | clearSelection
  | switch (s : Symbol)
  | beginSync
  | history (t : Ticket) (candles : List Candle)
  | update (t : Ticket) (c : Candle)
  | analysis (t : Ticket) (payload : Json.Value)
  | resetEngine
  | teardown

inductive Reply where
  | done
  | flag (b : Bool)
  | outcome (o : Outcome)
  | removed (s : Option Shape)
  | ticket (t : Option Ticket)
  | updated (u : Option FeedUpdate)
  | adapted (a : Option Analysis.Adaptation)
deriving DecidableEq

def answered {ρ : Type} (t : Turn Board ρ) (reply : ρ → Reply) : Turn Board Reply :=
  ⟨t.state, reply t.reply, t.effects⟩

def step (b : Board) (m : Moment) : Event → Turn Board Reply
  | .viewport v => ⟨b.setViewport v, .done, []⟩
  | .down p => answered (b.pointerDown m p) .outcome
  | .move p => answered (b.pointerMove p) .outcome
  | .up p => answered (b.pointerUp p) .outcome
  | .tool t => answered (b.setTool t) fun _ => .done
  | .cancel => answered b.cancelGesture .flag
  | .undo => answered b.undo .removed
  | .clear => answered b.clearAll fun _ => .done
  | .select id => answered (b.select id) .flag
  | .clearSelection => ⟨b.clearSelection, .done, []⟩
  | .switch s =>
    let (b, t) := b.switchSymbol s
    ⟨b, .ticket (some t), []⟩
  | .beginSync => ⟨b, .ticket b.currentTicket?, []⟩
  | .history t candles => answered (b.applyHistory t candles) .flag
  | .update t c => answered (b.applyUpdate t c) .updated
  | .analysis t payload => answered (b.applyAnalysis m t payload) .adapted
  | .resetEngine => ⟨b.resetEngine, .done, []⟩
  | .teardown => answered b.teardown fun _ => .done

end Board

end MarketSketch
