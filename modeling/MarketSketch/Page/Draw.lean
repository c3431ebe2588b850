import MarketSketch.Page.State

/-!
Drawing on the page's screen, and board operations with the redraw that follows them.
-/

namespace MarketSketch.Page

def drawWith (p : Page)
    (draw : ∀ {σ : Type}, Surface σ → σ → Board × σ × Option Failure) : Page :=
  let noted (p : Page) (f : Option Failure) : Page := p.noteAll (f.map failureNote).toList
  match p.screen with
  | none => p
  | some (.recorder r) =>
    let (board, r, f) := draw Recorder.surface r
    noted { p with board := board, screen := some (.recorder r) } f
  | some (.canvas id) =>
    let (board, c, f) := draw (Canvas.surface p.host.drawFault?) (p.canvas id)
    noted ({ p with board := board }.setCanvas id c) f

def failure? {α : Type} : Except Failure α → Option Failure
  | .ok _ => none
  | .error f => some f

def renderNow (p : Page) : Page :=
  p.drawWith fun surface start =>
    let (b, s, r) := p.board.render p.config.style surface start
    (b, s, failure? r)

def redraw (p : Page) : Page :=
  p.drawWith fun surface start =>
    let (b, s, r) := p.board.renderIfNeeded p.config.style surface start
    (b, s, failure? r)

def attach (p : Page) (s : Screen) : Page := { p with screen := some s }.renderNow

def attachCanvas (p : Page) (id : String) : Except Failure Page :=
  match p.host.canvas id with
  | .error f => .error f
  | .ok () => .ok ((p.setCanvas id (p.canvas id).taken).attach (.canvas id))

def step {ρ : Type} (p : Page) (t : Turn Board ρ) : Page × ρ :=
  ({ p with board := t.state }.performAll t.effects, t.reply)

def update {ρ : Type} (p : Page) (t : Turn Board ρ) : Page × ρ :=
  let (p, r) := p.step t
  (p.redraw, r)

def operate (p : Page) (e : Board.Event) : Page × Board.Reply :=
  p.update (p.board.step p.moment e)

end MarketSketch.Page
