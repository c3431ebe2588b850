import MarketSketch.Page.Load

/-!
Calls of the host on the overlay. A load or a sync is a task that has its first turn later; all else
is done at once.
-/

namespace MarketSketch.Page

def applyPayload (p : Page) (payload : Json.Value) : Except String (Page × Nat) :=
  match p.board.currentTicket? with
  | none => .error "No symbol loaded"
  | some t =>
    let (p, adapted) := p.update (p.board.applyAnalysis p.moment t payload)
    .ok (p, (adapted.map (·.shapes.length)).getD 0)

def reserve (p : Page) : Page × Nat :=
  ({ p with results := p.results ++ [.pending] }, p.results.length)

def requestEntered (p : Page) (text : String) : Page :=
  let (p, place) := p.reserve
  p.spawn (.enter place text)

def requestLoad (p : Page) (s : Symbol) : Page :=
  let (p, place) := p.reserve
  p.spawn (.load (.caller place) s)

def requestSync (p : Page) : Page :=
  let (p, place) := p.reserve
  p.spawn (.sync (.caller place))

/-- What a call does. One that is refused throws at the host and leaves the page as it was. -/
def call (p : Page) : HostCall Listener → Page
  | .operate e _ => (p.operate e).1
  | .payload v =>
    match p.applyPayload v with
    | .ok (q, _) => q
    | .error _ => p
  | .load text => p.requestEntered text
  | .sync => p.requestSync
  | .attach id =>
    match p.attachCanvas id with
    | .ok q => q
    | .error _ => p
  | .render => p.renderNow
  | .listen l => { p with listener := l }
  | .teardown => p.teardown

end MarketSketch.Page
