import MarketSketch.Page.Stream

/-!
The page's task queue and the events of the world. A task runs until it waits or ends; tasks are
taken from the front, and one that wakes goes to the back. `Page.drain` runs until none is ready.
-/

namespace MarketSketch

/-- How much a ready task can still set off before all tasks wait. -/
def Task.work : Task → Nat
  | .effect _ => 12
  | .enter _ _ | .load _ _ => 6
  | .history _ _ _ => 8
  | .sync _ | .analysis _ _ _ => 2
  | .stream _ => 2

mutual

def Listener.work : Listener → Nat
  | ⟨_, calls, _⟩ => Listener.workOfAll calls

def Listener.workOfAll : List (HostCall Listener) → Nat
  | [] => 0
  | c :: rest => Listener.workOf c + Listener.workOfAll rest

def Listener.workOf : HostCall Listener → Nat
  | .load text => Task.work (.enter 0 text)
  | .sync => Task.work (.sync (.caller 0))
  | .listen l => Listener.workOfNext l
  | _ => 0

def Listener.workOfNext : Option Listener → Nat
  | none => 0
  | some l => Listener.work l

end

namespace Page

def enter (p : Page) (place : Nat) (text : String) : Page :=
  match Symbol.entered text with
  | .error reason => { p with results := p.results.set place (.refused reason) }
  | .ok s => p.beginLoad (.caller place) s

def enterPanelSymbol (p : Page) : Page :=
  match Symbol.entered p.panel.symbolText with
  | .error reason => { p with panel := { p.panel with status := reason } }
  | .ok s => p.spawn (.load .panel s)

def runEffect (p : Page) : PanelEffect → Page
  | .viewport => (p.operate (.viewport p.panel.viewport)).1
  | .tool => (p.operate (.tool p.panel.tool)).1
  | .symbol => p.enterPanelSymbol

def run (p : Page) (t : Task) : Page :=
  match t with
  | .enter place text => p.enter place text
  | .load c s => p.beginLoad c s
  | .history c ticket request =>
    match p.answer? request with
    | some a => p.finishLoad c ticket a
    | none => p.suspend t
  | .sync c => p.beginSync c
  | .analysis c ticket request =>
    match p.answer? request with
    | some a => p.finishSync c ticket a
    | none => p.suspend t
  | .stream id => p.runStream id
  | .effect e => p.runEffect e

def runNext (p : Page) : Page :=
  match p.ready with
  | [] => p
  | t :: rest => { p with ready := rest }.run t

def work (p : Page) : Nat :=
  (p.ready.map Task.work).foldl (· + ·) 0 + (if p.slot.active.isSome then 4 else 0) +
    (p.streams.map (·.inbox.length)).foldl (· + ·) 0 * Listener.workOfNext p.listener

/-- Runs ready tasks until none is left. Every turn leaves less work. -/
def drain (p : Page) : Page :=
  if p.ready.isEmpty then p
  else
    let next := p.runNext
    if next.work < p.work then drain next else next
termination_by p.work

def respond (p : Page) (request : Nat) (a : Answer) : Page × Bool :=
  match p.requests[request]? with
  | some r =>
    if r.answer?.isSome then (p, false)
    else
      let p := { p with requests := p.requests.set request { r with answer? := some a } }
      (p.wake fun
        | .history _ _ n | .analysis _ _ n => n = request
        | _ => false, true)
  | none => (p, false)

def streamOn? (p : Page) (socket : Nat) : Option Nat :=
  p.streams.findIdx? (·.phase = .listening socket)

def deliver (p : Page) (socket : Nat) (e : SocketEvent) : Page × Bool :=
  if (p.sockets[socket]?).any (·.isOpen) then
    match p.streamOn? socket with
    | some id =>
      let received (s : LiveStream) : LiveStream := { s with inbox := s.inbox ++ [e] }
      ({ p with streams := p.streams.modify id received }.wake (· = Task.stream id), true)
    | none => (p, true)
  else (p, false)

def tick (p : Page) : Page :=
  { p with ready := p.ready ++ (p.timers.filter (·.isActive)).map fun _ => .sync .timer }

def setClock (p : Page) (now : UInt64) : Page := { p with desk := { p.desk with clock := now } }

end Page

end MarketSketch
