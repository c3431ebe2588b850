import MarketSketch.Market.Wire
import MarketSketch.Page.Call

/-!
Live streams. A message is one candle; if the feed takes it the picture is redrawn and the listener
is called. A stream that was aborted ends before it reads on and drops its socket.
-/

namespace MarketSketch.Page

def listen (p : Page) (l : Listener) (c : Candle) : Page :=
  let p := l.calls.foldl call { p with heard := (l, c) :: p.heard }
  match l.throws with
  | some reason =>
    p.note ⟨.warn, .presentation, "ChartOverlayApi", "candle listener threw: " ++ reason⟩
  | none => p

def announce (p : Page) : Page :=
  match p.board.feed.buffer.last?, p.listener with
  | some c, some l => p.listen l c
  | _, _ => p

def receive (p : Page) (t : Ticket) (text : String) : Page :=
  match candleOfMessage text with
  | .error f =>
    p.note ⟨.warn, .application, "OverlayRuntime", "unreadable stream message: " ++ f.message⟩
  | .ok c =>
    let (p, r) := p.step (p.board.applyUpdate t c)
    if r.any FeedUpdate.applied then p.redraw.announce else p

def streamEnded (p : Page) (t : Ticket) (f : Option Failure) : Page :=
  if p.board.isCurrent t then
    { p with status := match f with
        | none => t.symbol.name ++ ": stream closed"
        | some f => f.message }
  else p

def streamNote (level : Log.Level) (text : String) : Log.Note :=
  ⟨level, .infrastructure, "LiveStream", text⟩

def endOf? : SocketEvent → Option (Option Failure)
  | .text _ | .bytes => none
  | .finished => some none
  | .error => some (some (.network "WebSocket error: ConnectionError"))
  | .closed code reason clean =>
    some (some (.network ("WebSocket error: ConnectionClose(CloseEvent \x7b code: " ++
      toString code ++ ", reason: " ++ Text.quoted reason ++ ", was_clean: " ++
      (if clean then "true" else "false") ++ " \x7d)")))

def setStream (p : Page) (id : Nat) (s : LiveStream) : Page :=
  { p with streams := p.streams.set id s }

def dropSocket (p : Page) (s : LiveStream) : Page :=
  match s.phase with
  | .listening socket =>
    let shut (s : Socket) : Socket := { s with isOpen := false }
    { p with sockets := p.sockets.modify socket shut }
  | _ => p

def closeStream (p : Page) (id : Nat) : Page :=
  match p.streams[id]? with
  | some s => (p.dropSocket s).setStream id { s with phase := .over, inbox := [] }
  | none => p

def abortStream (p : Page) (id : Nat) (t : Ticket) : Page :=
  (p.closeStream id).note (streamNote .debug ("stream for " ++ t.symbol.name ++ " aborted"))

def finishStream (p : Page) (id : Nat) (t : Ticket) (f : Option Failure) : Page :=
  let p := match f with
    | none => p.note (streamNote .info ("🔌 Stream for " ++ t.symbol.name ++ " closed"))
    | some _ => p
  let p := p.closeStream id
  let p := match f with
    | none => p
    | some f => p.note (streamNote .error ("❌ " ++ t.symbol.name ++ ": " ++ f.message))
  p.streamEnded t f

def readEvents (id : Nat) (t : Ticket) : List SocketEvent → Page → Page
  | [], p =>
    if (p.streams[id]?).any (·.aborted) then p.abortStream id t else p.suspend (.stream id)
  | e :: rest, p =>
    match endOf? e with
    | some f => p.finishStream id t f
    | none =>
      match e with
      | .text text => readEvents id t rest (p.receive t text)
      | _ => readEvents id t rest p

def connect (p : Page) (id : Nat) (s : LiveStream) : Page :=
  let url := Route.stream p.config.streamUrlTemplate s.ticket.symbol
  let p := p.note (streamNote .info ("🔌 Connecting to " ++ url))
  if p.host.socketsRefused then
    p.finishStream id s.ticket (some (.network ("Failed to open WebSocket: " ++
      thrownError "SyntaxError" ("The URL '" ++ url ++ "' is invalid."))))
  else
    let phase := StreamPhase.listening p.sockets.length
    let p := { p with sockets := p.sockets ++ [Socket.mk url true] }
    (p.setStream id { s with phase := phase }).suspend (.stream id)

def runStream (p : Page) (id : Nat) : Page :=
  match p.streams[id]? with
  | none => p
  | some s =>
    match s.phase with
    | .over => p
    | .starting => if s.aborted then p.abortStream id s.ticket else p.connect id s
    | .listening _ =>
      if s.aborted then p.abortStream id s.ticket
      else readEvents id s.ticket s.inbox (p.setStream id { s with inbox := [] })

end MarketSketch.Page
