import MarketSketch.Market.Wire
import MarketSketch.Net.Route
import MarketSketch.Net.Token
import MarketSketch.Page.Draw
import MarketSketch.Page.Query

/-!
Loads and syncs. Both ask the server and wait; what comes back carries the ticket of the session
that asked, so that an answer that is late changes nothing.
-/

namespace MarketSketch.Page

def tokenReadings (p : Page) (param key : String) : List TokenReading :=
  [⟨"query", p.host.parameter? param⟩, .stored "session" p.session key,
    .stored "local" p.desk.vault key]

def fetch (p : Page) (places : List TokenReading) (url : String) : Page × Nat :=
  let (token, notes) := chooseToken places
  let headers := ("Accept", "application/json") ::
    (token.map fun t => ("Authorization", "Bearer " ++ t)).toList
  ({ p.noteAll notes with requests := p.requests ++ [⟨url, headers, none⟩] }, p.requests.length)

def places (p : Page) : List TokenReading :=
  match p.storage with
  | .areaOfPage => p.tokenReadings p.config.tokenParam p.config.tokenStorageKey
  | .memory => []

def fetchNote (s : Symbol) (t : Timeframe) : Log.Note :=
  ⟨.info, .infrastructure, "OverlayHttp",
    "📡 Fetching candles for " ++ s.name ++ " (" ++ t.name ++ ")"⟩

def loadedNote (s : Symbol) (count : Nat) : Log.Note :=
  ⟨.info, .infrastructure, "OverlayHttp",
    "✅ Loaded " ++ toString count ++ " candles for " ++ s.name⟩

def document (a : Answer) : Except Failure Json.Value :=
  match a with
  | .failed name message =>
    .error (.network ("Failed to send request: JsError(" ++ thrownError name message ++ ")"))
  | .response status text body =>
    if 200 ≤ status && status ≤ 299 then
      match Json.Value.ofText? body with
      | some v => .ok v
      | none => .error (.parse .answer)
    else .error (.network ("HTTP error: " ++ toString status ++ " - " ++ text))

def candlesOf (a : Answer) : Except Failure (List Candle) := (document a).bind candlesOfHistory

def askCandles (p : Page) (places : List TokenReading) (base : String) (s : Symbol) (t : Timeframe)
    (limit : Nat) : Page × Nat :=
  (p.note (fetchNote s t)).fetch places (Route.candles base s t limit)

def askAnalysis (p : Page) (places : List TokenReading) (base : String) (s : Symbol) : Page × Nat :=
  p.fetch places (Route.annotations base s)

def takeCandles (p : Page) (s : Symbol) (a : Answer) : Page × Except Failure (List Candle) :=
  match candlesOf a with
  | .ok candles => (p.note (loadedNote s candles.length), .ok candles)
  | .error f => (p, .error f)

def answer? (p : Page) (request : Nat) : Option Answer := p.requests[request]?.bind (·.answer?)

def fail (p : Page) (t : Ticket) (f : Failure) : Page :=
  let p := p.note (failureNote f)
  if p.board.isCurrent t then { p with status := f.message } else p

def abort (p : Page) (stream : Option Nat) : Page :=
  match stream with
  | none => p
  | some id =>
    let aborted (s : LiveStream) : LiveStream := { s with aborted := true }
    { p with streams := p.streams.modify id aborted }.wake (· = Task.stream id)

def releaseStream (p : Page) : Page :=
  let t := p.slot.release
  ({ p with slot := t.state }.abort t.reply).performAll t.effects

def startStream (p : Page) (t : Ticket) : Page :=
  let id := p.streams.length
  let stream : LiveStream := { ticket := t }
  let p := spawn { p with streams := p.streams ++ [stream] } (.stream id)
  let a := p.slot.attach t.symbol id
  ({ p with slot := a.state }.abort a.reply).performAll a.effects

def teardown (p : Page) : Page :=
  let p := p.releaseStream
  let (p, _) := p.update p.board.teardown
  { p with status := "Idle" }

def showStatus (p : Page) : Page :=
  if p.panel.mounted then { p with panel := { p.panel with status := p.status } } else p

def settle (p : Page) (c : Client) (r : Except Failure Nat) : Page :=
  match c, r with
  | .caller place, .ok n => { p with results := p.results.set place (.done n) }
  | .caller place, .error f => { p with results := p.results.set place (.failed f) }
  | .panel, _ | .panelSync, _ => p.showStatus
  | .timer, .ok _ => p
  | .timer, .error f =>
    p.note ⟨.debug, .presentation, "OverlayCanvas", "periodic sync skipped: " ++ f.message⟩

def beginSync (p : Page) (c : Client) : Page :=
  match p.board.currentTicket? with
  | none => p.settle c (.error (.validation "no symbol loaded"))
  | some t =>
    let (p, request) := p.askAnalysis p.places p.config.apiBaseUrl t.symbol
    p.suspend (.analysis c t request)

def finishSync (p : Page) (c : Client) (t : Ticket) (a : Answer) : Page :=
  match document a with
  | .error f => (p.fail t f).settle c (.error f)
  | .ok payload =>
    let (p, adapted) := p.update (p.board.applyAnalysis p.moment t payload)
    p.settle c (.ok ((adapted.map (·.shapes.length)).getD 0))

/-- Starts a session: what was displayed is released, then its history is asked for. -/
def beginLoad (p : Page) (c : Client) (s : Symbol) : Page :=
  let (board, t) := p.board.switchSymbol s
  let p := { p with board := board }.releaseStream.redraw
  let p := { p with status := "Loading " ++ s.name ++ "..." }
  let settings := p.config
  let (p, request) := p.askCandles p.places settings.apiBaseUrl s settings.timeframe
    settings.historyLimit
  p.suspend (.history c t request)

def settleLoad (p : Page) (c : Client) (r : Except Failure Nat) : Page :=
  match c, r with
  | .panel, .ok _ => p.beginSync .panelSync
  | _, _ => p.settle c r

/-- Takes the answer to a load. A history that is late is dropped. -/
def finishLoad (p : Page) (c : Client) (t : Ticket) (a : Answer) : Page :=
  match p.takeCandles t.symbol a with
  | (p, .error f) => (p.fail t f).settleLoad c (.error f)
  | (p, .ok candles) =>
    let (p, applied) := p.step (p.board.applyHistory t candles)
    if applied then
      let count := p.board.candles.length
      let p := p.redraw.startStream t
      let status := t.symbol.name ++ ": " ++ toString count ++ " candles, live"
      { p with status := status }.settleLoad c (.ok count)
    else p.settleLoad c (.ok 0)

end MarketSketch.Page
