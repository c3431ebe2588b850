import MarketSketch.Feed.StreamSlot
import MarketSketch.Page.Canvas
import MarketSketch.Page.Listener

/-!
A page with one overlay on it: the board and what belongs to it (status, stream, surface, listener),
what the page holds (canvases, requests, sockets, timers), and the tasks that are ready or wait.
-/

namespace MarketSketch

inductive Answer where
  | response (status : Nat) (text body : String)
  | failed (name message : String)
deriving DecidableEq, Repr

structure Request where
  url : String
  headers : List (String × String)
  answer? : Option Answer := none
deriving DecidableEq, Repr

structure Socket where
  url : String
  isOpen : Bool := true
deriving DecidableEq, Repr

inductive SocketEvent where
  | text (text : String)
  | bytes
  | error
  | closed (code : Nat) (reason : String) (clean : Bool)
  | finished
deriving DecidableEq, Repr

inductive StreamPhase where
  | starting
  | listening (socket : Nat)
  | over
deriving DecidableEq, Repr

structure LiveStream where
  ticket : Ticket
  aborted : Bool := false
  phase : StreamPhase := .starting
  inbox : List SocketEvent := []
deriving DecidableEq, Repr

structure Timer where
  interval : Nat
  isActive : Bool := true
deriving DecidableEq, Repr

/-- Who waits for a load or a sync: a caller with a place for the result, the mounted panel (which
syncs after a load), or the panel's timer. -/
inductive Client where
  | caller (place : Nat)
  | panel
  | panelSync
  | timer
deriving DecidableEq, Repr

inductive PanelEffect where
  | viewport
  | tool
  | symbol
deriving DecidableEq, Repr

inductive Task where
  | enter (place : Nat) (text : String)
  | load (c : Client) (s : Symbol)
  | history (c : Client) (t : Ticket) (request : Nat)
  | sync (c : Client)
  | analysis (c : Client) (t : Ticket) (request : Nat)
  | stream (id : Nat)
  | effect (e : PanelEffect)
deriving DecidableEq, Repr

inductive Settlement where
  | pending
  | done (count : Nat)
  | failed (f : Failure)
  | refused (reason : String)
deriving DecidableEq, Repr

inductive Screen where
  | recorder (r : Recorder)
  | canvas (id : String)

structure Panel where
  viewport : ChartView := Viewport.initial
  tool : Tool := .select
  symbolText : String := ""
  status : String := "Idle"
  mounted : Bool := false

inductive Storage where
  | areaOfPage
  | memory
deriving DecidableEq, Repr

/-- The whole page; requests, sockets, streams, timers and results are known by their places. -/
structure Page where
  host : Host := {}
  config : Config := {}
  storage : Storage := .areaOfPage
  desk : Desk
  session : Vault := {}
  board : Board
  status : String := "Idle"
  slot : StreamSlot := {}
  screen : Option Screen := none
  listener : Option Listener := none
  heard : List (Listener × Candle) := []
  canvases : List (String × Canvas) := []
  requests : List Request := []
  sockets : List Socket := []
  streams : List LiveStream := []
  timers : List Timer := []
  captures : List Int := []
  results : List Settlement := []
  ready : List Task := []
  waiting : List Task := []
  panel : Panel := {}

namespace Page

def governed (p : Page) (h : Host) : Page :=
  { p with
    host := h
    session := h.governed .sessionArea p.session
    desk := match p.storage with
      | .areaOfPage => { p.desk with vault := h.governed .localArea p.desk.vault }
      | .memory => p.desk }

def area (p : Page) : Area → Vault
  | .localArea => p.desk.vault
  | .sessionArea => p.session

def setArea (p : Page) (a : Area) (v : Vault) : Page :=
  match a with
  | .localArea => { p with desk := { p.desk with vault := v } }
  | .sessionArea => { p with session := v }

def opened (h : Host) (c : Config) (storage : Storage) (desk : Desk) (session : Vault) : Page :=
  let blank : Page :=
    { config := c, storage := storage, desk := desk, session := session
      board := Board.ofStore {} c.hitTolerance c.historyLimit }
  let p := blank.governed h
  let t := Board.opened c (p.desk.vault.read c.storageKey)
  { p with board := t.state, desk := p.desk.performAll t.effects }

def note (p : Page) (n : Log.Note) : Page := { p with desk := p.desk.note n }

def noteAll (p : Page) (ns : List Log.Note) : Page := { p with desk := p.desk.noteAll ns }

def performAll (p : Page) (es : List Effect) : Page := { p with desk := p.desk.performAll es }

def moment (p : Page) : Moment := p.desk.moment

def failureNote (f : Failure) : Log.Note :=
  ⟨.error, .application, "OverlayRuntime", "❌ " ++ f.message⟩

def spawn (p : Page) (t : Task) : Page := { p with ready := p.ready ++ [t] }

def suspend (p : Page) (t : Task) : Page := { p with waiting := p.waiting ++ [t] }

def wake (p : Page) (which : Task → Bool) : Page :=
  { p with
    ready := p.ready ++ p.waiting.filter which
    waiting := p.waiting.filter (!which ·) }

def canvas (p : Page) (id : String) : Canvas := (p.canvases.lookup id).getD {}

def setCanvas (p : Page) (id : String) (c : Canvas) : Page :=
  if (p.canvases.lookup id).isSome then
    { p with canvases := p.canvases.map fun (k, d) => if k = id then (k, c) else (k, d) }
  else { p with canvases := p.canvases ++ [(id, c)] }

end Page

end MarketSketch
