import MarketSketch.Number.Figures

/-!
Log entries: a severity, the layer and unit that spoke, and a message, stamped with a clock reading.
-/

namespace MarketSketch.Log

inductive Level where
  | debug
  | info
  | warn
  | error
deriving DecidableEq, Repr

namespace Level

def rank : Level → Nat
  | debug => 0
  | info => 1
  | warn => 2
  | error => 3

def label : Level → String
  | debug => "DEBUG"
  | info => " INFO"
  | warn => " WARN"
  | error => "ERROR"

def ofName? : String → Option Level
  | "debug" => some debug
  | "info" => some info
  | "warn" => some warn
  | "error" => some error
  | _ => none

def name : Level → String
  | debug => "debug"
  | info => "info"
  | warn => "warn"
  | error => "error"

end Level

inductive Layer where
  | domain
  | application
  | infrastructure
  | presentation
deriving DecidableEq, Repr

namespace Layer

def label : Layer → String
  | domain => "DOM"
  | application => "APP"
  | infrastructure => "INF"
  | presentation => "PRE"

def ofName? : String → Option Layer
  | "domain" => some domain
  | "application" => some application
  | "infrastructure" => some infrastructure
  | "presentation" => some presentation
  | _ => none

end Layer

structure Note where
  level : Level
  layer : Layer
  origin : String
  message : String
deriving DecidableEq, Repr

structure Entry extends Note where
  timestamp : Nat
deriving DecidableEq, Repr

namespace Note

def text (n : Note) : String :=
  n.level.label ++ " " ++ n.layer.label ++ ":" ++ n.origin ++ " | " ++ n.message

def stamped (n : Note) (timestamp : Nat) : Entry := ⟨n, timestamp⟩

end Note

def counterTime (timestamp : Nat) : String := paddedTo 6 timestamp

def Entry.line (time : Nat → String) (e : Entry) : String :=
  "[" ++ time e.timestamp ++ "] " ++ e.toNote.text

structure Console where
  threshold : Level

namespace Console

def production : Console := ⟨.info⟩

def development : Console := ⟨.debug⟩

def shows (c : Console) (level : Level) : Bool := c.threshold.rank ≤ level.rank

def write? (c : Console) (time : Nat → String) (e : Entry) : Option (String × String) :=
  if c.shows e.level then some (e.level.name, e.line time) else none

end Console

/-- The clock before a real one is set: each reading is one more than the one before. -/
structure Counter where
  next : Nat

def Counter.read (c : Counter) : Nat × Counter := (c.next, ⟨c.next + 1⟩)

def Counter.stamp (c : Counter) (n : Note) : Entry × Counter :=
  let (t, c) := c.read
  (n.stamped t, c)

end MarketSketch.Log
