import MarketSketch.Drawing.Archive
import MarketSketch.Failure

/-!
A step of the overlay as a value: the state after it, what it answers, and what it asks of its
surroundings. The surroundings are a `Desk`: a clock, a supply of ids, a key-value store that may
refuse, and a log. Nothing in a step depends on whether a request is met, nor on what the clock
shows when it is.
-/

namespace MarketSketch

inductive Effect where
  | write (key : String) (shapes : List Shape)
  | note (n : Log.Note)
  /-- The fresh id was used. -/
  | takeId
deriving DecidableEq

/-- A step: the state after it, its answer, and what it asks for, in order. -/
structure Turn (σ ρ : Type) where
  state : σ
  reply : ρ
  effects : List Effect := []

namespace Turn

variable {σ τ ρ : Type}

def lift (t : Turn σ ρ) (put : σ → τ) : Turn τ ρ := ⟨put t.state, t.reply, t.effects⟩

def after (effects : List Effect) (t : Turn σ ρ) : Turn σ ρ :=
  ⟨t.state, t.reply, effects ++ t.effects⟩

end Turn

/-- What a step may know of its surroundings: the time in milliseconds at which it begins, and an id
nobody has. -/
structure Moment where
  now : Int
  freshId : String
deriving DecidableEq, Repr

/-- A key-value store. Each kind of access may be refused with a reason; writes are numbered, and
each may be refused on its own. -/
structure Vault where
  entries : List (String × String) := []
  readFault : Option String := none
  writeFault : Nat → Option String := fun _ => none
  removeFault : Option String := none
  writes : Nat := 0

namespace Vault

def peek? (v : Vault) (key : String) : Option String := v.entries.lookup key

def put (v : Vault) (key text : String) : Vault :=
  { v with entries := (key, text) :: v.entries.filter (·.1 ≠ key) }

def drop (v : Vault) (key : String) : Vault :=
  { v with entries := v.entries.filter (·.1 ≠ key) }

def read (v : Vault) (key : String) : Except Failure (Option String) :=
  match v.readFault with
  | some reason => .error (.storage reason)
  | none => .ok (v.peek? key)

def write (v : Vault) (key text : String) : Vault × Option Failure :=
  let tried := { v with writes := v.writes + 1 }
  match v.writeFault v.writes with
  | some reason => (tried, some (.storage reason))
  | none => (tried.put key text, none)

def remove (v : Vault) (key : String) : Vault × Option Failure :=
  match v.removeFault with
  | some reason => (v, some (.storage reason))
  | none => (v.drop key, none)

end Vault

def signedWord (n : UInt64) : Int :=
  if n.toNat < 0x8000000000000000 then n.toNat else (n.toNat : Int) - 0x10000000000000000

/-- The surroundings of an overlay. The clock is read when a step begins, and again for each write
and each entry of the journal. The journal has its newest entry first. -/
structure Desk where
  clock : UInt64
  /-- What the clock shows at each write, by the number of the write. -/
  atWrite : Nat → UInt64 := fun _ => clock
  /-- What the clock shows at each entry of the journal, by how many there were before. -/
  atNote : Nat → UInt64 := fun _ => clock
  /-- The ids in the order in which they are handed out, from 1 on. -/
  ids : Nat → String := fun n => "shape-" ++ toString n
  drawn : Nat := 0
  vault : Vault := {}
  journal : List Log.Entry := []

namespace Desk

def moment (d : Desk) : Moment := ⟨signedWord d.clock, d.ids (d.drawn + 1)⟩

def note (d : Desk) (n : Log.Note) : Desk :=
  { d with journal := n.stamped (d.atNote d.journal.length).toNat :: d.journal }

def noteAll (d : Desk) (ns : List Log.Note) : Desk := ns.foldl note d

def writeRefused (f : Failure) : Log.Note :=
  ⟨.error, .domain, "ShapeStore", "persisting drawings failed: " ++ f.message⟩

/-- The shapes as the next write stores them, with what the clock shows then. -/
def envelope (d : Desk) (shapes : List Shape) : String :=
  Archive.encode shapes (signedWord (d.atWrite d.vault.writes))

def perform (d : Desk) : Effect → Desk
  | .write key shapes =>
    match d.vault.write key (d.envelope shapes) with
    | (vault, none) => { d with vault := vault }
    | (vault, some f) => { d with vault := vault }.note (writeRefused f)
  | .note n => d.note n
  | .takeId => { d with drawn := d.drawn + 1 }

def performAll (d : Desk) (es : List Effect) : Desk := es.foldl perform d

end Desk

end MarketSketch
