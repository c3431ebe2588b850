import MarketSketch.Feed.Session
import MarketSketch.Turn

/-!
The one place for a live stream. Streams are known by number; one that leaves the slot is aborted.
-/

namespace MarketSketch

structure StreamSlot where
  active : Option (Symbol × Nat) := none
deriving DecidableEq, Repr

namespace StreamSlot

def note (text : String) (s : Symbol) : Effect :=
  .note ⟨.info, .application, "StreamSlot", text ++ s.name⟩

/-- Empties the slot. The answer is the stream that has to be aborted. -/
def release (slot : StreamSlot) : Turn StreamSlot (Option Nat) :=
  match slot.active with
  | some (s, stream) => ⟨{}, some stream, [note "🛑 stream released for " s]⟩
  | none => ⟨slot, none, []⟩

def attach (slot : StreamSlot) (s : Symbol) (stream : Nat) : Turn StreamSlot (Option Nat) :=
  let r := slot.release
  ⟨⟨some (s, stream)⟩, r.reply, r.effects ++ [note "🔌 stream attached for " s]⟩

def symbol? (slot : StreamSlot) : Option Symbol := slot.active.map (·.1)

end StreamSlot

end MarketSketch
