import MarketSketch.Market.Symbol

/-!
Sessions of a displayed symbol. Each one has a number; a ticket says for which session something was
asked, and is current until a later session starts or the display ends.
-/

namespace MarketSketch

structure Ticket where
  generation : Nat
  symbol : Symbol
deriving DecidableEq, Repr

/-- The number of the latest session. The numbers never run out: of the 64 bits that a program
counts with, fewer than 2^64 sessions are assumed to be taken. -/
structure Guard where
  generation : Nat := 0
deriving DecidableEq, Repr

namespace Guard

def invalidate (g : Guard) : Guard := ⟨g.generation + 1⟩

def begin (g : Guard) (s : Symbol) : Guard × Ticket := (g.invalidate, ⟨g.generation + 1, s⟩)

def isCurrent (g : Guard) (t : Ticket) : Bool := t.generation = g.generation

theorem isCurrent_begin (g : Guard) (s : Symbol) : (g.begin s).1.isCurrent (g.begin s).2 := by
  simp [begin, isCurrent, invalidate]

end Guard

end MarketSketch
