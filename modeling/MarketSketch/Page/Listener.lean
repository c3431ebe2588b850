import MarketSketch.Board

/-!
What the host of a page can call on its overlay, and the candle listeners that it sets. A listener
may call back each time it is told a candle.
-/

namespace MarketSketch

def Board.Event.byHost : Board.Event → Bool
  | .viewport _ | .down _ | .move _ | .up _ | .tool _ | .cancel | .undo | .clear | .select _
  | .clearSelection => true
  | _ => false

inductive HostCall (α : Type) where
  | operate (e : Board.Event) (byHost : e.byHost = true)
  | payload (v : Json.Value)
  | load (text : String)
  | sync
  | attach (id : String)
  | render
  | listen (l : Option α)
  | teardown

/-- A candle listener of the host: what it calls one after the other when it is told a candle, and
what it throws in the end, as the log shows it. -/
structure Listener where
  name : String
  calls : List (HostCall Listener) := []
  throws : Option String := none

end MarketSketch
