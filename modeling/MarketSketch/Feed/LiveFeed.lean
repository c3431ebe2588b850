import MarketSketch.Feed.Session
import MarketSketch.Market.Candle
import MarketSketch.Turn

/-!
The candles of the displayed symbol: a history, then streamed bars. Whatever comes in carries the
ticket of its session and is dropped when that is outdated.
-/

namespace MarketSketch

structure LiveFeed where
  buffer : CandleBuffer := {}
  ticket? : Option Ticket := none
  limit : Nat
deriving DecidableEq

namespace LiveFeed

def candles (f : LiveFeed) : List Candle := f.buffer.candles

def switch (f : LiveFeed) (g : Guard) (s : Symbol) : Guard × LiveFeed × Ticket :=
  let (g, t) := g.begin s
  (g, { f with buffer := {}, ticket? := some t }, t)

def stop (f : LiveFeed) (g : Guard) : Guard × LiveFeed :=
  (g.invalidate, { f with buffer := {}, ticket? := none })

def current? (f : LiveFeed) (g : Guard) : Option Ticket := f.ticket?.filter g.isCurrent

def symbol? (f : LiveFeed) (g : Guard) : Option Symbol := (f.current? g).map (·.symbol)

def note (level : Log.Level) (text : String) (t : Ticket) : Effect :=
  .note ⟨level, .application, "LiveDataFeed", text ++ t.symbol.name⟩

def load (f : LiveFeed) (g : Guard) (t : Ticket) (candles : List Candle) : Turn LiveFeed Bool :=
  if g.isCurrent t then ⟨{ f with buffer := CandleBuffer.load candles f.limit }, true, []⟩
  else ⟨f, false, [note .debug "discarding stale history for " t]⟩

def update (f : LiveFeed) (g : Guard) (t : Ticket) (c : Candle) :
    Turn LiveFeed (Option FeedUpdate) :=
  if g.isCurrent t then
    let (buffer, result) := f.buffer.update c f.limit
    ⟨{ f with buffer := buffer }, some result,
      if result = .rejected then [note .warn "rejected out-of-order update for " t] else []⟩
  else ⟨f, none, [note .debug "discarding stale update for " t]⟩

end LiveFeed

end MarketSketch
