import MarketSketch.Json.Text
import MarketSketch.Json.Record
import MarketSketch.Text.Quoted
import MarketSketch.Text.Blank
import MarketSketch.Text.Upper
import MarketSketch.Text.Bytes
import MarketSketch.Chart.Viewport
import MarketSketch.Chart.Color
import MarketSketch.Market.Wire
import MarketSketch.Market.Symbol
import MarketSketch.Log.Entry
import MarketSketch.Drawing.Sketch
import MarketSketch.Drawing.Setup
import MarketSketch.Board
import MarketSketch.Feed.StreamSlot
import MarketSketch.Paint.Recorder
import MarketSketch.Net.Route
import MarketSketch.Net.Token
import MarketSketch.Log.Clock
import MarketSketch.Page.Api
import MarketSketch.Page.Panel
import MarketSketch.Proofs.Market.Candle
import MarketSketch.Proofs.Market.Streaming
import MarketSketch.Proofs.Drawing.Sketch
import MarketSketch.Proofs.Board.Run
import MarketSketch.Proofs.Board.Redraw
import MarketSketch.Proofs.Board.Drag
import MarketSketch.Proofs.Board.Rollback
import MarketSketch.Proofs.Board.Session
import MarketSketch.Proofs.Number.Decimal
import MarketSketch.Proofs.Number.Nearest
import MarketSketch.Proofs.Number.Double
import MarketSketch.Proofs.Json.Numeral
import MarketSketch.Proofs.Json.Text
import MarketSketch.Proofs.Json.Members
import MarketSketch.Proofs.Drawing.Archive
import MarketSketch.Proofs.Drawing.Saving
import MarketSketch.Proofs.Drawing.RoundTrip
import MarketSketch.Proofs.Drawing.Gesture
import MarketSketch.Proofs.Board.Bench
import MarketSketch.Proofs.Board.Durable
import MarketSketch.Proofs.Board.WellFormed
import MarketSketch.Proofs.Page.Session
import MarketSketch.Proofs.Page.Run
import MarketSketch.Proofs.Page.Slot
import MarketSketch.Proofs.Page.Outdated
import MarketSketch.Proofs.Board.Independence
import MarketSketch.Proofs.Drawing.Edit
import MarketSketch.Proofs.Board.WriteThrough
import MarketSketch.Proofs.Board.Retry
import MarketSketch.Proofs.Page.Boards
import MarketSketch.Proofs.Page.Listener
import MarketSketch.Proofs.Number.Rounding
import MarketSketch.Proofs.Number.Packing
import MarketSketch.Proofs.Number.Division
import MarketSketch.Proofs.Number.Value
import MarketSketch.Proofs.Number.Whole
import MarketSketch.Proofs.Json.Written
import MarketSketch.Proofs.Market.WireForm
import MarketSketch.Proofs.Drawing.Everywhere
import MarketSketch.Proofs.Board.Reload
import MarketSketch.Proofs.Board.Ledger
import MarketSketch.Proofs.Paint.Picture
import MarketSketch.Proofs.Page.Syncs
import MarketSketch.Proofs.Page.Teardown
import MarketSketch.Proofs.Paint.Refusal
import MarketSketch.Proofs.Drawing.Adaptation
import MarketSketch.Proofs.Drawing.Built
import MarketSketch.Proofs.Page.StatusLine
import MarketSketch.Proofs.Drawing.EntryZone
import MarketSketch.Proofs.Market.History
import MarketSketch.Proofs.Json.Proper
import MarketSketch.Proofs.Json.Told
import MarketSketch.Proofs.Market.OneForm
import MarketSketch.Proofs.Drawing.Records
import MarketSketch.Proofs.Chart.Mapping
import MarketSketch.Proofs.Chart.Distance
import MarketSketch.Proofs.Drawing.NormalForm
import MarketSketch.Proofs.Board.OffPlot
import MarketSketch.Proofs.Chart.Spelling
import MarketSketch.Proofs.Market.Instant
