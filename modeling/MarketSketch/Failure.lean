/-!
What can go wrong. Nothing here is fatal: a failure becomes a status text or a log entry, and the
last good state stays.
-/

namespace MarketSketch

inductive Unreadable where
  | text
  | answer
  /-- The time of a candle names no instant. -/
  | candleTime (shown : String)
  /-- The answer to a request for candles holds no list of them. -/
  | history
deriving DecidableEq, Repr

def Unreadable.detail? : Unreadable → Option String
  | text => none
  | answer => some "Failed to parse JSON"
  | candleTime shown => some ("unusable candle time " ++ shown)
  | history => some "history response carries no candle array"

inductive Failure where
  | network (detail : String)
  | storage (detail : String)
  | parse (cause : Unreadable)
  | rendering (detail : String)
  | validation (detail : String)
deriving DecidableEq, Repr

namespace Failure

def kind : Failure → String
  | network _ => "Network"
  | storage _ => "Storage"
  | parse _ => "Parse"
  | rendering _ => "Rendering"
  | validation _ => "Validation"

def detail? : Failure → Option String
  | network t | storage t | rendering t | validation t => some t
  | parse cause => cause.detail?

def message (f : Failure) : String :=
  f.kind ++ " error" ++ (f.detail?.map (": " ++ ·)).getD ""

end Failure

end MarketSketch
