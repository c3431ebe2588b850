import MarketSketch.Drawing.Pick
import MarketSketch.Failure
import MarketSketch.Market.Symbol
import MarketSketch.Paint.Style

/-!
The settings of a host. Each has a value of its own, so a document names only what it changes.
-/

namespace MarketSketch

open Json

def defaultStorageKey : String := "chart-overlay:drawings"

structure Config where
  apiBaseUrl : String := ""
  streamUrlTemplate : String := "/ws/markets/\x7bsymbol\x7d/candles"
  storageKey : String := defaultStorageKey
  historyLimit : Nat := 1000
  hitTolerance : Float := defaultTolerance
  /-- Between two syncs, in milliseconds. -/
  syncInterval : Nat := 60000
  timeframe : Timeframe := .m5
  tokenParam : String := "token"
  tokenStorageKey : String := "auth_token"
  style : Style := {}
deriving DecidableEq

def Timeframe.ofDocument? {δ : Type} [Document δ] (d : δ) : Option Timeframe :=
  match Document.view d with
  | .string s => s.bind ofName?
  | .object [(key, v)] =>
    match Document.view v with
    | .null => key.bind ofName?
    | _ => none
  | _ => none

namespace Config

def fieldNames : List String :=
  ["api_base_url", "stream_url_template", "storage_key", "history_limit", "hit_tolerance_px",
    "sync_interval_ms", "timeframe", "token_param", "token_storage_key", "style"]

def natBelow? {δ : Type} [Document δ] (bound : Nat) (d : δ) : Option Nat :=
  (intBetween? 0 (bound - 1) d).map Int.toNat

def ofDocument? {δ : Type} [Document δ] (d : δ) : Option Config := do
  let base : Config := {}
  match ← fields? fieldNames d with
  | [api, stream, key, limit, tolerance, interval, timeframe, param, tokenKey, style] =>
    let api ← defaulted? base.apiBaseUrl text? api
    let stream ← defaulted? base.streamUrlTemplate text? stream
    let key ← defaulted? base.storageKey text? key
    let limit ← defaulted? base.historyLimit (natBelow? 0x10000000000000000) limit
    let tolerance ← defaulted? base.hitTolerance real? tolerance
    let interval ← defaulted? base.syncInterval (natBelow? 0x100000000) interval
    let timeframe ← defaulted? base.timeframe Timeframe.ofDocument? timeframe
    let param ← defaulted? base.tokenParam text? param
    let tokenKey ← defaulted? base.tokenStorageKey text? tokenKey
    let style ← defaulted? base.style Style.ofDocument? style
    pure ⟨api, stream, key, limit, tolerance, interval, timeframe, param, tokenKey, style⟩
  | _ => none

def ofText (text : String) : Except Failure Config :=
  match (Literal.ofText? text).bind ofDocument? with
  | some c => .ok c
  | none => .error (.parse .text)

def toJson (c : Config) : Value :=
  .object [("api_base_url", .string c.apiBaseUrl),
    ("stream_url_template", .string c.streamUrlTemplate), ("storage_key", .string c.storageKey),
    ("history_limit", .nat c.historyLimit), ("hit_tolerance_px", .real c.hitTolerance),
    ("sync_interval_ms", .nat c.syncInterval), ("timeframe", .string c.timeframe.name),
    ("token_param", .string c.tokenParam), ("token_storage_key", .string c.tokenStorageKey),
    ("style", c.style.toJson)]

end Config

end MarketSketch
