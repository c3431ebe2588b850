import MarketSketch.Drawing.Archive
import MarketSketch.Drawing.Setup
import MarketSketch.Page.Run

/-!
The overlay as its host page sees it: what the page may call, and what it is told. A refusal is a
text that is thrown.
-/

namespace MarketSketch

namespace Board.Reply

def changed? : Board.Reply → Option Bool
  | .flag b => some b
  | .outcome o => some o.changed
  | .removed s => some s.isSome
  | _ => none

def settled? : Board.Reply → Option String
  | .outcome o => o.settled?
  | _ => none

end Board.Reply

namespace Page

def create (h : Host) (config : Option String) (desk : Desk) (session : Vault) :
    Except String Page :=
  let settings := match config with
    | some text => Config.ofText text
    | none => .ok {}
  match settings with
  | .error f => .error f.message
  | .ok c =>
    let desk := desk.note ⟨.info, .presentation, "ChartOverlayApi",
      "🚀 Overlay created (storage key '" ++ c.storageKey ++ "')"⟩
    .ok (opened h c .areaOfPage desk session)

def startNote : Log.Note := ⟨.info, .presentation, "Initialize", "🚀 Chart overlay initialized"⟩

def unknownTool (text : String) : String := "Unknown tool: " ++ text

def chooseTool (p : Page) (text : String) : Except String Page :=
  match Tool.ofName? text with
  | none => .error (unknownTool text)
  | some t => .ok (p.operate (.tool t)).1

def shapesText (p : Page) : String := Archive.encode p.board.shapes p.moment.now

end Page

namespace Json

mutual

/-- The value after it crossed into a page: every number is a double, and minus zero is lost. -/
def Value.crossed : Value → Value
  | .number n =>
    let x := n.toFloat
    .number (.wide (if x == Double.ofNat 0 then Double.ofNat 0 else x))
  | .array xs => .array (crossedElements xs)
  | .object ms => .object (crossedMembers ms)
  | v => v

def crossedElements : List Value → List Value
  | [] => []
  | x :: xs => x.crossed :: crossedElements xs

def crossedMembers : List (String × Value) → List (String × Value)
  | [] => []
  | (k, v) :: ms => (k, v.crossed) :: crossedMembers ms

end

end Json

end MarketSketch
