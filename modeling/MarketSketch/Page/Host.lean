import MarketSketch.Paint.Recorder
import MarketSketch.Text.Quoted
import MarketSketch.Turn

/-!
The page around the overlay, as far as it answers: whether there is a window and a document, its
query, its two storage areas, its elements, and which of its services refuse. A page that refuses
throws a text.
-/

namespace MarketSketch

def thrown (text : String) : String := "JsValue(" ++ Text.quoted text ++ ")"

def thrownError (name message : String) : String :=
  "JsError \x7b name: " ++ Text.quoted name ++ ", message: " ++ Text.quoted message ++ " \x7d"

inductive AreaMode where
  | works
  | denied
  | missing
  | readThrows
  | writeThrows
  | removeThrows
deriving DecidableEq, Repr

namespace AreaMode

def ofName : String → AreaMode
  | "throw" => denied
  | "null" => missing
  | "get_throw" => readThrows
  | "set_throw" => writeThrows
  | "remove_throw" => removeThrows
  | _ => works

end AreaMode

inductive ElementKind where
  | canvas
  | canvasThrowing
  | canvasWithout
  | canvasOther
  | other
deriving DecidableEq, Repr

namespace ElementKind

def ofName : String → ElementKind
  | "canvas" => canvas
  | "canvas-throws" => canvasThrowing
  | "canvas-null" => canvasWithout
  | "canvas-other" => canvasOther
  | _ => other

end ElementKind

inductive Area where
  | localArea
  | sessionArea
deriving DecidableEq, Repr

namespace Area

def title : Area → String
  | localArea => "Local"
  | sessionArea => "Session"

end Area

structure Host where
  window : Bool := true
  document : Bool := true
  search : String := ""
  searchThrows : Bool := false
  localMode : AreaMode := .works
  sessionMode : AreaMode := .works
  elements : List (String × ElementKind) := []
  socketsRefused : Bool := false
  timersThrow : Bool := false
  captureThrows : Bool := false
  drawFault? : Option Fault := none

namespace Host

def mode (h : Host) : Area → AreaMode
  | .localArea => h.localMode
  | .sessionArea => h.sessionMode

def unreachable? (h : Host) (a : Area) : Option String :=
  if h.window then
    match h.mode a with
    | .denied => some (thrown "access denied")
    | .missing => some (a.title ++ " storage not available")
    | _ => none
  else some "window not available"

def governed (h : Host) (a : Area) (v : Vault) : Vault :=
  let unreachable := h.unreachable? a
  let fault (m : AreaMode) (text : String) : Option String :=
    unreachable.or (if h.mode a = m then some (thrown text) else none)
  let onWrite := fault .writeThrows "quota exceeded"
  { v with
    readFault := fault .readThrows "get refused"
    writeFault := fun _ => onWrite
    removeFault := fault .removeThrows "remove refused" }

def element? (h : Host) (id : String) : Option ElementKind :=
  if h.window && h.document then h.elements.lookup id else none

end Host

def contextFailure? : ElementKind → Option String
  | .canvasThrowing => some "Failed to get 2D context"
  | .canvasWithout => some "2D context not available"
  | .canvasOther => some "Failed to cast to 2D context"
  | _ => none

def Host.canvas (h : Host) (id : String) : Except Failure Unit :=
  match h.element? id with
  | none => .error (.rendering ("canvas '" ++ id ++ "' not found"))
  | some .other => .error (.rendering ("'" ++ id ++ "' is not a canvas"))
  | some kind =>
    match contextFailure? kind with
    | some reason => .error (.rendering reason)
    | none => .ok ()

end MarketSketch
