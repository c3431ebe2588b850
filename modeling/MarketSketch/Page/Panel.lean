import MarketSketch.Page.Run

/-!
The overlay as a component of a page: a canvas over the chart with a status line below. One overlay
lives as long as the component. What its three inputs do runs first when it is mounted and then
whenever one is set.
-/

namespace MarketSketch.Page

def panelCanvas : String := "#component"

def attachPanel (p : Page) : Page :=
  match contextFailure? ((p.host.elements.lookup panelCanvas).getD .canvas) with
  | some reason =>
    { p with panel := { p.panel with status := (Failure.rendering reason).message } }
  | none =>
    (p.setCanvas panelCanvas (p.canvas panelCanvas).taken).attach (.canvas panelCanvas)

def startTimer (p : Page) : Page :=
  if p.host.timersThrow then p
  else { p with timers := p.timers ++ [Timer.mk p.config.syncInterval true] }

def mount (p : Page) (v : ChartView) (t : Tool) (symbolText : String) : Page :=
  let panel : Panel :=
    { viewport := v, tool := t, symbolText := symbolText, status := p.status, mounted := true }
  let p := { p with panel := panel }.attachPanel.startTimer
  ((p.spawn (.effect .viewport)).spawn (.effect .tool)).spawn (.effect .symbol)

def setViewport (p : Page) (v : ChartView) : Page :=
  if p.panel.mounted then { p with panel := { p.panel with viewport := v } }.runEffect .viewport
  else p

def setTool (p : Page) (t : Tool) : Page :=
  if p.panel.mounted then { p with panel := { p.panel with tool := t } }.runEffect .tool else p

def setSymbol (p : Page) (text : String) : Page :=
  if p.panel.mounted then { p with panel := { p.panel with symbolText := text } }.runEffect .symbol
  else p

def capture (p : Page) (pointer : Int) : Page :=
  if p.host.captureThrows then
    p.note ⟨.debug, .presentation, "OverlayCanvas",
      "pointer capture refused: " ++ thrown "capture refused"⟩
  else { p with captures := p.captures ++ [pointer] }

def pressed (p : Page) (pointer : Int) (at_ : Pixel) : Page :=
  ((p.capture pointer).operate (.down at_)).1

def keyDown (p : Page) (key : String) : Page :=
  if key = "Escape" then (p.operate .cancel).1 else p

def unmount (p : Page) : Page :=
  if p.panel.mounted then
    let stopped (t : Timer) : Timer := { t with isActive := false }
    let p := { p with timers := p.timers.map stopped }.teardown
    { p with panel := { p.panel with mounted := false } }
  else p

end MarketSketch.Page
