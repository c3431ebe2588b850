import MarketSketch.Proofs.Page.Run

/-! The board of a page. Whatever a page does to its board is a run of the board's own operations,
so what holds of every board that can be reached holds of the board of every page. -/

namespace MarketSketch.Page

variable {p q r : Page}

/-- The second page has the board of the first after some operations on it. -/
def Operated (p q : Page) : Prop := ∃ as : List Board.Action, q.board = as.foldl Board.act p.board

namespace Operated

theorem of_board (h : q.board = p.board) : Operated p q := ⟨[], h⟩

theorem of_act {a : Board.Action} (h : q.board = p.board.act a) : Operated p q := ⟨[a], h⟩

theorem trans (h : Operated p q) (h' : Operated q r) : Operated p r := by
  obtain ⟨as, has⟩ := h
  obtain ⟨as', has'⟩ := h'
  exact ⟨as ++ as', by rw [has', has, List.foldl_append]⟩

theorem same_board (h : Operated p q) (hr : r.board = q.board) : Operated p r :=
  h.trans (of_board hr)

end Operated

theorem Aside.operated (h : Aside p q) : Operated p q := .of_board h.board

section Drawing

theorem setCanvas_board (p : Page) (id : String) (c : Canvas) :
    (p.setCanvas id c).board = p.board := by
  obtain ⟨canvases, h⟩ := setCanvas_eq p id c
  rw [h]

theorem operated_drawWith (p : Page)
    (draw : ∀ {σ : Type}, Surface σ → σ → Board × σ × Option Failure)
    (hdraw : ∀ {σ : Type} (surface : Surface σ) (start : σ),
      ∃ a : Board.Action, (draw surface start).1 = p.board.act a) :
    Operated p (p.drawWith draw) := by
  unfold drawWith
  split
  · exact .of_board rfl
  · rename_i rec _
    obtain ⟨a, ha⟩ := hdraw Recorder.surface rec
    exact .of_act ha
  · rename_i id _
    obtain ⟨a, ha⟩ := hdraw (Canvas.surface p.host.drawFault?) (p.canvas id)
    refine Operated.same_board (.of_act (q := { p with board := p.board.act a }) rfl) ?_
    rw [← ha]
    exact setCanvas_board _ id _

theorem operated_renderNow (p : Page) : Operated p p.renderNow :=
  operated_drawWith p _ fun surface start => ⟨.render p.config.style surface start, rfl⟩

theorem operated_redraw (p : Page) : Operated p p.redraw :=
  operated_drawWith p _ fun surface start => ⟨.renderIfNeeded p.config.style surface start, rfl⟩

theorem operated_attach (p : Page) (s : Screen) : Operated p (p.attach s) :=
  operated_renderNow { p with screen := some s }

theorem operated_event {m : Moment} {e : Board.Event} (h : q.board = (p.board.step m e).state) :
    Operated p q.redraw :=
  .trans (.of_act (a := .event m e) h) (operated_redraw q)

theorem operated_operate (p : Page) (e : Board.Event) : Operated p (p.operate e).1 :=
  operated_event (q := (p.step (p.board.step p.moment e)).1) rfl

theorem operated_analysis (p : Page) (t : Ticket) (payload : Json.Value) :
    Operated p (p.update (p.board.applyAnalysis p.moment t payload)).1 :=
  operated_operate p (.analysis t payload)

end Drawing

section Sessions

theorem abort_board (p : Page) (stream : Option Nat) : (p.abort stream).board = p.board := by
  cases stream <;> rfl

theorem releaseStream_board (p : Page) : p.releaseStream.board = p.board :=
  abort_board { p with slot := p.slot.release.state } p.slot.release.reply

theorem startStream_board (p : Page) (t : Ticket) : (p.startStream t).board = p.board :=
  abort_board { p.opening t with slot := (p.slot.attach t.symbol p.streams.length).state }
    (p.slot.attach t.symbol p.streams.length).reply

theorem operated_teardown (p : Page) : Operated p p.teardown := by
  have hreleased : Operated p p.releaseStream := .of_board (releaseStream_board p)
  exact hreleased.trans (operated_operate p.releaseStream .teardown)

theorem operated_beginLoad (p : Page) (c : Client) (s : Symbol) : Operated p (p.beginLoad c s) := by
  let switched : Page := { p with board := (p.board.switchSymbol s).1 }
  have hdrawn : Operated p switched.releaseStream.redraw :=
    operated_event (m := p.moment) (e := .switch s) (releaseStream_board switched)
  exact hdrawn.same_board rfl

theorem fail_board (p : Page) (t : Ticket) (f : Failure) : (p.fail t f).board = p.board := by
  unfold fail
  dsimp only
  split <;> rfl

theorem operated_finishSync (p : Page) (c : Client) (t : Ticket) (a : Answer) :
    Operated p (p.finishSync c t a) := by
  unfold finishSync
  split
  · exact .same_board (.of_board (fail_board p t _)) (aside_settle _ c _).board
  · exact (operated_analysis p t _).same_board (aside_settle _ c _).board

theorem operated_finishLoad (p : Page) (c : Client) (t : Ticket) (a : Answer) :
    Operated p (p.finishLoad c t a) := by
  cases hcandles : candlesOf a with
  | error f =>
    rw [finishLoad_of_error hcandles]
    exact .same_board (.of_board (fail_board p t f)) (aside_settleLoad _ c _).board
  | ok cs =>
    rw [finishLoad_of_ok hcandles]
    let taken : Page :=
      ((p.note (loadedNote t.symbol cs.length)).step (p.board.applyHistory t cs)).1
    have htaken : Operated p taken := .of_act (a := .event p.moment (.history t cs)) rfl
    dsimp only
    split
    · have hdrawn := htaken.trans (operated_redraw taken)
      have hstarted := hdrawn.same_board (startStream_board taken.redraw t)
      exact hstarted.same_board (aside_settleLoad _ c _).board
    · exact htaken.same_board (aside_settleLoad taken c _).board

end Sessions

section Streams

theorem streamEnded_board (p : Page) (t : Ticket) (f : Option Failure) :
    (p.streamEnded t f).board = p.board := by
  unfold streamEnded
  split <;> rfl

theorem finishStream_board (p : Page) (id : Nat) (t : Ticket) (f : Option Failure) :
    (p.finishStream id t f).board = p.board := by
  cases f with
  | none => exact (streamEnded_board _ t none).trans (aside_closeStream _ id).board
  | some f => exact (streamEnded_board _ t (some f)).trans (aside_closeStream p id).board

theorem operated_connect {id : Nat} {s : LiveStream} (h : p.streams[id]? = some s) :
    Operated p (p.connect id s) := by
  rcases connect_cases h with ⟨n, f, hended⟩ | hwaits
  · rw [hended]
    exact .of_board (finishStream_board (p.note n) id s.ticket f)
  · exact hwaits.operated

theorem operated_call (p : Page) (c : HostCall Listener) : Operated p (p.call c) := by
  cases c with
  | operate e byHost => exact operated_operate p e
  | payload v =>
    simp only [call, applyPayload]
    cases p.board.currentTicket? with
    | none => exact .of_board rfl
    | some t => exact operated_analysis p t v
  | attach id =>
    simp only [call, attachCanvas]
    cases p.host.canvas id with
    | error f => exact .of_board rfl
    | ok => exact .trans (.of_board (setCanvas_board p id _)) (operated_attach _ _)
  | render => exact operated_renderNow p
  | teardown => exact operated_teardown p
  | load | sync | listen => exact .of_board rfl

theorem operated_calls (p : Page) (cs : List (HostCall Listener)) :
    Operated p (cs.foldl call p) := by
  induction cs generalizing p with
  | nil => exact .of_board rfl
  | cons c cs ih => exact (operated_call p c).trans (ih (p.call c))

theorem operated_listen (p : Page) (l : Listener) (c : Candle) : Operated p (p.listen l c) := by
  let told : Page := { p with heard := (l, c) :: p.heard }
  have hcalls : Operated p (l.calls.foldl call told) := operated_calls told l.calls
  unfold listen
  cases l.throws with
  | none => exact hcalls
  | some reason => exact hcalls.same_board rfl

theorem operated_announce (p : Page) : Operated p p.announce := by
  unfold announce
  split
  · exact operated_listen p _ _
  · exact .of_board rfl

theorem operated_receive (p : Page) (t : Ticket) (text : String) :
    Operated p (p.receive t text) := by
  unfold receive
  split
  · exact .of_board rfl
  · rename_i c _
    have hstep : Operated p (p.step (p.board.applyUpdate t c)).1 :=
      .of_act (a := .event p.moment (.update t c)) rfl
    dsimp only
    split
    · exact hstep.trans ((operated_redraw _).trans (operated_announce _))
    · exact hstep

theorem operated_readEvents (id : Nat) (t : Ticket) (es : List SocketEvent) (p : Page) :
    Operated p (readEvents id t es p) := by
  induction es generalizing p with
  | nil =>
    unfold readEvents
    split
    · exact (aside_abortStream p id t).operated
    · exact (aside_park p id).operated
  | cons e es ih =>
    unfold readEvents
    split
    · exact .of_board (finishStream_board p id t _)
    · split
      · exact (operated_receive p t _).trans (ih _)
      · exact ih p

theorem operated_runStream (p : Page) (id : Nat) : Operated p (p.runStream id) := by
  unfold runStream
  cases h : p.streams[id]? with
  | none => exact .of_board rfl
  | some s =>
    dsimp only
    split
    · exact .of_board rfl
    · split
      · exact (aside_abortStream p id _).operated
      · exact operated_connect h
    · split
      · exact (aside_abortStream p id _).operated
      · exact operated_readEvents id _ _ (p.setStream id { s with inbox := [] })

end Streams

section Turns

theorem operated_runEffect (p : Page) (e : PanelEffect) : Operated p (p.runEffect e) := by
  cases e with
  | viewport | tool => exact operated_operate p _
  | symbol =>
    unfold runEffect enterPanelSymbol
    dsimp only
    split <;> exact .of_board rfl

theorem operated_run (p : Page) (k : Task) : Operated p (p.run k) := by
  cases k with
  | enter place text =>
    unfold run enter
    dsimp only
    split
    · exact .of_board rfl
    · exact operated_beginLoad p _ _
  | load c s => exact operated_beginLoad p c s
  | history c t request =>
    unfold run
    dsimp only
    split
    · exact operated_finishLoad p c t _
    · exact .of_board rfl
  | sync c => exact (aside_beginSync p c).operated
  | analysis c t request =>
    unfold run
    dsimp only
    split
    · exact operated_finishSync p c t _
    · exact .of_board rfl
  | stream id => exact operated_runStream p id
  | effect e => exact operated_runEffect p e

theorem operated_attachPanel (p : Page) : Operated p p.attachPanel := by
  unfold attachPanel
  split
  · exact .of_board rfl
  · exact .trans (.of_board (setCanvas_board p _ _)) (operated_attach _ _)

theorem operated_mount (p : Page) (v : ChartView) (t : Tool) (text : String) :
    Operated p (p.mount v t text) := by
  unfold mount
  dsimp only
  generalize hq : { p with panel := _ } = q
  have hpanel : Operated p q := .of_board (by rw [← hq])
  have htimer : q.attachPanel.startTimer.board = q.attachPanel.board := by
    unfold startTimer
    split <;> rfl
  exact (hpanel.trans (operated_attachPanel q)).same_board htimer

theorem operated_input (p : Page) (panel : Panel) (e : PanelEffect) :
    Operated p (if p.panel.mounted then { p with panel := panel }.runEffect e else p) := by
  split
  · exact operated_runEffect { p with panel := panel } e
  · exact .of_board rfl

theorem operated_happen (p : Page) (x : Happening) : Operated p (p.happen x) := by
  cases x with
  | call c => exact operated_call p c
  | operate e => exact operated_operate p e
  | attach s => exact operated_attach p s
  | redraw => exact operated_redraw p
  | mount v t text => exact operated_mount p v t text
  | viewport | tool | symbol => exact operated_input p _ _
  | press pointer at_ =>
    have hcaptured : (p.capture pointer).board = p.board := by
      unfold capture
      split <;> rfl
    exact .trans (.of_board hcaptured) (operated_operate _ (.down at_))
  | key key =>
    simp only [happen, keyDown]
    split
    · exact operated_operate p .cancel
    · exact .of_board rfl
  | unmount =>
    simp only [happen, unmount]
    split
    · generalize hq : { p with timers := _ } = q
      have htimers : Operated p q := .of_board (by rw [← hq])
      exact htimers.trans (operated_teardown q)
    · exact .of_board rfl
  | turn n =>
    simp only [happen]
    split
    · exact operated_run { p with ready := p.ready.eraseIdx n } _
    · exact .of_board rfl
  | message id text =>
    simp only [happen]
    split
    · exact operated_receive p _ text
    · exact .of_board rfl
  | ended id f =>
    simp only [happen]
    split
    · exact .of_board (finishStream_board p id _ f)
    · exact .of_board rfl
  | respond request a =>
    simp only [happen, respond]
    split
    · split <;> exact .of_board rfl
    · exact .of_board rfl
  | deliver socket e =>
    simp only [happen, deliver]
    split
    · split <;> exact .of_board rfl
    · exact .of_board rfl
  | load | tick | clock | host => exact .of_board rfl

theorem operated_after (p : Page) (hs : List Happening) : Operated p (p.after hs) := by
  induction hs generalizing p with
  | nil => exact .of_board rfl
  | cons x hs ih => exact (operated_happen p x).trans (ih (p.happen x))

end Turns

theorem exists_actions_after_opened (h : Host) (c : Config) (storage : Storage) (desk : Desk)
    (session : Vault) (hs : List Happening) :
    ∃ (stored : Except Failure (Option String)) (as : List Board.Action),
      ((opened h c storage desk session).after hs).board =
        as.foldl Board.act (Board.opened c stored).state := by
  obtain ⟨as, has⟩ := operated_after (opened h c storage desk session) hs
  exact ⟨_, as, has⟩

theorem arises_after_opened (h : Host) (c : Config) (storage : Storage) (desk : Desk)
    (session : Vault) (hs : List Happening) :
    ((opened h c storage desk session).after hs).board.Arises := by
  obtain ⟨stored, as, has⟩ := exists_actions_after_opened h c storage desk session hs
  exact has ▸ Board.arises_opened c stored as

end MarketSketch.Page
