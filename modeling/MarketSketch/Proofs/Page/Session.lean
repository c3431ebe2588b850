import MarketSketch.Page.Panel
import MarketSketch.Proofs.Board.Session

/-! Who waits for which session of a page. Every task and every stream carries a ticket that the
page handed out. What a page does leaves sessions, slot and streams alone, except where a session
begins or ends and where a stream is attached. -/

namespace MarketSketch

theorem Desk.noteAll_noteAll (d : Desk) (ns ns' : List Log.Note) :
    (d.noteAll ns).noteAll ns' = d.noteAll (ns ++ ns') := List.foldl_append.symm

namespace Board

def Event.keepsSession : Event → Bool
  | .switch _ | .teardown => false
  | _ => true

theorem step_session {e : Event} (he : e.keepsSession = true) (b : Board) (m : Moment) :
    (b.step m e).state.guard = b.guard ∧ (b.step m e).state.feed.ticket? = b.feed.ticket? := by
  cases e with
  | switch | teardown => simp [Event.keepsSession] at he
  | history t cs => exact Standing.applyHistory_keeps b t cs
  | update t c => exact Standing.applyUpdate_keeps b t c
  | analysis t payload =>
    show (b.applyAnalysis m t payload).state.guard = _ ∧
      (b.applyAnalysis m t payload).state.feed.ticket? = _
    rw [applyAnalysis_state]
    split <;> exact ⟨rfl, rfl⟩
  | _ => exact ⟨rfl, rfl⟩

theorem Event.keepsSession_of_byHost {e : Event} (he : e.byHost = true) :
    e.keepsSession = true := by
  cases e with
  | switch | teardown => cases he
  | _ => rfl

theorem step_of_byHost {e : Event} (he : e.byHost = true) (b : Board) (m : Moment) :
    (b.step m e).state.guard = b.guard ∧ (b.step m e).state.feed = b.feed ∧
      (b.step m e).state.engine = b.engine := by
  cases e with
  | switch | beginSync | history | update | analysis | resetEngine | teardown => cases he
  | _ => exact ⟨rfl, rfl, rfl⟩

theorem currentTicket_switchSymbol (b : Board) (s : Symbol) :
    (b.switchSymbol s).1.currentTicket? = some (b.switchSymbol s).2 :=
  Option.filter_some_pos (b.guard.isCurrent_begin s)

theorem applyHistory_reply (b : Board) (t : Ticket) (cs : List Candle) :
    (b.applyHistory t cs).reply = b.isCurrent t := by
  show (b.feed.load b.guard t cs).reply = b.guard.isCurrent t
  unfold LiveFeed.load
  split <;> simp [*]

end Board

def Task.ticket? : Task → Option Ticket
  | .history _ t _ | .analysis _ t _ => some t
  | _ => none

namespace Page

variable {p q r : Page} {t : Ticket}

def tickets (p : Page) : List Ticket :=
  (p.ready ++ p.waiting).filterMap Task.ticket? ++ p.streams.map (·.ticket)

def handles (p : Page) : List (Ticket × Bool) := p.streams.map fun s => (s.ticket, s.aborted)

/-- The ticket is from an earlier session or from the one on display. -/
def Knows (p : Page) (t : Ticket) : Prop :=
  t.generation ≤ p.board.guard.generation ∧
    (p.board.isCurrent t = true → p.board.feed.ticket? = some t)

def KnowsAll (p : Page) : Prop := ∀ t ∈ p.tickets, p.Knows t

theorem mem_tickets : t ∈ p.tickets ↔
    (∃ k, (k ∈ p.ready ∨ k ∈ p.waiting) ∧ k.ticket? = some t) ∨ t ∈ p.handles.map (·.1) := by
  simp [tickets, handles, or_and_right, exists_or, or_assoc]

theorem knows_of_current (h : p.board.currentTicket? = some t) : p.Knows t := by
  obtain ⟨hfeed, hcurrent⟩ := Option.filter_eq_some_iff.mp h
  have hgen : t.generation = p.board.guard.generation := by
    simpa [Guard.isCurrent] using hcurrent
  exact ⟨Nat.le_of_eq hgen, fun _ => hfeed⟩

theorem Knows.current_iff (h : p.Knows t) :
    p.board.isCurrent t = true ↔ p.board.currentTicket? = some t := by
  constructor
  · intro hcurrent
    exact Option.filter_eq_some_iff.mpr ⟨h.2 hcurrent, hcurrent⟩
  · intro hdisplay
    exact (Option.filter_eq_some_iff.mp hdisplay).2

/-- The session on display stays, and no other session is waited for. -/
structure SameSession (p q : Page) : Prop where
  guard : q.board.guard = p.board.guard
  ticket : q.board.feed.ticket? = p.board.feed.ticket?
  tickets : ∀ t ∈ q.tickets, t ∈ p.tickets ∨ p.Knows t

/-- Beside the session, slot and streams stay, and none is aborted. -/
structure Undisturbed (p q : Page) : Prop extends SameSession p q where
  slot : q.slot = p.slot
  handles : q.handles = p.handles

/-- Beside that the overlay shows and keeps what it did, and only notes were added to its log. -/
structure Aside (p q : Page) : Prop extends Undisturbed p q where
  board : q.board = p.board
  status : q.status = p.status
  listener : q.listener = p.listener
  heard : q.heard = p.heard
  screen : q.screen = p.screen
  canvases : q.canvases = p.canvases
  desk : ∃ notes, q.desk = p.desk.noteAll notes

namespace SameSession

theorem of_tasks (hguard : q.board.guard = p.board.guard)
    (hticket : q.board.feed.ticket? = p.board.feed.ticket?)
    (hstreams : ∀ t ∈ q.handles.map (·.1), t ∈ p.handles.map (·.1) ∨ p.Knows t)
    (htasks : ∀ k, k ∈ q.ready ∨ k ∈ q.waiting → (k ∈ p.ready ∨ k ∈ p.waiting) ∨
      ∀ t, k.ticket? = some t → p.Knows t) : SameSession p q := by
  refine ⟨hguard, hticket, fun t ht => ?_⟩
  rcases mem_tickets.mp ht with ⟨k, hk, hkt⟩ | hstream
  · rcases htasks k hk with hold | hnew
    · exact .inl (mem_tickets.mpr (.inl ⟨k, hold, hkt⟩))
    · exact .inr (hnew t hkt)
  · exact (hstreams t hstream).imp_left fun hold => mem_tickets.mpr (.inr hold)

theorem knows_iff (h : SameSession p q) : q.Knows t ↔ p.Knows t := by
  unfold Knows Board.isCurrent
  rw [h.guard, h.ticket]

theorem current (h : SameSession p q) : q.board.isCurrent t = p.board.isCurrent t := by
  unfold Board.isCurrent
  rw [h.guard]

theorem currentTicket (h : SameSession p q) : q.board.currentTicket? = p.board.currentTicket? := by
  unfold Board.currentTicket? LiveFeed.current?
  rw [h.guard, h.ticket]

theorem trans (h : SameSession p q) (h' : SameSession q r) : SameSession p r := by
  refine ⟨h'.guard.trans h.guard, h'.ticket.trans h.ticket, fun t ht => ?_⟩
  rcases h'.tickets t ht with hold | hknown
  · exact h.tickets t hold
  · exact .inr (h.knows_iff.mp hknown)

theorem knowsAll (h : SameSession p q) (hp : p.KnowsAll) : q.KnowsAll := by
  intro t ht
  rw [h.knows_iff]
  rcases h.tickets t ht with hold | hknown
  · exact hp t hold
  · exact hknown

end SameSession

namespace Undisturbed

theorem refl (p : Page) : Undisturbed p p := ⟨⟨rfl, rfl, fun _ h => .inl h⟩, rfl, rfl⟩

theorem trans (h : Undisturbed p q) (h' : Undisturbed q r) : Undisturbed p r :=
  ⟨h.toSameSession.trans h'.toSameSession, h'.slot.trans h.slot, h'.handles.trans h.handles⟩

theorem of_tasks (hguard : q.board.guard = p.board.guard)
    (hticket : q.board.feed.ticket? = p.board.feed.ticket?) (hslot : q.slot = p.slot)
    (hhandles : q.handles = p.handles)
    (htasks : ∀ k, k ∈ q.ready ∨ k ∈ q.waiting → (k ∈ p.ready ∨ k ∈ p.waiting) ∨
      ∀ t, k.ticket? = some t → p.Knows t) : Undisturbed p q :=
  ⟨.of_tasks hguard hticket (fun _ ht => .inl (hhandles ▸ ht)) htasks, hslot, hhandles⟩

theorem of_same (hguard : q.board.guard = p.board.guard)
    (hticket : q.board.feed.ticket? = p.board.feed.ticket?) (hslot : q.slot = p.slot)
    (hstreams : q.streams = p.streams) (hready : q.ready = p.ready)
    (hwaiting : q.waiting = p.waiting) : Undisturbed p q := by
  refine of_tasks hguard hticket hslot (by rw [Page.handles, hstreams, Page.handles]) ?_
  intro k hk
  rw [hready, hwaiting] at hk
  exact .inl hk

end Undisturbed

namespace Aside

theorem refl (p : Page) : Aside p p := ⟨.refl p, rfl, rfl, rfl, rfl, rfl, rfl, [], rfl⟩

theorem trans (h : Aside p q) (h' : Aside q r) : Aside p r := by
  obtain ⟨ns, hns⟩ := h.desk
  obtain ⟨ns', hns'⟩ := h'.desk
  exact ⟨h.toUndisturbed.trans h'.toUndisturbed, h'.board.trans h.board, h'.status.trans h.status,
    h'.listener.trans h.listener, h'.heard.trans h.heard, h'.screen.trans h.screen,
    h'.canvases.trans h.canvases, ns ++ ns', by rw [hns', hns, Desk.noteAll_noteAll]⟩

end Aside

theorem aside_noteAll (p : Page) (ns : List Log.Note) : Aside p (p.noteAll ns) :=
  ⟨.of_same rfl rfl rfl rfl rfl rfl, rfl, rfl, rfl, rfl, rfl, rfl, ns, rfl⟩

theorem aside_note (p : Page) (n : Log.Note) : Aside p (p.note n) := aside_noteAll p [n]

theorem undisturbed_performAll (p : Page) (es : List Effect) : Undisturbed p (p.performAll es) :=
  .of_same rfl rfl rfl rfl rfl rfl

theorem undisturbed_status (p : Page) (text : String) : Undisturbed p { p with status := text } :=
  .of_same rfl rfl rfl rfl rfl rfl

section Tasks

theorem aside_suspend {k : Task} (hk : ∀ t, k.ticket? = some t → p.Knows t) :
    Aside p (p.suspend k) := by
  refine ⟨.of_tasks rfl rfl rfl rfl ?_, rfl, rfl, rfl, rfl, rfl, rfl, [], rfl⟩
  rintro l (hl | hl)
  · exact .inl (.inl hl)
  · rcases List.mem_append.mp hl with hold | hnew
    · exact .inl (.inr hold)
    · exact .inr (List.mem_singleton.mp hnew ▸ hk)

theorem aside_park (p : Page) (id : Nat) : Aside p (p.suspend (.stream id)) :=
  aside_suspend (by simp [Task.ticket?])

theorem undisturbed_await {k : Task} (h : Undisturbed p q)
    (hk : ∀ t, k.ticket? = some t → p.Knows t) : Undisturbed p (q.suspend k) :=
  h.trans (aside_suspend fun t ht => h.knows_iff.mpr (hk t ht)).toUndisturbed

theorem undisturbed_spawn {k : Task} (hk : k.ticket? = none) : Undisturbed p (p.spawn k) := by
  refine .of_tasks rfl rfl rfl rfl ?_
  rintro l (hl | hl)
  · rcases List.mem_append.mp hl with hold | hnew
    · exact .inl (.inl hold)
    · exact .inr (by simp [List.mem_singleton.mp hnew, hk])
  · exact .inl (.inr hl)

theorem mem_wake {which : Task → Bool} {k : Task}
    (hk : k ∈ (p.wake which).ready ∨ k ∈ (p.wake which).waiting) : k ∈ p.ready ∨ k ∈ p.waiting := by
  rcases hk with hk | hk
  · exact (List.mem_append.mp hk).imp_right List.mem_of_mem_filter
  · exact .inr (List.mem_of_mem_filter hk)

theorem undisturbed_wake (which : Task → Bool) : Undisturbed p (p.wake which) :=
  .of_tasks rfl rfl rfl rfl fun _ hk => .inl (mem_wake hk)

theorem undisturbed_taken (n : Nat) : Undisturbed p { p with ready := p.ready.eraseIdx n } :=
  .of_tasks rfl rfl rfl rfl fun _ hk => .inl (hk.imp_left fun h => List.mem_of_mem_eraseIdx h)

end Tasks

section Drawing

/-- A page after a repaint, or after none: the flag of the board may be down, the screen may hold
another frame, and there may be notes of what failed. -/
def Repainted (p q : Page) : Prop :=
  ∃ flag notes screen canvases, q =
    { p with
      board := { p.board with needsRedraw := flag }
      desk := p.desk.noteAll notes
      screen := screen
      canvases := canvases }

theorem setCanvas_eq (p : Page) (id : String) (c : Canvas) :
    ∃ canvases, p.setCanvas id c = { p with canvases := canvases } := by
  unfold setCanvas
  split <;> exact ⟨_, rfl⟩

theorem repainted_drawWith (p : Page)
    (draw : ∀ {σ : Type}, Surface σ → σ → Board × σ × Option Failure)
    (hdraw : ∀ {σ : Type} (surface : Surface σ) (start : σ),
      ∃ flag, (draw surface start).1 = { p.board with needsRedraw := flag }) :
    Repainted p (p.drawWith draw) := by
  unfold drawWith
  split
  · exact ⟨p.board.needsRedraw, [], p.screen, p.canvases, rfl⟩
  · rename_i rec _
    obtain ⟨flag, hboard⟩ := hdraw Recorder.surface rec
    -- of what was drawn only the board matters, and of that only the flag
    dsimp only
    generalize draw Recorder.surface rec = drawn at hboard ⊢
    obtain ⟨board, after, failure⟩ := drawn
    subst hboard
    exact ⟨flag, (failure.map failureNote).toList, some (.recorder after), p.canvases, rfl⟩
  · rename_i id _
    obtain ⟨flag, hboard⟩ := hdraw (Canvas.surface p.host.drawFault?) (p.canvas id)
    dsimp only
    generalize draw (Canvas.surface p.host.drawFault?) (p.canvas id) = drawn at hboard ⊢
    obtain ⟨board, after, failure⟩ := drawn
    subst hboard
    obtain ⟨canvases, hset⟩ := setCanvas_eq
      { p with board := { p.board with needsRedraw := flag } } id after
    refine ⟨flag, (failure.map failureNote).toList, p.screen, canvases, ?_⟩
    dsimp only
    rw [hset]
    rfl

theorem repainted_renderNow (p : Page) : Repainted p p.renderNow := by
  refine repainted_drawWith p _ fun surface start => ?_
  rcases p.board.render_cases p.config.style surface start with ⟨_, _, h⟩ | ⟨_, _, h⟩
  · exact ⟨false, h⟩
  · exact ⟨p.board.needsRedraw, h⟩

theorem repainted_redraw (p : Page) : Repainted p p.redraw := by
  refine repainted_drawWith p _ fun surface start => ?_
  cases hneeded : p.board.needsRedraw with
  | false =>
    rw [Board.renderIfNeeded_of_upToDate hneeded]
    exact ⟨p.board.needsRedraw, rfl⟩
  | true =>
    rw [Board.renderIfNeeded_of_needed hneeded]
    rcases p.board.render_cases p.config.style surface start with ⟨_, _, h⟩ | ⟨_, _, h⟩
    · exact ⟨false, h⟩
    · exact ⟨p.board.needsRedraw, h⟩

theorem Repainted.undisturbed (h : Repainted p q) : Undisturbed p q := by
  obtain ⟨flag, notes, screen, canvases, rfl⟩ := h
  exact .of_same rfl rfl rfl rfl rfl rfl

theorem repainted_attach (p : Page) (s : Screen) : Repainted p (p.attach s) := by
  obtain ⟨flag, notes, screen, canvases, h⟩ := repainted_renderNow { p with screen := some s }
  exact ⟨flag, notes, screen, canvases, h⟩

theorem repainted_takeCanvas (p : Page) (id : String) (c : Canvas) :
    Repainted p ((p.setCanvas id c).attach (.canvas id)) := by
  obtain ⟨canvases, hset⟩ := setCanvas_eq p id c
  rw [hset]
  obtain ⟨flag, notes, screen, canvases, h⟩ :=
    repainted_attach { p with canvases := canvases } (.canvas id)
  exact ⟨flag, notes, screen, canvases, h⟩

theorem repainted_attachCanvas (p : Page) (id : String) : Repainted p (p.call (.attach id)) := by
  simp only [call, attachCanvas]
  cases p.host.canvas id with
  | error f => exact ⟨p.board.needsRedraw, [], p.screen, p.canvases, rfl⟩
  | ok => exact repainted_takeCanvas p id _

end Drawing

section Updates

variable {ρ : Type}

theorem undisturbed_step {u : Turn Board ρ} (hguard : u.state.guard = p.board.guard)
    (hticket : u.state.feed.ticket? = p.board.feed.ticket?) : Undisturbed p (p.step u).1 :=
  .of_same hguard hticket rfl rfl rfl rfl

theorem undisturbed_update {u : Turn Board ρ} (hguard : u.state.guard = p.board.guard)
    (hticket : u.state.feed.ticket? = p.board.feed.ticket?) : Undisturbed p (p.update u).1 :=
  (undisturbed_step hguard hticket).trans (repainted_redraw (p.step u).1).undisturbed

theorem undisturbed_operate {e : Board.Event} (he : e.keepsSession = true) :
    Undisturbed p (p.operate e).1 := by
  obtain ⟨hguard, hticket⟩ := Board.step_session he p.board p.moment
  exact undisturbed_update hguard hticket

theorem undisturbed_applyAnalysis (t : Ticket) (payload : Json.Value) :
    Undisturbed p (p.update (p.board.applyAnalysis p.moment t payload)).1 := by
  obtain ⟨hguard, hticket⟩ :=
    Board.step_session (e := .analysis t payload) rfl p.board p.moment
  exact undisturbed_update hguard hticket

end Updates

section Calls

theorem aside_settle (p : Page) (c : Client) (result : Except Failure Nat) :
    Aside p (p.settle c result) := by
  cases c with
  | caller place =>
    cases result <;>
      exact ⟨.of_same rfl rfl rfl rfl rfl rfl, rfl, rfl, rfl, rfl, rfl, rfl, [], rfl⟩
  | panel | panelSync =>
    unfold settle showStatus
    cases result <;> dsimp only <;> split <;>
      exact ⟨.of_same rfl rfl rfl rfl rfl rfl, rfl, rfl, rfl, rfl, rfl, rfl, [], rfl⟩
  | timer =>
    cases result with
    | ok => exact .refl p
    | error => exact aside_note p _

theorem aside_fetch (places : List TokenReading) (url : String) : Aside p (p.fetch places url).1 :=
  ⟨.of_same rfl rfl rfl rfl rfl rfl, rfl, rfl, rfl, rfl, rfl, rfl, (chooseToken places).2, rfl⟩

theorem aside_beginSync (p : Page) (c : Client) : Aside p (p.beginSync c) := by
  unfold beginSync
  cases h : p.board.currentTicket? with
  | none => exact aside_settle p c _
  | some t =>
    -- the answer is awaited for the session on display, which the page knows
    have hasked : Aside p (p.askAnalysis p.places p.config.apiBaseUrl t.symbol).1 := aside_fetch _ _
    refine hasked.trans (aside_suspend ?_)
    rintro u ⟨⟩
    exact hasked.knows_iff.mpr (knows_of_current h)

theorem aside_settleLoad (p : Page) (c : Client) (result : Except Failure Nat) :
    Aside p (p.settleLoad c result) := by
  unfold settleLoad
  split
  · exact aside_beginSync p .panelSync
  · exact aside_settle p c _

theorem undisturbed_fail (t : Ticket) (f : Failure) : Undisturbed p (p.fail t f) := by
  unfold fail
  dsimp only
  split <;> exact .of_same rfl rfl rfl rfl rfl rfl

theorem undisturbed_finishSync (c : Client) (t : Ticket) (a : Answer) :
    Undisturbed p (p.finishSync c t a) := by
  unfold finishSync
  split
  · exact (undisturbed_fail t _).trans (aside_settle _ c _).toUndisturbed
  · exact (undisturbed_applyAnalysis t _).trans (aside_settle _ c _).toUndisturbed

end Calls

section Streams

theorem handles_modify {id : Nat} {change : LiveStream → LiveStream}
    (h : ∀ s, ((change s).ticket, (change s).aborted) = (s.ticket, s.aborted)) :
    { p with streams := p.streams.modify id change }.handles = p.handles := by
  refine List.ext_getElem? fun n => ?_
  simp only [handles, List.getElem?_map, List.getElem?_modify]
  split
  · cases p.streams[n]? with
    | none => rfl
    | some s => exact congrArg some (h s)
  · simp

theorem handles_setStream {id : Nat} {s u : LiveStream} (h : p.streams[id]? = some s)
    (hticket : u.ticket = s.ticket) (haborted : u.aborted = s.aborted) :
    (p.setStream id u).handles = p.handles := by
  refine List.ext_getElem? fun n => ?_
  simp only [handles, setStream, List.getElem?_map]
  by_cases hn : id = n
  · subst hn
    rw [List.getElem?_set_self (List.getElem?_eq_some_iff.mp h).1, h, Option.map_some,
      Option.map_some, hticket, haborted]
  · rw [List.getElem?_set_ne hn]

theorem aside_setStream {id : Nat} {s u : LiveStream} (h : p.streams[id]? = some s)
    (hticket : u.ticket = s.ticket) (haborted : u.aborted = s.aborted) :
    Aside p (p.setStream id u) :=
  ⟨.of_tasks rfl rfl rfl (handles_setStream h hticket haborted) fun _ hk => .inl hk,
    rfl, rfl, rfl, rfl, rfl, rfl, [], rfl⟩

theorem aside_dropSocket (p : Page) (s : LiveStream) : Aside p (p.dropSocket s) := by
  unfold dropSocket
  split <;> exact ⟨.of_same rfl rfl rfl rfl rfl rfl, rfl, rfl, rfl, rfl, rfl, rfl, [], rfl⟩

theorem dropSocket_streams (s : LiveStream) : (p.dropSocket s).streams = p.streams := by
  unfold dropSocket
  split <;> rfl

theorem aside_closeStream (p : Page) (id : Nat) : Aside p (p.closeStream id) := by
  unfold closeStream
  cases h : p.streams[id]? with
  | none => exact .refl p
  | some s =>
    refine (aside_dropSocket p s).trans (aside_setStream (s := s) ?_ rfl rfl)
    rw [dropSocket_streams, h]

theorem aside_abortStream (p : Page) (id : Nat) (t : Ticket) : Aside p (p.abortStream id t) :=
  (aside_closeStream p id).trans (aside_note _ _)

theorem undisturbed_streamEnded (t : Ticket) (f : Option Failure) :
    Undisturbed p (p.streamEnded t f) := by
  unfold streamEnded
  split <;> exact .of_same rfl rfl rfl rfl rfl rfl

theorem undisturbed_finishStream (id : Nat) (t : Ticket) (f : Option Failure) :
    Undisturbed p (p.finishStream id t f) := by
  cases f with
  | none =>
    refine Undisturbed.trans ?_ (undisturbed_streamEnded t none)
    exact ((aside_note p _).trans (aside_closeStream _ id)).toUndisturbed
  | some f =>
    refine Undisturbed.trans ?_ (undisturbed_streamEnded t (some f))
    exact ((aside_closeStream p id).trans (aside_note _ _)).toUndisturbed

theorem connect_cases {id : Nat} {s : LiveStream} (h : p.streams[id]? = some s) :
    (∃ n f, p.connect id s = (p.note n).finishStream id s.ticket f) ∨ Aside p (p.connect id s) := by
  unfold connect
  dsimp only
  split
  · exact .inl ⟨_, _, rfl⟩
  · right
    generalize hq : p.note _ = q
    have hnoted : Aside p q := hq ▸ aside_note p _
    have hstream : q.streams[id]? = some s := by rw [← hq]; exact h
    generalize hr : { q with sockets := _ } = r
    have hsocket : Aside q r := by
      subst hr
      exact ⟨.of_same rfl rfl rfl rfl rfl rfl, rfl, rfl, rfl, rfl, rfl, rfl, [], rfl⟩
    have hlistening : Aside r (r.setStream id { s with phase := .listening q.sockets.length }) :=
      aside_setStream (s := s) (by rw [← hr]; exact hstream) rfl rfl
    exact hnoted.trans (hsocket.trans (hlistening.trans (aside_park _ id)))

theorem undisturbed_connect {id : Nat} {s : LiveStream} (h : p.streams[id]? = some s) :
    Undisturbed p (p.connect id s) := by
  rcases connect_cases h with ⟨n, f, hended⟩ | hwaits
  · rw [hended]
    exact (aside_note p n).toUndisturbed.trans (undisturbed_finishStream id s.ticket f)
  · exact hwaits.toUndisturbed

end Streams

section Sessions

theorem handles_abort (p : Page) (id : Nat) :
    (p.abort (some id)).handles = p.handles.modify id fun h => (h.1, true) := by
  refine List.ext_getElem? fun n => ?_
  simp only [abort, wake, handles, List.getElem?_map, List.getElem?_modify]
  by_cases hn : id = n
  · simp [hn, Function.comp_def]
  · simp [hn]

theorem mem_abort {stream : Option Nat} {k : Task}
    (hk : k ∈ (p.abort stream).ready ∨ k ∈ (p.abort stream).waiting) :
    k ∈ p.ready ∨ k ∈ p.waiting := by
  cases stream with
  | none => exact hk
  | some id => exact mem_wake hk

theorem sessions_abort (p : Page) (stream : Option Nat) :
    (p.abort stream).handles.map (·.1) = p.handles.map (·.1) := by
  cases stream with
  | none => rfl
  | some id =>
    rw [handles_abort]
    refine List.ext_getElem? fun n => ?_
    simp only [List.getElem?_map, List.getElem?_modify]
    split <;> simp [Function.comp_def]

theorem sameSession_abort (p : Page) (stream : Option Nat) : SameSession p (p.abort stream) := by
  refine .of_tasks ?_ ?_ (fun t ht => .inl (sessions_abort p stream ▸ ht))
    fun k hk => .inl (mem_abort hk)
  · cases stream <;> rfl
  · cases stream <;> rfl

theorem sameSession_slot (p : Page) (slot : StreamSlot) : SameSession p { p with slot := slot } :=
  .of_tasks rfl rfl (fun _ ht => .inl ht) fun _ hk => .inl hk

theorem sameSession_releaseStream (p : Page) : SameSession p p.releaseStream :=
  (sameSession_slot p _).trans
    ((sameSession_abort _ _).trans (undisturbed_performAll _ _).toSameSession)

def opening (p : Page) (t : Ticket) : Page :=
  spawn { p with streams := p.streams ++ [{ ticket := t }] } (.stream p.streams.length)

theorem handles_opening (p : Page) (t : Ticket) :
    (p.opening t).handles = p.handles ++ [(t, false)] := by
  simp [handles, opening, spawn]

theorem sameSession_opening (ht : p.Knows t) : SameSession p (p.opening t) := by
  refine .of_tasks rfl rfl (fun u hu => ?_) fun k hk => ?_
  · rw [handles_opening, List.map_append, List.mem_append] at hu
    refine hu.imp_right fun hnew => ?_
    rwa [List.mem_singleton.mp hnew]
  · rcases hk with hready | hwaiting
    · rcases List.mem_append.mp hready with hold | hnew
      · exact .inl (.inl hold)
      · exact .inr (by simp [List.mem_singleton.mp hnew, Task.ticket?])
    · exact .inl (.inr hwaiting)

theorem sameSession_startStream (ht : p.Knows t) : SameSession p (p.startStream t) :=
  (sameSession_opening ht).trans ((sameSession_slot _ _).trans
    ((sameSession_abort _ _).trans (undisturbed_performAll _ _).toSameSession))

theorem undisturbed_beginLoad (p : Page) (c : Client) (s : Symbol) :
    Undisturbed { p with board := (p.board.switchSymbol s).1 }.releaseStream (p.beginLoad c s) := by
  have hcurrent : Knows { p with board := (p.board.switchSymbol s).1 } (p.board.switchSymbol s).2 :=
    knows_of_current (Board.currentTicket_switchSymbol p.board s)
  -- after the release a load only draws, tells its status and asks
  unfold beginLoad
  dsimp only
  generalize hq : Page.releaseStream _ = q
  have hknown : q.Knows (p.board.switchSymbol s).2 := by
    rw [← hq]
    exact (sameSession_releaseStream _).knows_iff.mpr hcurrent
  refine undisturbed_await ?_ (by rintro t ⟨⟩; exact hknown)
  exact (repainted_redraw q).undisturbed.trans ((undisturbed_status _ _).trans
    ((aside_note _ _).trans (aside_fetch _ _)).toUndisturbed)

theorem undisturbed_teardown (p : Page) : Undisturbed
      { p.releaseStream with board := p.releaseStream.board.teardown.state } p.teardown :=
  (undisturbed_performAll _ _).trans
    ((repainted_redraw _).undisturbed.trans (undisturbed_status _ _))

theorem KnowsAll.outdated (hp : p.KnowsAll) {b : Board}
    (hgen : b.guard.generation = p.board.guard.generation + 1) :
    { p with board := b }.KnowsAll := by
  intro t ht
  -- every ticket that is waited for is older than the new generation, so none is current
  have hlate : t.generation ≤ p.board.guard.generation := (hp t ht).1
  refine ⟨by show t.generation ≤ b.guard.generation; omega, fun hcurrent => ?_⟩
  have : t.generation = b.guard.generation := by
    simpa [Board.isCurrent, Guard.isCurrent] using hcurrent
  omega

end Sessions

end Page

end MarketSketch
