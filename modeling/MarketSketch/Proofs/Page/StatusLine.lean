import MarketSketch.Proofs.Page.Tasks

/-! The status line of a mounted panel. It takes over the overlay's status when a load of the panel
ends. A periodic sync that fails and a stream that ends tell the overlay, and nobody tells the
line. -/

namespace MarketSketch

namespace Task

def isLoad : Task → Bool
  | .load .panel _ | .history .panel _ _ | .analysis .panelSync _ _ => true
  | _ => false

def ofPanel : Task → Bool
  | .effect _ | .load .panel _ | .history .panel _ _ | .analysis .panelSync _ _ | .sync .timer
  | .analysis .timer _ _ | .stream _ => true
  | _ => false

theorem ofPanel_of_leads {j k : Task} (hj : j.ofPanel = true) (h : j.Leads k) :
    k.ofPanel = true := by
  -- a load and a sync hand their client on
  unfold Leads at h
  split at h
  · simp [ofPanel] at hj
  · rename_i c _
    obtain ⟨t, n, rfl⟩ := h
    cases c <;> first | rfl | simp [ofPanel] at hj
  · obtain ⟨t, n, rfl⟩ := h
    rfl
  · rename_i c
    obtain ⟨t, n, rfl⟩ := h
    cases c <;> first | rfl | simp [ofPanel] at hj
  · obtain ⟨s, rfl⟩ := h
    rfl
  · exact h.elim

end Task

def Ticket.endText (t : Ticket) : Option Failure → String
  | none => t.symbol.name ++ ": stream closed"
  | some f => f.message

namespace Page

variable {p q r : Page} {t : Ticket} {said : Option String} {k : Task}

/-- What happens to a page on which there is nothing but a panel: its inputs, with symbols that can
be loaded, its pointer and keys, turns of its tasks, and what the world does. -/
def Happening.ofPanel : Happening → Bool
  | .symbol text => (Symbol.entered text).isOk
  | .operate (.move _) | .operate (.up _) | .operate .cancel => true
  | .viewport _ | .tool _ | .press _ _ | .key _ | .turn _ | .message _ _ | .ended _ _
  | .respond _ _ | .deliver _ _ | .tick | .clock _ | .host _ => true
  | _ => false

def refusal (url : String) : Failure :=
  .network ("Failed to open WebSocket: " ++
    thrownError "SyntaxError" ("The URL '" ++ url ++ "' is invalid."))

def ending? (p : Page) (s : LiveStream) : Option (Option Failure) :=
  if s.aborted then none
  else
    match s.phase with
    | .over => none
    | .starting =>
      if p.host.socketsRefused then
        some (some (refusal (Route.stream p.config.streamUrlTemplate s.ticket.symbol)))
      else none
    | .listening _ => s.inbox.findSome? endOf?

def tells? (p : Page) (t : Ticket) (text : String) : Option String :=
  if p.board.isCurrent t then some text else none

/-- What a turn of a task tells the overlay aside from loads: that a periodic sync failed, or that
a stream ended. -/
def turnTells? (p : Page) : Task → Option String
  | .analysis .timer t request =>
    match (p.answer? request).map document with
    | some (.error f) => p.tells? t f.message
    | _ => none
  | .stream id =>
    p.streams[id]?.bind fun s => (p.ending? s).bind fun f => p.tells? s.ticket (s.ticket.endText f)
  | _ => none

def told? (p : Page) : Happening → Option String
  | .turn n => p.ready[n]?.bind p.turnTells?
  | .ended id f => p.streams[id]?.bind fun s => p.tells? s.ticket (s.ticket.endText f)
  | _ => none

def turnEnds (p : Page) : Task → Bool
  | .history .panel _ request =>
    match (p.answer? request).map candlesOf with
    | some (.ok _) => p.board.currentTicket?.isNone
    | some (.error _) => true
    | none => false
  | .analysis .panelSync _ request => (p.answer? request).isSome
  | _ => false

def endsLoad (p : Page) : Happening → Bool
  | .turn n => p.ready[n]?.any p.turnEnds
  | _ => false

/-- What the overlay was told last since a load of the panel ended. -/
def untold (p : Page) (last : Option String) : List Happening → Option String
  | [] => last
  | x :: hs => (p.happen x).untold (if p.endsLoad x then none else (p.told? x).or last) hs

def Loading (p : Page) : Prop := ∃ k ∈ p.pending, k.isLoad = true

instance (p : Page) : Decidable p.Loading := inferInstanceAs (Decidable (∃ k ∈ _, _))

structure SameInputs (p q : Page) : Prop where
  listener : q.listener = p.listener
  mounted : q.panel.mounted = p.panel.mounted
  symbolText : q.panel.symbolText = p.panel.symbolText

/-- Beside that the line stays, no load is lost, and the status is what was said, if anything
was. -/
structure Reports (said : Option String) (p q : Page) : Prop extends SameInputs p q where
  line : q.panel.status = p.panel.status
  status : q.status = said.getD p.status
  loads : ∀ k ∈ p.pending, k.isLoad = true → k ∈ q.pending

namespace SameInputs

theorem of_same (hlistener : q.listener = p.listener) (hpanel : q.panel = p.panel) :
    SameInputs p q :=
  ⟨hlistener, by rw [hpanel], by rw [hpanel]⟩

theorem refl (p : Page) : SameInputs p p := .of_same rfl rfl

theorem trans (h : SameInputs p q) (h' : SameInputs q r) : SameInputs p r :=
  ⟨h'.listener.trans h.listener, h'.mounted.trans h.mounted, h'.symbolText.trans h.symbolText⟩

end SameInputs

namespace Reports

theorem of_tasks (hlistener : q.listener = p.listener) (hpanel : q.panel = p.panel)
    (hstatus : q.status = p.status) (htasks : ∀ k ∈ p.pending, k.isLoad = true → k ∈ q.pending) :
    Reports none p q :=
  ⟨.of_same hlistener hpanel, by rw [hpanel], hstatus, htasks⟩

theorem of_same (hlistener : q.listener = p.listener) (hpanel : q.panel = p.panel)
    (hstatus : q.status = p.status) (hready : q.ready = p.ready)
    (hwaiting : q.waiting = p.waiting) : Reports none p q :=
  .of_tasks hlistener hpanel hstatus fun k hk _ => by rwa [pending, hready, hwaiting]

theorem refl (p : Page) : Reports none p p := .of_same rfl rfl rfl rfl rfl

theorem trans (h : Reports none p q) (h' : Reports said q r) : Reports said p r :=
  ⟨h.toSameInputs.trans h'.toSameInputs, h'.line.trans h.line, by rw [h'.status, h.status]; rfl,
    fun k hk hload => h'.loads k (h.loads k hk hload) hload⟩

theorem before (h : Reports said p q) (h' : Reports none q r) : Reports said p r :=
  ⟨h.toSameInputs.trans h'.toSameInputs, h'.line.trans h.line, h'.status.trans h.status,
    fun k hk hload => h'.loads k (h.loads k hk hload) hload⟩

end Reports

section Calls

theorem Repainted.reports (h : Repainted p q) : Reports none p q := by
  obtain ⟨flag, notes, screen, canvases, rfl⟩ := h
  exact .of_same rfl rfl rfl rfl rfl

theorem reports_note (p : Page) (n : Log.Note) : Reports none p (p.note n) :=
  .of_same rfl rfl rfl rfl rfl

theorem reports_status (p : Page) (text : String) :
    Reports (some text) p { p with status := text } :=
  ⟨.of_same rfl rfl, rfl, rfl, fun _ hk _ => hk⟩

theorem reports_fetch (p : Page) (places : List TokenReading) (url : String) :
    Reports none p (p.fetch places url).1 := .of_same rfl rfl rfl rfl rfl

theorem reports_update {ρ : Type} (p : Page) (u : Turn Board ρ) :
    Reports none p (p.update u).1 := by
  have hstep : Reports none p (p.step u).1 := .of_same rfl rfl rfl rfl rfl
  exact hstep.trans (repainted_redraw _).reports

theorem reports_operate (p : Page) (e : Board.Event) : Reports none p (p.operate e).1 :=
  reports_update p _

theorem reports_spawn (p : Page) (k : Task) : Reports none p (p.spawn k) :=
  .of_tasks rfl rfl rfl fun _ hj _ => mem_pending_spawn.mpr (.inl hj)

theorem reports_suspend (p : Page) (k : Task) : Reports none p (p.suspend k) :=
  .of_tasks rfl rfl rfl fun _ hj _ => mem_pending_suspend.mpr (.inl hj)

theorem reports_wake (p : Page) (which : Task → Bool) : Reports none p (p.wake which) := by
  refine .of_tasks rfl rfl rfl fun k hk _ => ?_
  rcases mem_pending.mp hk with hready | hwaiting
  · exact mem_pending.mpr (.inl (List.mem_append_left _ hready))
  · cases hw : which k with
    | true =>
      exact mem_pending.mpr (.inl (List.mem_append_right _ (List.mem_filter.mpr ⟨hwaiting, hw⟩)))
    | false => exact mem_pending.mpr (.inr (List.mem_filter.mpr ⟨hwaiting, by simp [hw]⟩))

theorem reports_abort (p : Page) (stream : Option Nat) : Reports none p (p.abort stream) := by
  cases stream with
  | none => exact .refl p
  | some id => exact (reports_wake p (· = Task.stream id)).trans (.of_same rfl rfl rfl rfl rfl)

theorem reports_releaseStream (p : Page) : Reports none p p.releaseStream := by
  have hslot : Reports none p { p with slot := p.slot.release.state } :=
    .of_same rfl rfl rfl rfl rfl
  exact hslot.trans ((reports_abort _ _).trans (.of_same rfl rfl rfl rfl rfl))

theorem reports_startStream (p : Page) (t : Ticket) : Reports none p (p.startStream t) := by
  have hadded : Reports none p { p with streams := p.streams ++ [{ ticket := t }] } :=
    .of_same rfl rfl rfl rfl rfl
  have hopened : Reports none p (p.opening t) := hadded.trans (reports_spawn _ _)
  have hslot : Reports none (p.opening t)
      { p.opening t with slot := (p.slot.attach t.symbol p.streams.length).state } :=
    .of_same rfl rfl rfl rfl rfl
  exact hopened.trans (hslot.trans ((reports_abort _ _).trans (.of_same rfl rfl rfl rfl rfl)))

theorem reports_told (p : Page) (t : Ticket) (text : String) :
    Reports (p.tells? t text) p (if p.board.isCurrent t then { p with status := text } else p) := by
  unfold tells?
  split
  · exact reports_status p text
  · exact .refl p

theorem reports_fail (p : Page) (t : Ticket) (f : Failure) :
    Reports (p.tells? t f.message) p (p.fail t f) :=
  (reports_note p (failureNote f)).trans (reports_told (p.note (failureNote f)) t f.message)

theorem sameInputs_showStatus (p : Page) : SameInputs p p.showStatus := by
  unfold showStatus
  split
  · exact ⟨rfl, rfl, rfl⟩
  · exact .refl p

theorem sameInputs_settle (p : Page) (c : Client) (result : Except Failure Nat) :
    SameInputs p (p.settle c result) := by
  cases c with
  | caller place => cases result <;> exact .of_same rfl rfl
  | panel | panelSync => exact sameInputs_showStatus p
  | timer => cases result <;> exact .of_same rfl rfl

theorem reports_beginSync_timer (p : Page) : Reports none p (p.beginSync .timer) := by
  unfold beginSync
  split
  · exact reports_note p _
  · exact (reports_fetch p _ _).trans (reports_suspend _ _)

theorem reports_finishSync_timer (p : Page) (t : Ticket) (a : Answer) :
    Reports (match document a with | .error f => p.tells? t f.message | .ok _ => none) p
      (p.finishSync .timer t a) := by
  unfold finishSync
  cases document a with
  | error f => exact (reports_fail p t f).before (reports_note _ _)
  | ok payload => exact reports_update p _

end Calls

section Streams

theorem reports_setStream (p : Page) (id : Nat) (s : LiveStream) :
    Reports none p (p.setStream id s) :=
  .of_same rfl rfl rfl rfl rfl

theorem reports_dropSocket (p : Page) (s : LiveStream) : Reports none p (p.dropSocket s) := by
  unfold dropSocket
  split <;> exact .of_same rfl rfl rfl rfl rfl

theorem reports_closeStream (p : Page) (id : Nat) : Reports none p (p.closeStream id) := by
  unfold closeStream
  split
  · exact (reports_dropSocket p _).trans (reports_setStream _ id _)
  · exact .refl p

theorem reports_abortStream (p : Page) (id : Nat) (t : Ticket) :
    Reports none p (p.abortStream id t) :=
  (reports_closeStream p id).trans (reports_note _ _)

theorem SameSession.tells? (h : SameSession p q) (t : Ticket) (text : String) :
    q.tells? t text = p.tells? t text := by
  rw [Page.tells?, h.current, ← Page.tells?]

theorem streamEnded_eq (p : Page) (t : Ticket) (f : Option Failure) :
    p.streamEnded t f =
      if p.board.isCurrent t then { p with status := t.endText f } else p := by
  cases f <;> rfl

theorem reports_finishStream (p : Page) (id : Nat) (t : Ticket) (f : Option Failure) :
    Reports (p.tells? t (t.endText f)) p (p.finishStream id t f) := by
  have hended (q : Page) (hq : Aside p q) (hreports : Reports none p q) :
      Reports (p.tells? t (t.endText f)) p (q.streamEnded t f) := by
    rw [streamEnded_eq, ← hq.tells?]
    exact hreports.trans (reports_told q t _)
  cases f with
  | none =>
    exact hended _ ((aside_note p _).trans (aside_closeStream _ id))
      ((reports_note p _).trans (reports_closeStream _ id))
  | some f =>
    exact hended _ ((aside_closeStream p id).trans (aside_note _ _))
      ((reports_closeStream p id).trans (reports_note _ _))

theorem reports_connect (p : Page) (id : Nat) (s : LiveStream) :
    Reports (if p.host.socketsRefused then p.tells? s.ticket (s.ticket.endText
      (some (refusal (Route.stream p.config.streamUrlTemplate s.ticket.symbol)))) else none) p
      (p.connect id s) := by
  unfold connect
  dsimp only
  generalize hq : p.note _ = q
  have hnoted : Reports none p q := hq ▸ reports_note p _
  have hsame : Aside p q := hq ▸ aside_note p _
  have hhost : q.host = p.host := hq ▸ rfl
  rw [← hhost]
  split
  · rw [← hsame.tells?]
    exact hnoted.trans (reports_finishStream q id s.ticket _)
  · have hsocket : Reports none q { q with sockets := q.sockets ++
        [Socket.mk (Route.stream p.config.streamUrlTemplate s.ticket.symbol) true] } :=
      .of_same rfl rfl rfl rfl rfl
    exact hnoted.trans (hsocket.trans ((reports_setStream _ id _).trans (reports_suspend _ _)))

theorem reports_receive (hlistener : p.listener = none) (t : Ticket) (text : String) :
    Reports none p (p.receive t text) ∧ Undisturbed p (p.receive t text) := by
  unfold receive
  split
  · exact ⟨reports_note p _, (aside_note p _).toUndisturbed⟩
  · rename_i c _
    obtain ⟨hguard, hticket⟩ := Board.Standing.applyUpdate_keeps p.board t c
    let stepped := (p.step (p.board.applyUpdate t c)).1
    have hreports : Reports none p stepped := .of_same rfl rfl rfl rfl rfl
    have hcalm : Undisturbed p stepped := undisturbed_step hguard hticket
    have hdrawn := repainted_redraw stepped
    have hsilent : stepped.redraw.announce = stepped.redraw := by
      unfold announce
      rw [hdrawn.reports.listener, hreports.listener, hlistener]
      cases stepped.redraw.board.feed.buffer.last? <;> rfl
    dsimp only
    split
    · rw [hsilent]
      exact ⟨hreports.trans hdrawn.reports, hcalm.trans hdrawn.undisturbed⟩
    · exact ⟨hreports, hcalm⟩

theorem reports_readEvents (hlistener : p.listener = none) (id : Nat) (t : Ticket)
    (es : List SocketEvent) :
    Reports ((es.findSome? endOf?).bind fun f => p.tells? t (t.endText f)) p
      (readEvents id t es p) := by
  induction es generalizing p with
  | nil =>
    unfold readEvents
    split
    · exact reports_abortStream p id t
    · exact reports_suspend p _
  | cons e es ih =>
    unfold readEvents
    rw [List.findSome?_cons]
    cases e with
    | text text =>
      -- the session on display is the same when the end is read
      obtain ⟨hreports, hcalm⟩ := reports_receive hlistener t text
      have hnext := ih (hreports.listener.trans hlistener)
      simp only [hcalm.tells?] at hnext
      exact hreports.trans hnext
    | bytes => exact ih hlistener
    | error | closed | finished => exact reports_finishStream p id t _

theorem reports_runStream (hlistener : p.listener = none) (id : Nat) :
    Reports (p.turnTells? (.stream id)) p (p.runStream id) := by
  have htells : p.turnTells? (.stream id) = p.streams[id]?.bind fun s =>
      (p.ending? s).bind fun f => p.tells? s.ticket (s.ticket.endText f) := rfl
  rw [htells]
  unfold runStream
  cases p.streams[id]? with
  | none => exact .refl p
  | some s =>
    rw [Option.bind_some]
    obtain ⟨t, aborted, phase, inbox⟩ := s
    cases aborted with
    | true =>
      cases phase with
      | starting | listening => exact reports_abortStream p id t
      | _ => exact .refl p
    | false =>
      cases phase with
      | starting =>
        have hconnect := reports_connect p id ⟨t, false, .starting, inbox⟩
        unfold ending?
        cases hrefused : p.host.socketsRefused <;> simpa [hrefused] using hconnect
      | listening socket =>
        let read := p.setStream id ⟨t, false, .listening socket, []⟩
        have hread : Reports none p read := reports_setStream p id _
        exact hread.trans (reports_readEvents (p := read) hlistener id t inbox)
      | _ => exact .refl p

end Streams

section Loads

theorem sameInputs_beginSync (p : Page) (c : Client) : SameInputs p (p.beginSync c) := by
  unfold beginSync
  split
  · exact sameInputs_settle p c _
  · exact ((reports_fetch p _ _).trans (reports_suspend _ _)).toSameInputs

theorem sameInputs_settleLoad (p : Page) (c : Client) (result : Except Failure Nat) :
    SameInputs p (p.settleLoad c result) := by
  unfold settleLoad
  split
  · exact sameInputs_beginSync p .panelSync
  · exact sameInputs_settle p c _

theorem sameInputs_beginLoad (p : Page) (c : Client) (s : Symbol) :
    SameInputs p (p.beginLoad c s) := by
  let switched : Page := { p with board := (p.board.switchSymbol s).1 }
  have hswitched : SameInputs p switched := .of_same rfl rfl
  have hdrawn := (reports_releaseStream switched).trans (repainted_redraw _).reports
  refine hswitched.trans (hdrawn.toSameInputs.trans ?_)
  unfold beginLoad
  -- whatever the page looks like once it is drawn, what follows leaves its inputs alone
  dsimp only
  generalize switched.releaseStream.redraw = drawn
  exact .of_same rfl rfl

theorem sameInputs_finishLoad (p : Page) (c : Client) (t : Ticket) (a : Answer) :
    SameInputs p (p.finishLoad c t a) := by
  cases hcandles : candlesOf a with
  | error f =>
    rw [finishLoad_of_error hcandles]
    exact (reports_fail p t f).toSameInputs.trans (sameInputs_settleLoad _ c _)
  | ok cs =>
    let taken := ((p.note (loadedNote t.symbol cs.length)).step (p.board.applyHistory t cs)).1
    have htaken : SameInputs p taken := .of_same rfl rfl
    rw [finishLoad_of_ok hcandles]
    dsimp only
    split
    · have hstarted := (repainted_redraw taken).reports.trans (reports_startStream taken.redraw t)
      refine htaken.trans (hstarted.toSameInputs.trans (.trans ?_ (sameInputs_settleLoad _ c _)))
      exact .of_same rfl rfl
    · exact htaken.trans (sameInputs_settleLoad taken c _)

theorem sameInputs_finishSync (p : Page) (c : Client) (t : Ticket) (a : Answer) :
    SameInputs p (p.finishSync c t a) := by
  unfold finishSync
  split
  · exact (reports_fail p t _).toSameInputs.trans (sameInputs_settle _ c _)
  · exact (reports_update p _).toSameInputs.trans (sameInputs_settle _ c _)

theorem showStatus_line (h : p.showStatus.panel.mounted = true) :
    p.showStatus.status = p.showStatus.panel.status := by
  unfold showStatus at h ⊢
  split
  · rfl
  · rename_i hnot
    rw [if_neg hnot] at h
    exact absurd h hnot

theorem loading_suspend (p : Page) (hk : k.isLoad = true) : (p.suspend k).Loading :=
  ⟨k, mem_pending_suspend.mpr (.inr rfl), hk⟩

theorem line_settleLoad (p : Page) (result : Except Failure Nat)
    (hmounted : (p.settleLoad .panel result).panel.mounted = true) :
    if result.isOk && p.board.currentTicket?.isSome then (p.settleLoad .panel result).Loading
    else (p.settleLoad .panel result).status = (p.settleLoad .panel result).panel.status := by
  cases result with
  | error f => exact showStatus_line hmounted
  | ok count =>
    have hsync : p.settleLoad .panel (.ok count) = p.beginSync .panelSync := rfl
    rw [hsync] at hmounted ⊢
    cases hcurrent : p.board.currentTicket? with
    | none =>
      have hshown : p.beginSync .panelSync = p.showStatus := by
        simp [beginSync, hcurrent, settle]
      rw [hshown] at hmounted ⊢
      exact showStatus_line hmounted
    | some t =>
      have hasked : (p.beginSync .panelSync).Loading := by
        simp only [beginSync, hcurrent]
        exact loading_suspend _ rfl
      exact hasked

theorem line_finishLoad (hmounted : p.panel.mounted = true) (t : Ticket) (a : Answer) :
    if (candlesOf a).isOk && p.board.currentTicket?.isSome then (p.finishLoad .panel t a).Loading
    else (p.finishLoad .panel t a).status = (p.finishLoad .panel t a).panel.status := by
  have hsame := sameInputs_finishLoad p .panel t a
  obtain ⟨q, result, -, hcurrent, hsettled, hok⟩ := finishLoad_cases p .panel t a
  rw [hsettled] at hsame ⊢
  rw [← hok, ← hcurrent]
  exact line_settleLoad q result (hsame.mounted.trans hmounted)

theorem line_finishSync (hmounted : p.panel.mounted = true) (t : Ticket) (a : Answer) :
    (p.finishSync .panelSync t a).status = (p.finishSync .panelSync t a).panel.status := by
  have hsame := sameInputs_finishSync p .panelSync t a
  obtain ⟨q, hshown⟩ : ∃ q : Page, p.finishSync .panelSync t a = q.showStatus := by
    unfold finishSync
    split <;> exact ⟨_, rfl⟩
  rw [hshown] at hsame ⊢
  exact showStatus_line (hsame.mounted.trans hmounted)

theorem run_unanswered {n : Nat} (hk : k.request? = some n) (ha : p.answer? n = none) :
    p.run k = p.suspend k := by
  cases k with
  | history | analysis =>
    obtain rfl := Option.some.inj hk
    simp only [run, ha]
  | _ => cases hk

theorem run_history {c : Client} {n : Nat} {a : Answer} (ha : p.answer? n = some a) :
    p.run (.history c t n) = p.finishLoad c t a := by
  simp only [run, ha]

theorem run_analysis {c : Client} {n : Nat} {a : Answer} (ha : p.answer? n = some a) :
    p.run (.analysis c t n) = p.finishSync c t a := by
  simp only [run, ha]

theorem run_load (hmounted : p.panel.mounted = true) (hk : k.isLoad = true) :
    SameInputs p (p.run k) ∧ if p.turnEnds k then (p.run k).status = (p.run k).panel.status
      else (p.run k).Loading := by
  have hback : SameInputs p (p.suspend k) ∧ (p.suspend k).Loading :=
    ⟨(reports_suspend p k).toSameInputs, loading_suspend p hk⟩
  unfold Task.isLoad at hk
  split at hk
  · exact ⟨sameInputs_beginLoad p .panel _, loading_suspend _ rfl⟩
  · rename_i t request
    cases ha : p.answer? request with
    | none =>
      rw [run_unanswered rfl ha, turnEnds, ha]
      exact hback
    | some a =>
      have hline := line_finishLoad hmounted t a
      rw [run_history ha, turnEnds, ha]
      refine ⟨sameInputs_finishLoad p .panel t a, ?_⟩
      cases hcandles : candlesOf a <;> cases hnone : p.board.currentTicket? <;>
        simpa [hcandles, hnone, Except.isOk, Except.toBool] using hline
  · rename_i t request
    cases ha : p.answer? request with
    | none =>
      rw [run_unanswered rfl ha, turnEnds, ha]
      exact hback
    | some a =>
      rw [run_analysis ha, turnEnds, ha]
      exact ⟨sameInputs_finishSync p .panelSync t a, line_finishSync hmounted t a⟩
  · cases hk

end Loads

section Steps

def Loadable (p : Page) : Prop := (Symbol.entered p.panel.symbolText).isOk = true

theorem reports_enterPanelSymbol (h : p.Loadable) : Reports none p p.enterPanelSymbol := by
  unfold enterPanelSymbol
  cases hentered : Symbol.entered p.panel.symbolText with
  | error reason => simp [Loadable, hentered, Except.isOk, Except.toBool] at h
  | ok s => exact reports_spawn p _

theorem reports_run (hlistener : p.listener = none) (hloadable : p.Loadable)
    (hpanel : k.ofPanel = true) (hk : k.isLoad = false) : Reports (p.turnTells? k) p (p.run k) := by
  unfold Task.ofPanel at hpanel
  split at hpanel
  · rename_i e
    cases e with
    | viewport | tool => exact reports_operate p _
    | symbol => exact reports_enterPanelSymbol hloadable
  · cases hk
  · cases hk
  · cases hk
  · exact reports_beginSync_timer p
  · rename_i t request
    cases ha : p.answer? request with
    | none =>
      rw [run_unanswered rfl ha, turnTells?, ha]
      exact reports_suspend p _
    | some a =>
      have hreports := reports_finishSync_timer p t a
      rw [run_analysis ha, turnTells?, ha, Option.map_some]
      cases hdocument : document a <;> rw [hdocument] at hreports <;> exact hreports
  · exact reports_runStream hlistener _
  · cases hpanel

theorem turnEnds_of_not_load (hk : k.isLoad = false) : p.turnEnds k = false := by
  unfold turnEnds
  split <;> first | rfl | cases hk

theorem reports_taken {n : Nat} (hk : p.ready[n]? = some k) (hload : k.isLoad = false) :
    Reports none p { p with ready := p.ready.eraseIdx n } := by
  -- the task that takes its turn is not the load that is asked about
  refine .of_tasks rfl rfl rfl fun j hj hjload => ?_
  rcases mem_pending.mp hj with hready | hwaiting
  · refine mem_pending.mpr (.inl (List.mem_eraseIdx_iff_getElem?.mpr ?_))
    obtain ⟨i, hi⟩ := List.mem_iff_getElem?.mp hready
    refine ⟨i, ?_, hi⟩
    rintro rfl
    obtain rfl := Option.some.inj (hi.symm.trans hk)
    simp [hload] at hjload
  · exact mem_pending.mpr (.inr hwaiting)

/-- What is kept in a run of a page with nothing but a panel. Unless a load is pending, the
overlay's status is what the line shows, or what the overlay was told last. -/
structure Follows (p : Page) (last : Option String) : Prop where
  mounted : p.panel.mounted = true
  listener : p.listener = none
  loadable : p.Loadable
  tasks : ∀ k ∈ p.pending, k.ofPanel = true
  line : p.Loading ∨ p.status = last.getD p.panel.status

theorem reports_respond (p : Page) (request : Nat) (a : Answer) :
    Reports none p (p.respond request a).1 := by
  unfold respond
  split
  · split
    · exact .refl p
    · rename_i asked _ _
      let heard : Page :=
        { p with requests := p.requests.set request { asked with answer? := some a } }
      have hheard : Reports none p heard := .of_same rfl rfl rfl rfl rfl
      exact hheard.trans (reports_wake heard _)
  · exact .refl p

theorem reports_deliver (p : Page) (socket : Nat) (e : SocketEvent) :
    Reports none p (p.deliver socket e).1 := by
  unfold deliver
  split
  · split
    · exact (reports_wake p _).trans (.of_same rfl rfl rfl rfl rfl)
    · exact .refl p
  · exact .refl p

theorem reports_tick (p : Page) : Reports none p p.tick := by
  refine .of_tasks rfl rfl rfl fun k hk _ => ?_
  rcases mem_pending.mp hk with hready | hwaiting
  · exact mem_pending.mpr (.inl (List.mem_append_left _ hready))
  · exact mem_pending.mpr (.inr hwaiting)

theorem reports_capture (p : Page) (pointer : Int) : Reports none p (p.capture pointer) := by
  unfold capture
  split <;> exact .of_same rfl rfl rfl rfl rfl

theorem Happening.calm_of_ofPanel {x : Happening} (hx : x.ofPanel = true) : x.calm = true := by
  cases x with
  | call => cases hx
  | _ => rfl

variable {last : Option String}

theorem Follows.calm (h : p.Follows last) : p.Calm := congrArg Listener.workOfNext h.listener

theorem Follows.ofPanel_happen (h : p.Follows last) {x : Happening} (hx : x.ofPanel = true) :
    ∀ k ∈ (p.happen x).pending, k.ofPanel = true := by
  intro k hk
  cases hstream : k.isStream with
  | true => cases k <;> first | rfl | cases hstream
  | false =>
    have hadds := adds_happen h.calm (Happening.calm_of_ofPanel hx)
    rcases hadds.tasks k hk hstream with hold | ⟨hleads, -⟩
    · exact h.tasks k hold
    cases x with
    | turn n =>
      obtain ⟨j, hj, hleads⟩ := hleads
      have hmem : j ∈ p.pending := mem_pending.mpr (.inl (List.mem_of_getElem? hj))
      exact Task.ofPanel_of_leads (h.tasks j hmem) hleads
    | symbol text =>
      obtain ⟨s, rfl⟩ := hleads
      rfl
    | tick =>
      obtain rfl := hleads
      rfl
    | call | load | mount => cases hx
    | _ => exact hleads.elim

theorem Follows.reports (h : p.Follows last) (hreports : Reports said p q)
    (htasks : ∀ k ∈ q.pending, k.ofPanel = true) : q.Follows (said.or last) where
  mounted := hreports.mounted.trans h.mounted
  listener := hreports.listener.trans h.listener
  loadable := by
    rw [Loadable, hreports.symbolText]
    exact h.loadable
  tasks := htasks
  line := by
    rcases h.line with ⟨k, hk, hload⟩ | hline
    · exact .inl ⟨k, hreports.loads k hk hload, hload⟩
    · right
      rw [hreports.status, hreports.line, hline]
      cases said <;> rfl

theorem Follows.turn (h : p.Follows last) (n : Nat) :
    (p.happen (.turn n)).Follows
      (if p.endsLoad (.turn n) then none else (p.told? (.turn n)).or last) := by
  have htasks := h.ofPanel_happen (x := .turn n) rfl
  have hends : p.endsLoad (.turn n) = p.ready[n]?.any p.turnEnds := rfl
  have htold : p.told? (.turn n) = p.ready[n]?.bind p.turnTells? := rfl
  rw [hends, htold]
  cases hk : p.ready[n]? with
  | none =>
    have hstays : p.happen (.turn n) = p := by simp only [happen, hk]
    rw [hstays]
    exact h
  | some k =>
    let taken : Page := { p with ready := p.ready.eraseIdx n }
    have hturn : p.happen (.turn n) = taken.run k := by simp only [happen, hk, taken]
    rw [hturn] at htasks ⊢
    rw [Option.any_some, Option.bind_some]
    -- a load goes on or hands the status to the line; any other task leaves the line alone
    cases hload : k.isLoad with
    | false =>
      have hpanel : k.ofPanel = true :=
        h.tasks k (mem_pending.mpr (.inl (List.mem_of_getElem? hk)))
      have hreports := (reports_taken hk hload).trans
        (reports_run (p := taken) h.listener h.loadable hpanel hload)
      rw [turnEnds_of_not_load hload]
      exact h.reports hreports htasks
    | true =>
      obtain ⟨hsame, hline⟩ := run_load (p := taken) h.mounted hload
      have hends : taken.turnEnds k = p.turnEnds k := rfl
      rw [hends] at hline
      refine ⟨hsame.mounted.trans h.mounted, hsame.listener.trans h.listener, ?_, htasks, ?_⟩
      · rw [Loadable, hsame.symbolText]
        exact h.loadable
      · cases hends : p.turnEnds k with
        | true =>
          rw [hends] at hline
          exact .inr hline
        | false =>
          rw [hends] at hline
          exact .inl hline

theorem reports_input (p : Page) (panel : Panel) (hmounted : panel.mounted = p.panel.mounted)
    (hsymbol : panel.symbolText = p.panel.symbolText) (hline : panel.status = p.panel.status) :
    Reports none p { p with panel := panel } :=
  ⟨⟨rfl, hmounted, hsymbol⟩, hline, rfl, fun _ hk _ => hk⟩

theorem Follows.symbol (h : p.Follows last) {text : String}
    (htext : (Symbol.entered text).isOk = true)
    (htasks : ∀ k ∈ (p.happen (.symbol text)).pending, k.ofPanel = true) :
    (p.happen (.symbol text)).Follows last := by
  let given : Page := { p with panel := { p.panel with symbolText := text } }
  have hgiven : p.happen (.symbol text) = given.enterPanelSymbol := if_pos h.mounted
  have hreports : Reports none given given.enterPanelSymbol := reports_enterPanelSymbol htext
  rw [hgiven] at htasks ⊢
  have hfollows : given.Follows last := ⟨h.mounted, h.listener, htext, h.tasks, h.line⟩
  exact hfollows.reports hreports htasks

theorem Follows.happen (h : p.Follows last) {x : Happening} (hx : x.ofPanel = true) :
    (p.happen x).Follows (if p.endsLoad x then none else (p.told? x).or last) := by
  have htasks := h.ofPanel_happen hx
  -- most of what happens tells the overlay nothing
  have hsilent (hreports : Reports none p (p.happen x)) : (p.happen x).Follows last := by
    exact h.reports hreports htasks
  cases x with
  | turn n => exact h.turn n
  | viewport v =>
    let given : Page := { p with panel := { p.panel with viewport := v } }
    have hgiven : p.happen (.viewport v) = (given.operate (.viewport v)).1 := if_pos h.mounted
    have hset : Reports none p given := reports_input p _ rfl rfl rfl
    exact hsilent (hgiven ▸ hset.trans (reports_operate given _))
  | tool t =>
    let given : Page := { p with panel := { p.panel with tool := t } }
    have hgiven : p.happen (.tool t) = (given.operate (.tool t)).1 := if_pos h.mounted
    have hset : Reports none p given := reports_input p _ rfl rfl rfl
    exact hsilent (hgiven ▸ hset.trans (reports_operate given _))
  | symbol text => exact h.symbol hx htasks
  | press pointer at_ => exact hsilent ((reports_capture p pointer).trans (reports_operate _ _))
  | key key =>
    refine hsilent ?_
    simp only [Page.happen, keyDown]
    split
    · exact reports_operate p _
    · exact .refl p
  | operate e => exact hsilent (reports_operate p e)
  | message id text =>
    refine hsilent ?_
    simp only [Page.happen]
    split
    · exact (reports_receive h.listener _ text).1
    · exact .refl p
  | ended id f =>
    have htold : p.told? (.ended id f) =
        p.streams[id]?.bind fun s => p.tells? s.ticket (s.ticket.endText f) := rfl
    have hends : p.endsLoad (.ended id f) = false := rfl
    rw [hends, htold]
    simp only [Page.happen] at htasks ⊢
    cases hs : p.streams[id]? with
    | none => exact h
    | some s =>
      rw [hs] at htasks
      exact h.reports (reports_finishStream p id s.ticket f) htasks
  | respond request a => exact hsilent (reports_respond p request a)
  | deliver socket e => exact hsilent (reports_deliver p socket e)
  | tick => exact hsilent (reports_tick p)
  | clock | host => exact hsilent (.of_same rfl rfl rfl rfl rfl)
  | _ => cases hx

theorem Follows.after (h : p.Follows last) {hs : List Happening}
    (hpanel : ∀ x ∈ hs, x.ofPanel = true) : (p.after hs).Follows (p.untold last hs) := by
  induction hs generalizing p last with
  | nil => exact h
  | cons x hs ih =>
    have hx := h.happen (hpanel x List.mem_cons_self)
    exact ih hx fun y hy => hpanel y (List.mem_cons_of_mem x hy)

theorem reports_attachPanel
    (hcanvas : contextFailure? ((p.host.elements.lookup panelCanvas).getD .canvas) = none) :
    Reports none p p.attachPanel := by
  unfold attachPanel
  rw [hcanvas]
  exact (repainted_takeCanvas p panelCanvas _).reports

theorem reports_startTimer (p : Page) : Reports none p p.startTimer := by
  unfold startTimer
  split <;> exact .of_same rfl rfl rfl rfl rfl

theorem follows_mount (h : Host) (c : Config) (storage : Storage) (desk : Desk) (session : Vault)
    (v : ChartView) (t : Tool) {text : String}
    (hcanvas : contextFailure? ((h.elements.lookup panelCanvas).getD .canvas) = none)
    (htext : (Symbol.entered text).isOk = true) :
    ((opened h c storage desk session).mount v t text).Follows none := by
  let p := opened h c storage desk session
  let given : Page := { p with panel := ⟨v, t, text, p.status, true⟩ }
  have hgiven : given.Follows none :=
    ⟨rfl, rfl, htext, fun _ hk => (List.not_mem_nil hk).elim, .inr rfl⟩
  have hshown : Reports none given given.attachPanel.startTimer :=
    (reports_attachPanel (p := given) hcanvas).trans (reports_startTimer _)
  have hreports : Reports none given (p.mount v t text) :=
    hshown.trans ((reports_spawn _ _).trans ((reports_spawn _ _).trans (reports_spawn _ _)))
  refine hgiven.reports hreports fun k hk => ?_
  cases hstream : k.isStream with
  | true => cases k <;> first | rfl | cases hstream
  | false =>
    rcases (adds_mount p v t text).tasks k hk hstream with hold | ⟨⟨e, rfl⟩, -⟩
    · exact (List.not_mem_nil hold).elim
    · rfl

end Steps

/-- On a page with nothing but a panel, unless a load is pending, the overlay's status is what the
line shows, or what a failed periodic sync or the end of a stream told the overlay since the last
load ended. So the line shows the status if nobody told it anything else. -/
theorem status_line_iff (h : Host) (c : Config) (storage : Storage) (desk : Desk)
    (session : Vault) (v : ChartView) (t : Tool) (text : String) (hs : List Happening)
    (hcanvas : contextFailure? ((h.elements.lookup panelCanvas).getD .canvas) = none)
    (htext : (Symbol.entered text).isOk = true) (hpanel : ∀ x ∈ hs, x.ofPanel = true) :
    let start := (opened h c storage desk session).mount v t text
    let p := start.after hs
    ¬ p.Loading →
      p.status = (start.untold none hs).getD p.panel.status ∧
        (p.panel.status = p.status ↔ ∀ said ∈ start.untold none hs, said = p.panel.status) := by
  intro start p hquiet
  have hfollows : p.Follows (start.untold none hs) :=
    (follows_mount h c storage desk session v t hcanvas htext).after hpanel
  have hline := hfollows.line.resolve_left hquiet
  refine ⟨hline, ?_⟩
  rw [hline]
  cases start.untold none hs with
  | none => simp
  | some said => simp [eq_comm]

def settledSymbol : List Happening :=
  [.turn 0, .turn 0, .turn 0, .turn 0, .respond 0 (.response 200 "OK" "[]"), .turn 0, .turn 0,
    .respond 1 (.response 200 "OK" "\x7b\x7d"), .turn 0]

def settledPage : Page :=
  (opened {} {} .areaOfPage { clock := 0 } {}).mount Viewport.initial .select "EURUSD"

theorem status_line_iff_of_settledSymbol :
    ¬ (settledPage.after settledSymbol).Loading ∧
      settledPage.untold none settledSymbol = none ∧
      (settledPage.after settledSymbol).panel.status = "EURUSD: 0 candles, live" ∧
      (settledPage.after settledSymbol).status = "EURUSD: 0 candles, live" := by
  have hquiet : ¬ (settledPage.after settledSymbol).Loading := by decide +kernel
  have hnone : settledPage.untold none settledSymbol = none := by decide +kernel
  have hline : (settledPage.after settledSymbol).panel.status = "EURUSD: 0 candles, live" := by
    decide +kernel
  have hiff := (status_line_iff {} {} .areaOfPage { clock := 0 } {} Viewport.initial .select
    "EURUSD" settledSymbol (by decide) (by decide) (by decide) hquiet).2
  have hnothing : ∀ said ∈ settledPage.untold none settledSymbol,
      said = (settledPage.after settledSymbol).panel.status := by simp [hnone]
  exact ⟨hquiet, hnone, hline, (hiff.mpr hnothing).symm.trans hline⟩

/-- Then the stream is closed. The overlay says so, and the line that it is live. -/
theorem status_line_stale :
    ¬ ∀ (h : Host) (c : Config) (storage : Storage) (desk : Desk) (session : Vault)
        (v : ChartView) (t : Tool) (text : String) (hs : List Happening),
        contextFailure? ((h.elements.lookup panelCanvas).getD .canvas) = none →
        (Symbol.entered text).isOk = true → (∀ x ∈ hs, x.ofPanel = true) →
        let p := ((opened h c storage desk session).mount v t text).after hs
        ¬ p.Loading → p.panel.status = p.status := by
  intro h
  have hshown := h {} {} .areaOfPage { clock := 0 } {} Viewport.initial .select "EURUSD"
    (settledSymbol ++ [.deliver 0 .finished, .turn 0]) (by decide) (by decide) (by decide)
  exact absurd hshown (by decide +kernel)

end Page

end MarketSketch
