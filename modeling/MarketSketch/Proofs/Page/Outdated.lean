import MarketSketch.Proofs.Page.Run

/-! What comes in for a session that is no longer displayed. The status, the board, the slot and the
listener notice none of it; there are notes in the log, whoever waited is told, and a picture that
was out of date already is drawn. -/

namespace MarketSketch

namespace Page

variable {p q r : Page} {t : Ticket}

/-- How a wait of a session ends: the answer to a load or a sync, a message, the end of a stream. -/
inductive Completion where
  | history (c : Client) (a : Answer)
  | analysis (c : Client) (a : Answer)
  | message (text : String)
  | ended (stream : Nat) (f : Option Failure)

def complete (p : Page) (t : Ticket) : Completion → Page
  | .history c a => p.finishLoad c t a
  | .analysis c a => p.finishSync c t a
  | .message text => p.receive t text
  | .ended id f => p.finishStream id t f

def nothingTaken {α : Type} : Except Failure α → Except Failure Nat
  | .error f => .error f
  | .ok _ => .ok 0

namespace Completion

def settled (p : Page) : Completion → Page
  | .history c a => p.settleLoad c (nothingTaken (candlesOf a))
  | .analysis c a => p.settle c (nothingTaken (document a))
  | .message _ => p
  | .ended id _ => p.closeStream id

def redraws : Completion → Bool
  | .analysis _ a => (document a).isOk
  | _ => false

end Completion

/-- The pages agree in all that the overlay shows or keeps. What may differ is the log, and the
picture if it was out of date. -/
structure Unnoticed (p q : Page) : Prop where
  status : q.status = p.status
  slot : q.slot = p.slot
  handles : q.handles = p.handles
  listener : q.listener = p.listener
  heard : q.heard = p.heard
  board : q.board = { p.board with needsRedraw := q.board.needsRedraw }
  desk : ∃ notes, q.desk = p.desk.noteAll notes
  upToDate : p.board.needsRedraw = false →
    q.board.needsRedraw = false ∧ q.screen = p.screen ∧ q.canvas = p.canvas

namespace Unnoticed

theorem trans (h : Unnoticed p q) (h' : Unnoticed q r) : Unnoticed p r := by
  refine ⟨h'.status.trans h.status, h'.slot.trans h.slot, h'.handles.trans h.handles,
    h'.listener.trans h.listener, h'.heard.trans h.heard, ?_, ?_, fun hp => ?_⟩
  · rw [h'.board, h.board]
  · obtain ⟨ns, hns⟩ := h.desk
    obtain ⟨ns', hns'⟩ := h'.desk
    exact ⟨ns ++ ns', by rw [hns', hns, Desk.noteAll_noteAll]⟩
  · obtain ⟨hflag, hscreen, hcanvas⟩ := h.upToDate hp
    obtain ⟨hflag', hscreen', hcanvas'⟩ := h'.upToDate hflag
    exact ⟨hflag', hscreen'.trans hscreen, hcanvas'.trans hcanvas⟩

theorem isCurrent (h : Unnoticed p q) : q.board.isCurrent t = p.board.isCurrent t := by
  rw [h.board]
  rfl

end Unnoticed

theorem Aside.unnoticed (h : Aside p q) : Unnoticed p q := by
  refine ⟨h.status, h.slot, h.handles, h.listener, h.heard, by rw [h.board], h.desk, fun hp => ?_⟩
  exact ⟨by rw [h.board, hp], h.screen, by funext id; simp only [canvas, h.canvases]⟩

theorem aside_settled (e : Completion) (p : Page) : Aside p (e.settled p) := by
  cases e with
  | history c a => exact aside_settleLoad p c _
  | analysis c a => exact aside_settle p c _
  | message => exact .refl p
  | ended id => exact aside_closeStream p id

section Redraw

theorem lookup_replace (l : List (String × Canvas)) (id : String) (c : Canvas) (key : String) :
    (l.map fun (k, d) => if k = id then (k, c) else (k, d)).lookup key =
      if key = id then (l.lookup key).map fun _ => c else l.lookup key := by
  induction l with
  | nil => simp
  | cons entry l ih =>
    obtain ⟨name, d⟩ := entry
    by_cases hkey : key = name
    · subst hkey
      by_cases hid : key = id <;> simp [hid]
    · have hne : (key == name) = false := by simpa using hkey
      by_cases hid : name = id
      · subst hid
        simp [List.lookup_cons, ih, hne]
      · simp [List.lookup_cons, hid, ih, hne]

theorem canvas_setCanvas_self (p : Page) (id : String) :
    (p.setCanvas id (p.canvas id)).canvas = p.canvas := by
  funext key
  unfold setCanvas
  split
  · rename_i hsome
    obtain ⟨c, hc⟩ := Option.isSome_iff_exists.mp hsome
    simp only [canvas, lookup_replace]
    by_cases hkey : key = id
    · simp [hkey, hc]
    · simp [hkey]
  · rename_i hnone
    have hc := Option.not_isSome_iff_eq_none.mp hnone
    simp only [canvas, List.lookup_append, hc]
    by_cases hkey : key = id
    · simp [hkey, hc]
    · have hne : (key == id) = false := by simpa using hkey
      simp [List.lookup_cons, hne]

theorem redraw_of_upToDate (h : p.board.needsRedraw = false) :
    ∃ canvases, p.redraw = { p with canvases := canvases } ∧ p.redraw.canvas = p.canvas := by
  unfold redraw drawWith
  split
  · exact ⟨p.canvases, rfl, rfl⟩
  · rename_i hscreen
    simp only [Board.renderIfNeeded_of_upToDate h, ← hscreen]
    exact ⟨p.canvases, rfl, rfl⟩
  · rename_i id _
    obtain ⟨canvases, hset⟩ := setCanvas_eq p id (p.canvas id)
    simp only [Board.renderIfNeeded_of_upToDate h]
    exact ⟨canvases, hset, canvas_setCanvas_self p id⟩

theorem unnoticed_redraw (p : Page) : Unnoticed p p.redraw := by
  obtain ⟨flag, notes, screen, canvases, hdrawn⟩ := repainted_redraw p
  have hkept (hp : p.board.needsRedraw = false) : p.redraw.board.needsRedraw = false ∧
      p.redraw.screen = p.screen ∧ p.redraw.canvas = p.canvas := by
    obtain ⟨_, hsame, hcanvas⟩ := redraw_of_upToDate hp
    exact ⟨by rw [hsame, hp], by rw [hsame], hcanvas⟩
  generalize p.redraw = q at hdrawn hkept
  subst hdrawn
  exact ⟨rfl, rfl, rfl, rfl, rfl, rfl, ⟨notes, rfl⟩, hkept⟩

end Redraw

section Completions

theorem fail_of_outdated (h : p.board.isCurrent t = false) (f : Failure) :
    p.fail t f = p.note (failureNote f) := by
  have hnoted : (p.note (failureNote f)).board.isCurrent t = false := h
  simp [fail, hnoted]

theorem streamEnded_of_outdated (h : p.board.isCurrent t = false) (f : Option Failure) :
    p.streamEnded t f = p := by
  simp [streamEnded, h]

theorem closeStream_note (p : Page) (id : Nat) (n : Log.Note) :
    (p.note n).closeStream id = (p.closeStream id).note n := by
  unfold closeStream
  cases h : p.streams[id]? with
  | none => simp [note, h]
  | some s =>
    have hstream : (p.note n).streams[id]? = some s := h
    simp only [hstream]
    unfold dropSocket
    split <;> rfl

theorem finishStream_of_outdated (h : p.board.isCurrent t = false) (id : Nat) (f : Option Failure) :
    ∃ n, p.finishStream id t f = (p.note n).closeStream id := by
  have hclosed (n : Log.Note) : ((p.note n).closeStream id).board.isCurrent t = false := by
    rw [(aside_closeStream _ id).current]
    exact h
  cases f with
  | none => exact ⟨_, streamEnded_of_outdated (hclosed _) none⟩
  | some f =>
    refine ⟨streamNote .error ("❌ " ++ t.symbol.name ++ ": " ++ f.message), ?_⟩
    unfold finishStream
    dsimp only
    rw [← closeStream_note, streamEnded_of_outdated (hclosed _)]

theorem complete_of_outdated (h : p.board.isCurrent t = false) (e : Completion) :
    ∃ notes, p.complete t e =
      e.settled (if e.redraws = true then (p.noteAll notes).redraw else p.noteAll notes) := by
  cases e with
  | history c a =>
    cases ha : candlesOf a with
    | error f =>
      refine ⟨[failureNote f], ?_⟩
      simp only [complete, Completion.settled, ha]
      rw [finishLoad_of_error ha, fail_of_outdated h]
      rfl
    | ok cs =>
      simp only [complete, Completion.settled, ha]
      rw [finishLoad_of_ok ha, Board.applyHistory_of_outdated h, h]
      exact ⟨[loadedNote t.symbol cs.length, _], rfl⟩
  | analysis c a =>
    cases ha : document a with
    | error f =>
      refine ⟨[failureNote f], ?_⟩
      simp only [complete, Completion.settled, Completion.redraws, finishSync, ha]
      rw [fail_of_outdated h]
      rfl
    | ok payload =>
      simp only [complete, Completion.settled, Completion.redraws, finishSync, ha]
      rw [Board.applyAnalysis_of_outdated h]
      exact ⟨[_], rfl⟩
  | message text =>
    simp only [complete, Completion.settled, receive]
    cases candleOfMessage text with
    | error f => exact ⟨[_], rfl⟩
    | ok candle =>
      simp only [Board.applyUpdate_of_outdated h]
      exact ⟨[_], rfl⟩
  | ended id f =>
    obtain ⟨n, hn⟩ := finishStream_of_outdated h id f
    exact ⟨[n], hn⟩

theorem unnoticed_complete (h : p.board.isCurrent t = false) (e : Completion) :
    Unnoticed p (p.complete t e) := by
  obtain ⟨notes, heffect⟩ := complete_of_outdated h e
  rw [heffect]
  refine Unnoticed.trans ?_ (aside_settled e _).unnoticed
  split
  · exact (aside_noteAll p notes).unnoticed.trans (unnoticed_redraw _)
  · exact (aside_noteAll p notes).unnoticed

theorem unnoticed_finishStream (h : p.board.isCurrent t = false) (id : Nat) (f : Option Failure) :
    Unnoticed p (p.finishStream id t f) := unnoticed_complete h (.ended id f)

end Completions

section Turns

theorem unnoticed_readEvents (h : p.board.isCurrent t = false) (id : Nat) (es : List SocketEvent) :
    Unnoticed p (readEvents id t es p) := by
  -- the session stays outdated from message to message, so every one of them finds it so
  induction es generalizing p with
  | nil =>
    unfold readEvents
    split
    · exact (aside_abortStream p id t).unnoticed
    · exact (aside_park p id).unnoticed
  | cons e es ih =>
    unfold readEvents
    split
    · exact unnoticed_finishStream h id _
    · split
      · have hreceived := unnoticed_complete h (.message ‹String›)
        exact hreceived.trans (ih (by rw [hreceived.isCurrent, h]))
      · exact ih h

theorem unnoticed_connect {id : Nat} {s : LiveStream} (hs : p.streams[id]? = some s)
    (h : p.board.isCurrent s.ticket = false) : Unnoticed p (p.connect id s) := by
  rcases connect_cases hs with ⟨n, f, hended⟩ | hwaits
  · have hnoted := aside_note p n
    rw [hended]
    exact hnoted.unnoticed.trans (unnoticed_finishStream (by rw [hnoted.current, h]) id f)
  · exact hwaits.unnoticed

theorem unnoticed_runStream {id : Nat} {s : LiveStream} (hs : p.streams[id]? = some s)
    (h : p.board.isCurrent s.ticket = false) : Unnoticed p (p.runStream id) := by
  unfold runStream
  rw [hs]
  dsimp only
  split
  · exact (Aside.refl p).unnoticed
  · split
    · exact (aside_abortStream p id _).unnoticed
    · exact unnoticed_connect hs h
  · have hread : Aside p (p.setStream id { s with inbox := [] }) := aside_setStream hs rfl rfl
    split
    · exact (aside_abortStream p id _).unnoticed
    · exact hread.unnoticed.trans (unnoticed_readEvents (by rw [hread.current, h]) id _)

def belongs (p : Page) (t : Ticket) (k : Task) : Prop :=
  k.ticket? = some t ∨ ∃ id s, k = .stream id ∧ p.streams[id]? = some s ∧ s.ticket = t

theorem unnoticed_suspend (p : Page) (k : Task) : Unnoticed p (p.suspend k) :=
  ⟨rfl, rfl, rfl, rfl, rfl, rfl, ⟨[], rfl⟩, fun hp => ⟨hp, rfl, rfl⟩⟩

theorem unnoticed_run {k : Task} (hk : p.belongs t k) (h : p.board.isCurrent t = false) :
    Unnoticed p (p.run k) := by
  rcases hk with hk | ⟨id, s, rfl, hs, rfl⟩
  · cases k with
    | history c u request =>
      obtain rfl := Option.some.inj hk
      unfold run
      dsimp only
      split
      · exact unnoticed_complete h (.history c _)
      · exact unnoticed_suspend p _
    | analysis c u request =>
      obtain rfl := Option.some.inj hk
      unfold run
      dsimp only
      split
      · exact unnoticed_complete h (.analysis c _)
      · exact unnoticed_suspend p _
    | _ => cases hk
  · exact unnoticed_runStream hs h

/-- The happening is a turn of a task of the session, or a message or the end of its stream. -/
def Happening.concerns (p : Page) (t : Ticket) : Happening → Prop
  | .turn n => ∃ k, p.ready[n]? = some k ∧ p.belongs t k
  | .message id _ | .ended id _ => ∃ s, p.streams[id]? = some s ∧ s.ticket = t
  | _ => False

theorem unnoticed_happen {x : Happening} (hx : x.concerns p t) (h : p.board.isCurrent t = false) :
    Unnoticed p (p.happen x) := by
  cases x with
  | turn n =>
    obtain ⟨k, hk, hbelongs⟩ := hx
    have htaken : Unnoticed p { p with ready := p.ready.eraseIdx n } :=
      ⟨rfl, rfl, rfl, rfl, rfl, rfl, ⟨[], rfl⟩, fun hp => ⟨hp, rfl, rfl⟩⟩
    simp only [happen, hk]
    exact htaken.trans (unnoticed_run hbelongs h)
  | message id text =>
    obtain ⟨s, hs, rfl⟩ := hx
    simp only [happen, hs]
    exact unnoticed_complete h (.message text)
  | ended id f =>
    obtain ⟨s, hs, rfl⟩ := hx
    simp only [happen, hs]
    exact unnoticed_complete h (.ended id f)
  | _ => exact hx.elim

end Turns

/-- In every run: what comes in for a session that is no longer displayed is not noticed. Whatever
the answer, message or end was, it left notes and settled what waited for it; after the answer to a
sync a picture that was out of date before is drawn, with the board as it was. -/
theorem outdated_completion_unnoticed (h : Host) (c : Config) (storage : Storage) (desk : Desk)
    (session : Vault) (hs : List Happening) (t : Ticket) :
    let p := (Page.opened h c storage desk session).after hs
    t ∈ p.tickets → p.board.currentTicket? ≠ some t →
      (∀ x : Happening, x.concerns p t → Unnoticed p (p.happen x)) ∧
        ∀ e : Completion, Unnoticed p (p.complete t e) ∧ ∃ notes, p.complete t e =
          e.settled (if e.redraws = true then (p.noteAll notes).redraw else p.noteAll notes) := by
  intro p ht hlate
  have hknown : p.Knows t := (knowsAll_opened h c storage desk session).after hs t ht
  have houtdated : p.board.isCurrent t = false := by
    rw [Bool.eq_false_iff]
    exact mt hknown.current_iff.mp hlate
  exact ⟨fun x hx => unnoticed_happen hx houtdated,
    fun e => ⟨unnoticed_complete houtdated e, complete_of_outdated houtdated e⟩⟩

def lateAnswer : List Happening :=
  [.load ⟨"EURUSD"⟩, .turn 0, .load ⟨"GBPUSD"⟩, .turn 0, .respond 0 (.response 200 "OK" "[]")]

theorem outdated_completion_unnoticed_of_lateAnswer :
    let p := (Page.opened {} {} .memory { clock := 0 } {}).after lateAnswer
    let late : Ticket := ⟨1, ⟨"EURUSD"⟩⟩
    late ∈ p.tickets ∧ p.board.currentTicket? = some ⟨2, ⟨"GBPUSD"⟩⟩ ∧
      p.ready = [.history (.caller 0) late 0] ∧ Unnoticed p (p.happen (.turn 0)) ∧
      (p.happen (.turn 0)).status = "Loading GBPUSD..." ∧
      (p.happen (.turn 0)).results = [.done 0, .pending] := by
  intro p late
  have hlate : late ∈ p.tickets := by decide +kernel
  have hcurrent : p.board.currentTicket? = some ⟨2, ⟨"GBPUSD"⟩⟩ := by decide +kernel
  have hready : p.ready = [.history (.caller 0) late 0] := by decide +kernel
  have hother : p.board.currentTicket? ≠ some late := by decide +kernel
  have hconcerns : Happening.concerns p late (.turn 0) :=
    ⟨_, congrArg (·[0]?) hready, .inl rfl⟩
  refine ⟨hlate, hcurrent, hready, ?_, by decide +kernel, by decide +kernel⟩
  exact (outdated_completion_unnoticed {} {} .memory { clock := 0 } {} lateAnswer late
    hlate hother).1 (.turn 0) hconcerns

end Page

end MarketSketch
