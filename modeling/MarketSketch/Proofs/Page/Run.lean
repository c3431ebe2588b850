import MarketSketch.Page.Api
import MarketSketch.Proofs.Page.Session

/-! Runs of a page. Tasks take their turns in any order, and everything the world can do comes in
between. Every happening is a chain of four kinds of shift of the page's sessions and streams. -/

namespace MarketSketch

namespace Page

/-- What can happen to a page: calls of its host, inputs of the panel, a turn of a ready task, one
message or the end of a stream, and events of the world. -/
inductive Happening where
  | call (c : HostCall Listener)
  | load (s : Symbol)
  | operate (e : Board.Event)
  | attach (s : Screen)
  | redraw
  | mount (v : ChartView) (t : Tool) (symbolText : String)
  | viewport (v : ChartView)
  | tool (t : Tool)
  | symbol (text : String)
  | press (pointer : Int) (at_ : Pixel)
  | key (key : String)
  | unmount
  | turn (n : Nat)
  | message (stream : Nat) (text : String)
  | ended (stream : Nat) (f : Option Failure)
  | respond (request : Nat) (a : Answer)
  | deliver (socket : Nat) (e : SocketEvent)
  | tick
  | clock (now : UInt64)
  | host (h : Host)

def happen (p : Page) : Happening → Page
  | .call c => p.call c
  | .load s => p.requestLoad s
  | .operate e => (p.operate e).1
  | .attach s => p.attach s
  | .redraw => p.redraw
  | .mount v t text => p.mount v t text
  | .viewport v => p.setViewport v
  | .tool t => p.setTool t
  | .symbol text => p.setSymbol text
  | .press pointer at_ => p.pressed pointer at_
  | .key key => p.keyDown key
  | .unmount => p.unmount
  | .turn n =>
    match p.ready[n]? with
    | some k => { p with ready := p.ready.eraseIdx n }.run k
    | none => p
  | .message id text =>
    match p.streams[id]? with
    | some s => p.receive s.ticket text
    | none => p
  | .ended id f =>
    match p.streams[id]? with
    | some s => p.finishStream id s.ticket f
    | none => p
  | .respond request a => (p.respond request a).1
  | .deliver socket e => (p.deliver socket e).1
  | .tick => p.tick
  | .clock now => p.setClock now
  | .host h => p.governed h

def after (p : Page) (hs : List Happening) : Page := hs.foldl happen p

@[simp] theorem after_nil (p : Page) : p.after [] = p := rfl

@[simp] theorem after_cons (p : Page) (h : Happening) (hs : List Happening) :
    p.after (h :: hs) = (p.happen h).after hs := rfl

theorem runNext_eq_turn (p : Page) : p.runNext = p.happen (.turn 0) := by
  unfold runNext happen
  cases hready : p.ready <;> rfl

theorem drain_eq_after (p : Page) : ∃ n, p.drain = p.after (List.replicate n (.turn 0)) := by
  fun_induction drain p with
  | case1 p _ => exact ⟨0, rfl⟩
  | case2 p _ next _ ih =>
    obtain ⟨n, hn⟩ := ih
    refine ⟨n + 1, ?_⟩
    rw [hn, List.replicate_succ, after_cons, ← runNext_eq_turn]
  | case3 p _ next _ => exact ⟨1, p.runNext_eq_turn⟩

def Happening.keepsSession : Happening → Bool
  | .operate e => e.keepsSession
  | _ => true

def takes? (p : Page) : Task → Option Ticket
  | .history _ t request =>
    match (p.answer? request).map candlesOf with
    | some (.ok cs) => if (p.board.applyHistory t cs).reply then some t else none
    | _ => none
  | _ => none

def taken? (p : Page) : Happening → Option Ticket
  | .turn n => p.ready[n]?.bind p.takes?
  | _ => none

def loaded (p : Page) : List Happening → List Ticket
  | [] => []
  | h :: hs => (p.taken? h).toList ++ (p.happen h).loaded hs

variable {p q r : Page} {t : Ticket} {ts us : List Ticket}

/-- From one page to another as far as sessions and streams go, with the sessions whose stream was
started on the way. -/
inductive Shifts : Page → List Ticket → Page → Prop
  | calm {p q : Page} (h : Undisturbed p q) : Shifts p [] q
  | torn (p : Page) : Shifts p [] p.teardown
  | begun (p : Page) (c : Client) (s : Symbol) : Shifts p [] (p.beginLoad c s)
  | started {p : Page} {t : Ticket} (current : p.board.isCurrent t = true) (known : p.Knows t) :
      Shifts p [t] (p.startStream t)
  | trans {p q r : Page} {ts us : List Ticket} (first : Shifts p ts q) (second : Shifts q us r) :
      Shifts p (ts ++ us) r

theorem Shifts.before_calm (h : Shifts p ts q) (hq : Undisturbed q r) : Shifts p ts r :=
  ts.append_nil ▸ h.trans (.calm hq)

theorem Undisturbed.shifts (h : Undisturbed p q) (hq : Shifts q ts r) : Shifts p ts r :=
  .trans (.calm h) hq

section Calls

theorem undisturbed_reserve (p : Page) : Undisturbed p p.reserve.1 :=
  .of_same rfl rfl rfl rfl rfl rfl

theorem undisturbed_payload (v : Json.Value) : Undisturbed p (p.call (.payload v)) := by
  simp only [call, applyPayload]
  cases p.board.currentTicket? with
  | none => exact .refl p
  | some t => exact undisturbed_applyAnalysis t v

theorem shifts_call (p : Page) (c : HostCall Listener) : Shifts p [] (p.call c) := by
  cases c with
  | operate e byHost =>
    exact .calm (undisturbed_operate (Board.Event.keepsSession_of_byHost byHost))
  | payload v => exact .calm (undisturbed_payload v)
  | load | sync => exact .calm ((undisturbed_reserve p).trans (undisturbed_spawn rfl))
  | attach id => exact .calm (repainted_attachCanvas p id).undisturbed
  | render => exact .calm (repainted_renderNow p).undisturbed
  | listen => exact .calm (.of_same rfl rfl rfl rfl rfl rfl)
  | teardown => exact .torn p

theorem shifts_calls (p : Page) (cs : List (HostCall Listener)) :
    Shifts p [] (cs.foldl call p) := by
  induction cs generalizing p with
  | nil => exact .calm (.refl p)
  | cons c cs ih => exact (shifts_call p c).trans (ih (p.call c))

end Calls

section Messages

theorem shifts_listen (p : Page) (l : Listener) (c : Candle) : Shifts p [] (p.listen l c) := by
  let told : Page := { p with heard := (l, c) :: p.heard }
  have htold : Undisturbed p told := .of_same rfl rfl rfl rfl rfl rfl
  have hcalls : Shifts p [] (l.calls.foldl call told) := htold.shifts (shifts_calls told l.calls)
  unfold listen
  cases l.throws with
  | none => exact hcalls
  | some reason => exact hcalls.before_calm (aside_note _ _).toUndisturbed

theorem shifts_receive (p : Page) (t : Ticket) (text : String) :
    Shifts p [] (p.receive t text) := by
  unfold receive
  split
  · exact .calm (aside_note p _).toUndisturbed
  · rename_i c _
    obtain ⟨hguard, hticket⟩ := Board.Standing.applyUpdate_keeps p.board t c
    have hstep : Undisturbed p (p.step (p.board.applyUpdate t c)).1 :=
      undisturbed_step hguard hticket
    dsimp only
    split
    · refine hstep.shifts ((repainted_redraw _).undisturbed.shifts ?_)
      unfold announce
      split
      · exact shifts_listen _ _ _
      · exact .calm (.refl _)
    · exact .calm hstep

theorem shifts_readEvents (id : Nat) (t : Ticket) (es : List SocketEvent) (p : Page) :
    Shifts p [] (readEvents id t es p) := by
  -- a message may make the listener end the session, but the stream reads the rest of its inbox
  induction es generalizing p with
  | nil =>
    unfold readEvents
    split
    · exact .calm (aside_abortStream p id t).toUndisturbed
    · exact .calm (aside_park p id).toUndisturbed
  | cons e es ih =>
    unfold readEvents
    split
    · exact .calm (undisturbed_finishStream id t _)
    · split
      · exact (shifts_receive p t _).trans (ih _)
      · exact ih p

theorem shifts_runStream (p : Page) (id : Nat) : Shifts p [] (p.runStream id) := by
  unfold runStream
  cases h : p.streams[id]? with
  | none => exact .calm (.refl p)
  | some s =>
    dsimp only
    split
    · exact .calm (.refl p)
    · split
      · exact .calm (aside_abortStream p id _).toUndisturbed
      · exact .calm (undisturbed_connect h)
    · have hread : Aside p (p.setStream id { s with inbox := [] }) := aside_setStream h rfl rfl
      split
      · exact .calm (aside_abortStream p id _).toUndisturbed
      · exact hread.toUndisturbed.shifts (shifts_readEvents id _ _ _)

end Messages

section Turns

theorem finishLoad_of_error {c : Client} {a : Answer} {f : Failure} (h : candlesOf a = .error f) :
    p.finishLoad c t a = (p.fail t f).settleLoad c (.error f) := by
  unfold finishLoad takeCandles
  rw [h]

theorem finishLoad_of_ok {c : Client} {a : Answer} {cs : List Candle} (h : candlesOf a = .ok cs) :
    p.finishLoad c t a =
      let q := ((p.note (loadedNote t.symbol cs.length)).step (p.board.applyHistory t cs)).1
      if p.board.isCurrent t = true then
        { q.redraw.startStream t with
          status := t.symbol.name ++ ": " ++ toString q.board.candles.length ++
            " candles, live" }.settleLoad c (.ok q.board.candles.length)
      else q.settleLoad c (.ok 0) := by
  unfold finishLoad takeCandles
  rw [h]
  dsimp only
  rw [← Board.applyHistory_reply p.board t cs]
  rfl

theorem shifts_finishLoad (c : Client) {a : Answer} {request : Nat} (hknown : p.Knows t)
    (ha : p.answer? request = some a) :
    Shifts p (p.takes? (.history c t request)).toList (p.finishLoad c t a) := by
  cases hcandles : candlesOf a with
  | error f =>
    rw [finishLoad_of_error hcandles]
    simp only [takes?, ha, Option.map_some, hcandles, Option.toList_none]
    exact .calm ((undisturbed_fail t f).trans (aside_settleLoad _ c _).toUndisturbed)
  | ok cs =>
    obtain ⟨hguard, hticket⟩ := Board.Standing.applyHistory_keeps p.board t cs
    have hnoted : Undisturbed p (p.note (loadedNote t.symbol cs.length)) :=
      (aside_note p _).toUndisturbed
    have hstep := hnoted.trans
      (undisturbed_step (u := p.board.applyHistory t cs) hguard hticket)
    rw [finishLoad_of_ok hcandles]
    simp only [takes?, ha, Option.map_some, hcandles, Board.applyHistory_reply]
    split
    · rename_i hcurrent
      have hdrawn := hstep.trans (repainted_redraw _).undisturbed
      refine hdrawn.shifts ((Shifts.started ?_ (hdrawn.knows_iff.mpr hknown)).before_calm ?_)
      · rw [hdrawn.current, hcurrent]
      · exact (undisturbed_status _ _).trans (aside_settleLoad _ c _).toUndisturbed
    · exact .calm (hstep.trans (aside_settleLoad _ c _).toUndisturbed)

theorem undisturbed_runEffect (p : Page) (e : PanelEffect) : Undisturbed p (p.runEffect e) := by
  cases e with
  | viewport | tool => exact undisturbed_operate rfl
  | symbol =>
    unfold runEffect enterPanelSymbol
    dsimp only
    split
    · exact .of_same rfl rfl rfl rfl rfl rfl
    · exact undisturbed_spawn rfl

theorem shifts_run {k : Task} (hk : ∀ t, k.ticket? = some t → p.Knows t) :
    Shifts p (p.takes? k).toList (p.run k) := by
  cases k with
  | enter place text =>
    unfold run enter
    dsimp only
    split
    · exact .calm (.of_same rfl rfl rfl rfl rfl rfl)
    · exact .begun p _ _
  | load c s => exact .begun p c s
  | history c t request =>
    unfold run
    dsimp only
    split
    · exact shifts_finishLoad c (hk t rfl) ‹_›
    · rename_i ha
      simp only [takes?, ha]
      exact .calm (aside_suspend hk).toUndisturbed
  | sync c => exact .calm (aside_beginSync p c).toUndisturbed
  | analysis c t request =>
    unfold run
    dsimp only
    split
    · exact .calm (undisturbed_finishSync c t _)
    · exact .calm (aside_suspend hk).toUndisturbed
  | stream id => exact shifts_runStream p id
  | effect e => exact .calm (undisturbed_runEffect p e)

theorem knows_of_ready {n : Nat} {k : Task} (hp : p.KnowsAll) (hk : p.ready[n]? = some k) :
    ∀ t, k.ticket? = some t → p.Knows t := by
  intro t ht
  exact hp t (mem_tickets.mpr (.inl ⟨k, .inl (List.mem_of_getElem? hk), ht⟩))

end Turns

section World

theorem undisturbed_attachPanel (p : Page) : Undisturbed p p.attachPanel := by
  unfold attachPanel
  split
  · exact .of_same rfl rfl rfl rfl rfl rfl
  · exact (repainted_takeCanvas p _ _).undisturbed

theorem undisturbed_startTimer (p : Page) : Undisturbed p p.startTimer := by
  unfold startTimer
  split
  · exact .refl p
  · exact .of_same rfl rfl rfl rfl rfl rfl

theorem undisturbed_mount (v : ChartView) (t : Tool) (text : String) :
    Undisturbed p (p.mount v t text) := by
  unfold mount
  dsimp only
  generalize hq : { p with panel := _ } = q
  have hpanel : Undisturbed p q := hq ▸ .of_same rfl rfl rfl rfl rfl rfl
  refine hpanel.trans ((undisturbed_attachPanel q).trans ((undisturbed_startTimer _).trans ?_))
  exact (undisturbed_spawn rfl).trans ((undisturbed_spawn rfl).trans (undisturbed_spawn rfl))

theorem undisturbed_input (panel : Panel) (e : PanelEffect) :
    Undisturbed p (if p.panel.mounted then { p with panel := panel }.runEffect e else p) := by
  have hpanel : Undisturbed p { p with panel := panel } := .of_same rfl rfl rfl rfl rfl rfl
  split
  · exact hpanel.trans (undisturbed_runEffect _ e)
  · exact .refl p

theorem undisturbed_capture (p : Page) (pointer : Int) : Undisturbed p (p.capture pointer) := by
  unfold capture
  split <;> exact .of_same rfl rfl rfl rfl rfl rfl

theorem undisturbed_keyDown (p : Page) (key : String) : Undisturbed p (p.keyDown key) := by
  unfold keyDown
  split
  · exact undisturbed_operate rfl
  · exact .refl p

theorem shifts_unmount (p : Page) : Shifts p [] p.unmount := by
  unfold unmount
  split
  · dsimp only
    generalize hq : { p with timers := _ } = q
    have htimers : Undisturbed p q := hq ▸ .of_same rfl rfl rfl rfl rfl rfl
    exact htimers.shifts ((Shifts.torn q).before_calm (.of_same rfl rfl rfl rfl rfl rfl))
  · exact .calm (.refl p)

theorem undisturbed_respond (request : Nat) (a : Answer) :
    Undisturbed p (p.respond request a).1 := by
  unfold respond
  split
  · split
    · exact .refl p
    · dsimp only
      generalize hq : { p with requests := _ } = q
      have hanswered : Undisturbed p q := hq ▸ .of_same rfl rfl rfl rfl rfl rfl
      exact hanswered.trans (undisturbed_wake _)
  · exact .refl p

theorem undisturbed_deliver (socket : Nat) (e : SocketEvent) :
    Undisturbed p (p.deliver socket e).1 := by
  unfold deliver
  split
  · split
    · rename_i id _
      dsimp only
      generalize hq : { p with streams := _ } = q
      have hhandles : q.handles = p.handles := by
        rw [← hq]
        exact handles_modify fun _ => rfl
      have hreceived : Undisturbed p q := by
        subst hq
        exact .of_tasks rfl rfl rfl hhandles fun _ hk => .inl hk
      exact hreceived.trans (undisturbed_wake _)
    · exact .refl p
  · exact .refl p

theorem undisturbed_tick (p : Page) : Undisturbed p p.tick := by
  refine .of_tasks rfl rfl rfl rfl fun k hk => ?_
  rcases hk with hready | hwaiting
  · rcases List.mem_append.mp hready with hold | hnew
    · exact .inl (.inl hold)
    · obtain ⟨_, _, rfl⟩ := List.mem_map.mp hnew
      exact .inr (by simp [Task.ticket?])
  · exact .inl (.inr hwaiting)

end World

theorem shifts_turn (hp : p.KnowsAll) (n : Nat) :
    Shifts p (p.taken? (.turn n)).toList (p.happen (.turn n)) := by
  simp only [happen, taken?]
  cases hk : p.ready[n]? with
  | none => exact .calm (.refl p)
  | some k =>
    have htaken := undisturbed_taken (p := p) n
    exact htaken.shifts (shifts_run fun t ht => htaken.knows_iff.mpr (knows_of_ready hp hk t ht))

theorem shifts_happen (hp : p.KnowsAll) {h : Happening} (hkeeps : h.keepsSession = true) :
    Shifts p (p.taken? h).toList (p.happen h) := by
  cases h with
  | call c => exact shifts_call p c
  | load => exact .calm ((undisturbed_reserve p).trans (undisturbed_spawn rfl))
  | operate e => exact .calm (undisturbed_operate hkeeps)
  | attach s => exact .calm (repainted_attach p s).undisturbed
  | redraw => exact .calm (repainted_redraw p).undisturbed
  | mount v t text => exact .calm (undisturbed_mount v t text)
  | viewport | tool | symbol => exact .calm (undisturbed_input _ _)
  | press pointer at_ =>
    exact .calm ((undisturbed_capture p pointer).trans (undisturbed_operate rfl))
  | key key => exact .calm (undisturbed_keyDown p key)
  | unmount => exact shifts_unmount p
  | turn n => exact shifts_turn hp n
  | message id text =>
    simp only [happen]
    split
    · exact shifts_receive p _ text
    · exact .calm (.refl p)
  | ended id f =>
    simp only [happen]
    split
    · exact .calm (undisturbed_finishStream id _ f)
    · exact .calm (.refl p)
  | respond request a => exact .calm (undisturbed_respond request a)
  | deliver socket e => exact .calm (undisturbed_deliver socket e)
  | tick => exact .calm (undisturbed_tick p)
  | clock | host => exact .calm (.of_same rfl rfl rfl rfl rfl rfl)

section Known

theorem KnowsAll.teardown (hp : p.KnowsAll) : p.teardown.KnowsAll := by
  have hreleased : p.releaseStream.KnowsAll := (sameSession_releaseStream p).knowsAll hp
  exact (undisturbed_teardown p).knowsAll (hreleased.outdated rfl)

theorem KnowsAll.beginLoad (hp : p.KnowsAll) (c : Client) (s : Symbol) :
    (p.beginLoad c s).KnowsAll := by
  have hswitched : KnowsAll { p with board := (p.board.switchSymbol s).1 } := hp.outdated rfl
  exact (undisturbed_beginLoad p c s).knowsAll ((sameSession_releaseStream _).knowsAll hswitched)

theorem Shifts.knowsAll (h : Shifts p ts q) (hp : p.KnowsAll) : q.KnowsAll := by
  induction h with
  | calm h => exact h.knowsAll hp
  | torn p => exact hp.teardown
  | begun p c s => exact hp.beginLoad c s
  | started _ known => exact (sameSession_startStream known).knowsAll hp
  | trans _ _ ih ih' => exact ih' (ih hp)

theorem KnowsAll.operate (hp : p.KnowsAll) (e : Board.Event) : (p.operate e).1.KnowsAll := by
  have hupdate {b : Board} (hgen : b.guard.generation = p.board.guard.generation + 1)
      (es : List Effect) : (({ p with board := b }.performAll es).redraw).KnowsAll :=
    ((undisturbed_performAll _ es).trans (repainted_redraw _).undisturbed).knowsAll
      (hp.outdated hgen)
  -- a session that begins or ends past the slot outdates the others just as well
  cases e with
  | switch s => exact hupdate (b := (p.board.switchSymbol s).1) rfl []
  | teardown => exact hupdate (b := p.board.teardown.state) rfl _
  | _ => exact (undisturbed_operate rfl).knowsAll hp

theorem KnowsAll.happen (hp : p.KnowsAll) (h : Happening) : (p.happen h).KnowsAll := by
  cases hkeeps : h.keepsSession with
  | true => exact (shifts_happen hp hkeeps).knowsAll hp
  | false =>
    cases h with
    | operate e => exact hp.operate e
    | _ => cases hkeeps

theorem KnowsAll.after (hp : p.KnowsAll) (hs : List Happening) : (p.after hs).KnowsAll := by
  induction hs generalizing p with
  | nil => exact hp
  | cons h hs ih => exact ih (hp.happen h)

theorem knowsAll_opened (h : Host) (c : Config) (storage : Storage) (desk : Desk)
    (session : Vault) : (opened h c storage desk session).KnowsAll := by
  intro t ht
  cases ht

end Known

end Page

end MarketSketch
