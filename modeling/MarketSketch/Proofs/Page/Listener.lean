import MarketSketch.Proofs.Board.Redraw
import MarketSketch.Proofs.Market.Streaming
import MarketSketch.Proofs.Market.WireForm
import MarketSketch.Proofs.Page.Boards

/-! What a candle listener hears. Every bar that the feed takes from a message is told once, to the
listener of that moment; only a page that keeps no candles at all tells none. -/

namespace MarketSketch

theorem Desk.performAll_map_note (d : Desk) (notes : List Log.Note) :
    d.performAll (notes.map .note) = d.noteAll notes := List.foldl_map

namespace CandleBuffer

theorem load_nil (limit : Nat) : load [] limit = ⟨[]⟩ := by simp [load, lastOfEachTime, lastOf]

theorem update_of_not_applied {b : CandleBuffer} {c : Candle} {limit : Nat}
    (h : (b.update c limit).2.applied = false) : (b.update c limit).1 = b := by
  revert h
  unfold update
  repeat' split
  all_goals simp [FeedUpdate.applied]

theorem last?_update_of_applied {b : CandleBuffer} {c : Candle} {n : Nat}
    (h : (b.update c (n + 1)).2.applied = true) : (b.update c (n + 1)).1.last? = some c := by
  revert h
  unfold update
  split
  · simp [FeedUpdate.applied]
  · split
    · split
      · simp [last?]
      · split
        · simp [FeedUpdate.applied]
        · intro _
          exact (getLast?_lastOf_succ n _).trans List.getLast?_concat
    · intro _
      exact getLast?_lastOf_succ n [c]

end CandleBuffer

namespace LiveFeed

structure Loaded (f : LiveFeed) (limit : Nat) : Prop where
  keeps : f.limit = limit
  buffer : ∃ cs, f.buffer = CandleBuffer.load cs limit

namespace Loaded

variable {f : LiveFeed} {limit : Nat}

theorem of_empty (hlimit : f.limit = limit) (hbuffer : f.buffer = {}) : f.Loaded limit :=
  ⟨hlimit, [], by rw [hbuffer, CandleBuffer.load_nil]⟩

theorem load (h : f.Loaded limit) (g : Guard) (t : Ticket) (cs : List Candle) :
    (f.load g t cs).state.Loaded limit := by
  unfold LiveFeed.load
  split
  · exact ⟨h.keeps, cs, by rw [h.keeps]⟩
  · exact h

theorem update_buffer (h : f.Loaded limit) (c : Candle) :
    ∃ cs, (f.buffer.update c limit).1 = CandleBuffer.load cs limit := by
  obtain ⟨cs, hcs⟩ := h.buffer
  rw [hcs]
  rcases CandleBuffer.update_load cs c limit with ⟨hrefused, _⟩ | ⟨hstate, _⟩
  · exact ⟨cs, by rw [hrefused]⟩
  · exact ⟨cs ++ [c], hstate⟩

theorem update (h : f.Loaded limit) (g : Guard) (t : Ticket) (c : Candle) :
    (f.update g t c).state.Loaded limit := by
  obtain ⟨cs, hcs⟩ := h.update_buffer c
  unfold LiveFeed.update
  split
  · exact ⟨h.keeps, cs, by rw [h.keeps]; exact hcs⟩
  · exact h

theorem last?_update (h : f.Loaded limit) {c : Candle}
    (hc : (f.buffer.update c limit).2.applied = true) :
    (f.buffer.update c limit).1.last? = if limit = 0 then none else some c := by
  cases limit with
  | zero =>
    obtain ⟨cs, hcs⟩ := h.update_buffer c
    rw [hcs, CandleBuffer.load_zero]
    rfl
  | succ n => exact CandleBuffer.last?_update_of_applied hc

end Loaded

end LiveFeed

namespace Board

variable {b : Board} {limit : Nat}

theorem loaded_opened (c : Config) (stored : Except Failure (Option String)) :
    (opened c stored).state.feed.Loaded c.historyLimit := .of_empty rfl rfl

theorem applyUpdate_of_current {t : Ticket} (h : b.isCurrent t = true) (c : Candle) :
    let u := b.feed.buffer.update c b.feed.limit
    (b.applyUpdate t c).reply = some u.2 ∧ (b.applyUpdate t c).state =
      { b with
        feed := { b.feed with buffer := u.1 }
        needsRedraw := b.needsRedraw || u.2.applied } := by
  have hguard : b.guard.isCurrent t = true := h
  simp [applyUpdate, LiveFeed.update, hguard, Turn.lift, touched]

theorem applyUpdate_of_not_applied {t : Ticket} {c : Candle}
    (h : (b.applyUpdate t c).reply.any FeedUpdate.applied = false) :
    (b.applyUpdate t c).state = b ∧
      ∃ notes : List Log.Note, (b.applyUpdate t c).effects = notes.map .note := by
  cases hcurrent : b.isCurrent t with
  | false =>
    rw [applyUpdate_of_outdated hcurrent]
    exact ⟨rfl, [_], rfl⟩
  | true =>
    obtain ⟨hreply, hstate⟩ := applyUpdate_of_current hcurrent c
    have hrefused : (b.feed.buffer.update c b.feed.limit).2.applied = false := by
      simpa [hreply] using h
    rw [hstate, CandleBuffer.update_of_not_applied hrefused, hrefused, Bool.or_false]
    refine ⟨rfl, ?_⟩
    show ∃ notes : List Log.Note, (b.feed.update b.guard t c).effects = notes.map .note
    unfold LiveFeed.update
    split
    · dsimp only
      split
      · exact ⟨[_], rfl⟩
      · exact ⟨[], rfl⟩
    · exact ⟨[_], rfl⟩

theorem loaded_step (h : b.feed.Loaded limit) (m : Moment) (e : Event) :
    (b.step m e).state.feed.Loaded limit := by
  cases e with
  | switch | teardown => exact .of_empty h.keeps rfl
  | history t cs => exact h.load b.guard t cs
  | update t c => exact h.update b.guard t c
  | analysis t payload =>
    show (b.applyAnalysis m t payload).state.feed.Loaded limit
    rw [applyAnalysis_state]
    split <;> exact h
  | _ => exact h

theorem loaded_act (h : b.feed.Loaded limit) (a : Action) : (b.act a).feed.Loaded limit := by
  cases hd : a.draws b with
  | true => rwa [act_of_draws hd]
  | false =>
    rcases act_of_not_draws hd with hsame | ⟨m, e, rfl⟩
    · rwa [hsame]
    · exact loaded_step h m e

theorem loaded_foldl_act (h : b.feed.Loaded limit) (as : List Action) :
    (as.foldl act b).feed.Loaded limit := by
  induction as generalizing b with
  | nil => exact h
  | cons a as ih => exact ih (loaded_act h a)

end Board

/-- The call leaves the listener where it is, and the session. -/
def HostCall.lasting : HostCall Listener → Bool
  | .listen _ | .teardown => false
  | _ => true

def Listener.lasting (l : Listener) : Bool := l.calls.all HostCall.lasting

namespace Page

variable {p q r : Page} {t : Ticket} {text : String} {l : Listener} {c : Candle} {limit : Nat}

/-- The bar that the feed takes from a message. -/
def takenBar? (p : Page) (t : Ticket) (text : String) : Option Candle :=
  (candleOfMessage text).toOption.filter fun c =>
    (p.board.applyUpdate t c).reply.any FeedUpdate.applied

def call? (p : Page) (t : Ticket) (text : String) : Option (Listener × Candle) :=
  p.listener.bind fun l => (p.takenBar? t text).map fun c => (l, c)

def receiveAll (p : Page) (t : Ticket) (texts : List String) : Page :=
  texts.foldl (fun p text => p.receive t text) p

/-- The calls that messages are due to make, each on the page as the ones before it left it. -/
def calls (p : Page) (t : Ticket) : List String → List (Listener × Candle)
  | [] => []
  | text :: rest => (p.call? t text).toList ++ (p.receive t text).calls t rest

section Message

theorem takenBar?_eq_some : p.takenBar? t text = some c ↔ candleOfMessage text = .ok c ∧
    (p.board.applyUpdate t c).reply.any FeedUpdate.applied = true := by
  unfold takenBar?
  cases candleOfMessage text <;> simp [Except.toOption, Option.filter_eq_some_iff]

def merged (p : Page) (t : Ticket) (c : Candle) : Page :=
  (p.step (p.board.applyUpdate t c)).1.redraw

theorem merged_of_taken (h : p.takenBar? t text = some c) :
    let u := p.board.feed.buffer.update c p.board.feed.limit
    u.2.applied = true ∧ (p.merged t c).board.feed.buffer = u.1 ∧
      (p.merged t c).board.guard = p.board.guard ∧ (p.merged t c).listener = p.listener ∧
      (p.merged t c).heard = p.heard := by
  obtain ⟨_, happlied⟩ := takenBar?_eq_some.mp h
  obtain ⟨flag, notes, screen, canvases, hdrawn⟩ :=
    repainted_redraw (p.step (p.board.applyUpdate t c)).1
  have hcurrent : p.board.isCurrent t = true := by
    by_contra hlate
    rw [Board.applyUpdate_of_outdated (by simpa using hlate)] at happlied
    simp at happlied
  obtain ⟨hreply, hstate⟩ := Board.applyUpdate_of_current hcurrent c
  refine ⟨by simpa [hreply] using happlied, ?_⟩
  rw [merged, hdrawn]
  show (p.board.applyUpdate t c).state.feed.buffer = _ ∧ _
  rw [hstate]
  exact ⟨rfl, rfl, rfl, rfl⟩

theorem receive_of_taken (h : p.takenBar? t text = some c) :
    p.receive t text = (p.merged t c).announce := by
  obtain ⟨hread, happlied⟩ := takenBar?_eq_some.mp h
  unfold receive
  simp only [hread]
  exact if_pos happlied

theorem aside_receive (h : p.takenBar? t text = none) : Aside p (p.receive t text) := by
  unfold receive
  cases hread : candleOfMessage text with
  | error f => exact aside_note p _
  | ok c =>
    have hnot : (p.board.applyUpdate t c).reply.any FeedUpdate.applied = false := by
      simpa [takenBar?, hread, Except.toOption, Option.filter_eq_none_iff] using h
    obtain ⟨hstate, notes, hnotes⟩ := Board.applyUpdate_of_not_applied hnot
    have hstep : (p.step (p.board.applyUpdate t c)).1 = p.noteAll notes := by
      show { p with board := _, desk := p.desk.performAll _ } = p.noteAll notes
      rw [hstate, hnotes, Desk.performAll_map_note]
      rfl
    have hquiet : (p.step (p.board.applyUpdate t c)).2.any FeedUpdate.applied = false := hnot
    simp only [hquiet, hstep]
    exact aside_noteAll p notes

end Message

section Heard

theorem Repainted.heard (h : Repainted p q) : q.heard = p.heard := by
  obtain ⟨_, _, _, _, rfl⟩ := h
  rfl

theorem operate_heard (p : Page) (e : Board.Event) : (p.operate e).1.heard = p.heard :=
  (repainted_redraw _).heard

theorem releaseStream_heard (p : Page) : p.releaseStream.heard = p.heard := by
  show (Page.abort _ p.slot.release.reply).heard = p.heard
  cases p.slot.release.reply <;> rfl

theorem call_heard (p : Page) (c : HostCall Listener) : (p.call c).heard = p.heard := by
  cases c with
  | operate e => exact operate_heard p e
  | payload v =>
    simp only [call, applyPayload]
    cases p.board.currentTicket? with
    | none => rfl
    | some t => exact (repainted_redraw _).heard
  | load | sync | listen => rfl
  | attach id => exact (repainted_attachCanvas p id).heard
  | render => exact (repainted_renderNow p).heard
  | teardown => exact (operate_heard p.releaseStream .teardown).trans (releaseStream_heard p)

theorem calls_heard (p : Page) (cs : List (HostCall Listener)) :
    (cs.foldl call p).heard = p.heard := by
  induction cs generalizing p with
  | nil => rfl
  | cons c cs ih => exact (ih (p.call c)).trans (call_heard p c)

theorem heard_listen (p : Page) (l : Listener) (c : Candle) :
    (p.listen l c).heard = (l, c) :: p.heard := by
  unfold listen
  cases l.throws <;> exact calls_heard _ l.calls

theorem heard_receive (h : p.board.feed.Loaded limit) (t : Ticket) (text : String) :
    (p.receive t text).heard = (if limit = 0 then [] else (p.call? t text).toList) ++ p.heard := by
  cases htaken : p.takenBar? t text with
  | none => simp [(aside_receive htaken).heard, call?, htaken]
  | some c =>
    obtain ⟨happlied, hbuffer, _, hlistener, hheard⟩ := merged_of_taken htaken
    rw [h.keeps] at happlied hbuffer
    have hlast := h.last?_update happlied
    rw [receive_of_taken htaken, announce, hbuffer, hlast, hlistener, call?, htaken]
    by_cases hlimit : limit = 0
    · simp [hlimit, hheard]
    · cases p.listener with
      | none => simp [hlimit, hheard]
      | some l => simp [hlimit, heard_listen, hheard]

theorem Operated.loaded (h : Operated p q) (hp : p.board.feed.Loaded limit) :
    q.board.feed.Loaded limit := by
  obtain ⟨as, has⟩ := h
  rw [has]
  exact Board.loaded_foldl_act hp as

theorem operated_receiveAll (p : Page) (t : Ticket) (texts : List String) :
    Operated p (p.receiveAll t texts) := by
  induction texts generalizing p with
  | nil => exact .of_board rfl
  | cons text rest ih => exact (operated_receive p t text).trans (ih _)

theorem heard_receiveAll (h : p.board.feed.Loaded limit) (t : Ticket) (texts : List String) :
    (p.receiveAll t texts).heard =
      (if limit = 0 then [] else (p.calls t texts).reverse) ++ p.heard := by
  induction texts generalizing p with
  | nil => simp [receiveAll, calls]
  | cons text rest ih =>
    have hrest := ih ((operated_receive p t text).loaded h)
    have hone : (p.call? t text).toList.reverse = (p.call? t text).toList := by
      cases p.call? t text <;> rfl
    show ((p.receive t text).receiveAll t rest).heard = _
    rw [hrest, heard_receive h, calls, List.reverse_append, hone]
    split <;> simp

end Heard

section Lasting

theorem takenBar?_of_current (hread : candleOfMessage text = .ok c)
    (hcurrent : p.board.isCurrent t = true) :
    p.takenBar? t text =
      if (p.board.feed.buffer.update c p.board.feed.limit).2.applied then some c else none := by
  have hreply := (Board.applyUpdate_of_current hcurrent c).1
  simp [takenBar?, hread, Except.toOption, Option.filter_some, hreply]

/-- From one page to another the listener is the same, and so are the candles and the session. -/
structure Lasts (p q : Page) : Prop where
  listener : q.listener = p.listener
  feed : q.board.feed = p.board.feed
  guard : q.board.guard = p.board.guard

namespace Lasts

theorem refl (p : Page) : Lasts p p := ⟨rfl, rfl, rfl⟩

theorem trans (h : Lasts p q) (h' : Lasts q r) : Lasts p r :=
  ⟨h'.listener.trans h.listener, h'.feed.trans h.feed, h'.guard.trans h.guard⟩

theorem of_repainted (h : Repainted p q) : Lasts p q := by
  obtain ⟨_, _, _, _, rfl⟩ := h
  exact ⟨rfl, rfl, rfl⟩

end Lasts

theorem lasts_update {ρ : Type} {u : Turn Board ρ} (hfeed : u.state.feed = p.board.feed)
    (hguard : u.state.guard = p.board.guard) : Lasts p (p.update u).1 := by
  have hstep : Lasts p (p.step u).1 := ⟨rfl, hfeed, hguard⟩
  exact hstep.trans (.of_repainted (repainted_redraw _))

theorem lasts_call (p : Page) {c : HostCall Listener} (hc : c.lasting = true) :
    Lasts p (p.call c) := by
  cases c with
  | operate e byHost =>
    obtain ⟨hguard, hfeed, -⟩ := Board.step_of_byHost byHost p.board p.moment
    exact lasts_update hfeed hguard
  | payload v =>
    simp only [call, applyPayload]
    cases p.board.currentTicket? with
    | none => exact .refl p
    | some t =>
      have hstate := Board.applyAnalysis_state p.board p.moment t v
      refine lasts_update ?_ ?_ <;> rw [hstate] <;> split <;> rfl
  | load | sync => exact ⟨rfl, rfl, rfl⟩
  | attach id => exact .of_repainted (repainted_attachCanvas p id)
  | render => exact .of_repainted (repainted_renderNow p)
  | listen | teardown => cases hc

theorem lasts_calls (p : Page) {cs : List (HostCall Listener)}
    (hcs : ∀ c ∈ cs, c.lasting = true) : Lasts p (cs.foldl call p) := by
  induction cs generalizing p with
  | nil => exact .refl p
  | cons c cs ih =>
    have hcall := lasts_call p (hcs c List.mem_cons_self)
    exact hcall.trans (ih (p.call c) fun c' hc' => hcs c' (List.mem_cons_of_mem c hc'))

theorem lasts_listen (p : Page) (hl : l.lasting = true) (c : Candle) : Lasts p (p.listen l c) := by
  let told : Page := { p with heard := (l, c) :: p.heard }
  have htold : Lasts p told := ⟨rfl, rfl, rfl⟩
  have hcalls : Lasts p (l.calls.foldl call told) :=
    htold.trans (lasts_calls told (List.all_eq_true.mp hl))
  unfold listen
  cases l.throws with
  | none => exact hcalls
  | some reason => exact hcalls.trans ⟨rfl, rfl, rfl⟩

theorem lasts_announce (hl : l.lasting = true) (hp : p.listener = some l) : Lasts p p.announce := by
  unfold announce
  rw [hp]
  cases p.board.feed.buffer.last? with
  | none => exact .refl p
  | some c => exact lasts_listen p hl c

theorem receive_of_lasting (h : p.board.feed.Loaded limit) (hl : l.lasting = true)
    (hp : p.listener = some l) (htaken : p.takenBar? t text = some c) :
    (p.receive t text).listener = some l ∧
      (p.receive t text).board.feed.buffer = (p.board.feed.buffer.update c limit).1 ∧
      (p.receive t text).board.guard = p.board.guard := by
  obtain ⟨_, hbuffer, hguard, hlistener, _⟩ := merged_of_taken htaken
  have hlasts := lasts_announce hl (hlistener.trans hp)
  rw [receive_of_taken htaken, hlasts.listener, hlasts.feed, hbuffer, hlasts.guard, hguard, h.keeps]
  exact ⟨hlistener.trans hp, rfl, rfl⟩

theorem calls_of_lasting (h : p.board.feed.Loaded limit) (hl : l.lasting = true)
    (hp : p.listener = some l) (hcurrent : p.board.isCurrent t = true) (texts : List String) :
    p.calls t texts =
      (p.board.feed.buffer.accepted limit
        (texts.filterMap fun text => (candleOfMessage text).toOption)).map fun c => (l, c) := by
  induction texts generalizing p with
  | nil => rfl
  | cons text rest ih =>
    have hloaded := (operated_receive p t text).loaded h
    have quiet (hnone : p.takenBar? t text = none) : p.calls t (text :: rest) =
        (p.board.feed.buffer.accepted limit
          (rest.filterMap fun text => (candleOfMessage text).toOption)).map fun c => (l, c) := by
      have haside := aside_receive hnone
      rw [calls, call?, hp, hnone, ih hloaded (haside.listener.trans hp) (by rwa [haside.board]),
        haside.board]
      rfl
    cases hread : candleOfMessage text with
    | error f =>
      rw [quiet (by simp [takenBar?, hread, Except.toOption])]
      simp [hread, Except.toOption]
    | ok c =>
      have htaken := takenBar?_of_current hread hcurrent
      have hrest : (text :: rest).filterMap (fun text => (candleOfMessage text).toOption) =
          c :: rest.filterMap fun text => (candleOfMessage text).toOption := by
        simp [hread, Except.toOption]
      rw [h.keeps] at htaken
      rw [hrest, CandleBuffer.accepted_cons]
      cases happlied : (p.board.feed.buffer.update c limit).2.applied with
      | false =>
        rw [quiet (by simp [htaken, happlied]), CandleBuffer.update_of_not_applied happlied]
        simp
      | true =>
        rw [happlied, if_pos rfl] at htaken
        obtain ⟨hstays, hbuffer, hguard⟩ := receive_of_lasting h hl hp htaken
        have hcurrent' : (p.receive t text).board.isCurrent t = true := by
          rwa [Board.isCurrent, hguard]
        rw [calls, call?, hp, htaken, ih hloaded hstays hcurrent', hbuffer]
        rfl

end Lasting

theorem takenBar?_eq_none_iff (h : p.board.feed.Loaded limit)
    (hcurrent : p.board.isCurrent t = true) :
    p.takenBar? t text = none ↔
      ∀ c, candleOfMessage text = .ok c → ∃ d ∈ p.board.candles, c.time < d.time := by
  cases hread : candleOfMessage text with
  | error f => simp [takenBar?, hread, Except.toOption]
  | ok c =>
    obtain ⟨cs, hcs⟩ := h.buffer
    rw [takenBar?_of_current hread hcurrent, h.keeps, Board.candles, LiveFeed.candles, hcs]
    rcases CandleBuffer.update_load cs c limit with
      ⟨hrefused, hwhy⟩ | ⟨_, happlied, _, hlate⟩
    · have hearly := hwhy.resolve_left (by simp [finite_of_candleOfMessage hread])
      simpa [hrefused, FeedUpdate.applied] using hearly
    · simpa [happlied] using hlate

/-- In every run of a page, whatever listener is there: messages that come in are told as far as the
feed takes their bars, each once and in order, unless no candles are kept; the others leave nothing
but notes. While the listener and the session last, the bars told are those that the buffer
accepts. -/
theorem listener_hears_taken_bars (h : Host) (c : Config) (storage : Storage) (desk : Desk)
    (session : Vault) (hs : List Happening) (t : Ticket) (texts : List String) :
    let p := (opened h c storage desk session).after hs
    (p.receiveAll t texts).heard =
        (if c.historyLimit = 0 then [] else (p.calls t texts).reverse) ++ p.heard ∧
      (∀ before text later, texts = before ++ text :: later →
        let q := p.receiveAll t before
        (q.takenBar? t text = none → Aside q (q.receive t text)) ∧
        (q.board.isCurrent t = true → (q.takenBar? t text = none ↔
          ∀ bar, candleOfMessage text = .ok bar → ∃ d ∈ q.board.candles, bar.time < d.time))) ∧
      ∀ l, p.listener = some l → l.lasting = true → p.board.currentTicket? = some t →
        p.calls t texts =
          (p.board.feed.buffer.accepted c.historyLimit
            (texts.filterMap fun text => (candleOfMessage text).toOption)).map
              fun bar => (l, bar) := by
  intro p
  have hloaded : p.board.feed.Loaded c.historyLimit :=
    (operated_after _ hs).loaded (Board.loaded_opened c _)
  refine ⟨heard_receiveAll hloaded t texts, fun before text later _ => ⟨aside_receive, ?_⟩, ?_⟩
  · intro hcurrent
    have hreached : Operated p (p.receiveAll t before) := operated_receiveAll p t before
    exact takenBar?_eq_none_iff (hreached.loaded hloaded) hcurrent
  · intro l hl hlasting hdisplayed
    have hcurrent := (Option.filter_eq_some_iff.mp hdisplayed).2
    exact calls_of_lasting hloaded hlasting hl hcurrent texts

def undoing : Listener := { name := "undo", calls := [.operate .undo rfl] }

def heardSession : List Happening :=
  [.load ⟨"EURUSD"⟩, .turn 0, .respond 0 (.response 200 "OK" "[]"), .turn 0,
    .call (.listen (some undoing))]

theorem listener_hears_taken_bars_of_heardSession :
    let p := (Page.opened {} {} .memory { clock := 0 } {}).after heardSession
    let t : Ticket := ⟨1, ⟨"EURUSD"⟩⟩
    let texts := [barText 5, "x", barText 4, barText 5, barText 6]
    p.listener = some undoing ∧ undoing.lasting = true ∧ p.board.currentTicket? = some t ∧
      (p.receiveAll t texts).heard.map (·.2.time) = [6, 5, 5] ∧
      Aside (p.receiveAll t [barText 5]) ((p.receiveAll t [barText 5]).receive t "x") ∧
      p.calls t texts = (p.board.feed.buffer.accepted ({} : Config).historyLimit
        (texts.filterMap fun text => (candleOfMessage text).toOption)).map
          fun bar => (undoing, bar) := by
  intro p t texts
  have hl : p.listener = some undoing := rfl
  have ht : p.board.currentTicket? = some t := by decide +kernel
  have hcalls : (p.calls t texts).map (·.2.time) = [5, 5, 6] := by decide +kernel
  have hempty : p.heard = [] := List.isEmpty_iff.mp (by decide +kernel)
  have hunread : (p.receiveAll t [barText 5]).takenBar? t "x" = none := by decide +kernel
  obtain ⟨hheard, hothers, haccepted⟩ :=
    listener_hears_taken_bars {} {} .memory { clock := 0 } {} heardSession t texts
  refine ⟨hl, rfl, ht, ?_, (hothers [barText 5] "x" _ rfl).1 hunread, haccepted undoing hl rfl ht⟩
  show (p.receiveAll t texts).heard.map (·.2.time) = _
  have hkept : ({} : Config).historyLimit ≠ 0 := by decide
  rw [hheard, if_neg hkept, hempty, List.append_nil, List.map_reverse, hcalls]
  rfl

/-- A page that keeps no candles takes a bar and tells nobody. -/
theorem taken_bar_untold :
    ¬ ∀ (h : Host) (c : Config) (storage : Storage) (desk : Desk) (session : Vault)
        (hs : List Happening) (t : Ticket) (texts : List String),
        let p := (Page.opened h c storage desk session).after hs
        p.board.currentTicket? = some t →
          (p.receiveAll t texts).heard = (p.calls t texts).reverse ++ p.heard := by
  intro h
  let c : Config := { historyLimit := 0 }
  have huntold := h {} c .memory { clock := 0 } {} heardSession ⟨1, ⟨"EURUSD"⟩⟩ [barText 5]
    (by decide +kernel)
  have hlength := congrArg List.length huntold
  exact absurd hlength (by decide +kernel)

end Page

end MarketSketch
