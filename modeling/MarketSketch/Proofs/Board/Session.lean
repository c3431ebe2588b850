import MarketSketch.Proofs.Board.Run
import MarketSketch.Proofs.Market.Candle

/-! Sessions in a run. Whatever carries a ticket of another session than the one on display leaves
the board as it was, so the candles and the analysis on display were passed in with the ticket of
the latest switch. -/

namespace MarketSketch

namespace Board

def Event.ticket? : Event → Option Ticket
  | .history t _ | .update t _ | .analysis t _ => some t
  | _ => none

def Event.candles : Event → List Candle
  | .history _ cs => cs
  | .update _ c => [c]
  | _ => []

def Event.analyses (t : Ticket) : Event → Bool
  | .analysis u _ => u = t
  | _ => false

def Reply.ticket? : Reply → Option Ticket
  | .ticket t => t
  | _ => none

/-- A board in a run, with the ticket of the latest switch, if no teardown came after it, and all
tickets that were handed out. -/
structure Standing where
  board : Board
  session? : Option Ticket := none
  issued : List Ticket := []

structure Call where
  before : Standing
  moment : Moment
  event : Event
  turn : Turn Board Reply

namespace Call

/-- The ticket it carries, if any, was handed out before. -/
def Honest (k : Call) : Prop := ∀ t ∈ k.event.ticket?, t ∈ k.before.issued

instance (k : Call) : Decidable k.Honest :=
  inferInstanceAs (Decidable (∀ t ∈ k.event.ticket?, t ∈ k.before.issued))

def outdated (k : Call) : Bool := k.event.ticket?.any fun t => k.before.session? ≠ some t

end Call

section

variable {b : Board} {t : Ticket}

theorem applyHistory_of_outdated (h : b.isCurrent t = false) (cs : List Candle) :
    b.applyHistory t cs = ⟨b, false, [LiveFeed.note .debug "discarding stale history for " t]⟩ := by
  have hguard : b.guard.isCurrent t = false := h
  simp [applyHistory, LiveFeed.load, hguard, Turn.lift, touched]

theorem applyUpdate_of_outdated (h : b.isCurrent t = false) (c : Candle) :
    b.applyUpdate t c = ⟨b, none, [LiveFeed.note .debug "discarding stale update for " t]⟩ := by
  have hguard : b.guard.isCurrent t = false := h
  simp [applyUpdate, LiveFeed.update, hguard, Turn.lift, touched]

theorem applyAnalysis_of_outdated (h : b.isCurrent t = false) (m : Moment) (payload : Json.Value) :
    b.applyAnalysis m t payload = ⟨b, none, [.note ⟨.debug, .application, "ChartOverlay",
      "discarding stale annotations for " ++ t.symbol.name⟩]⟩ := by
  simp [applyAnalysis, h]

end

namespace Standing

def made (store : Store) (tolerance : Float) (limit : Nat) : Standing :=
  { board := ofStore store tolerance limit }

def next (s : Standing) (m : Moment) (e : Event) : Standing where
  board := (s.board.step m e).state
  session? := match e with
    | .switch _ => (s.board.step m e).reply.ticket?
    | .teardown => none
    | _ => s.session?
  issued := s.issued ++ (s.board.step m e).reply.ticket?.toList

def after (s : Standing) (es : List (Moment × Event)) : Standing :=
  es.foldl (fun s op => s.next op.1 op.2) s

def calls (s : Standing) : List (Moment × Event) → List Call
  | [] => []
  | (m, e) :: es => ⟨s, m, e, s.board.step m e⟩ :: (s.next m e).calls es

def withoutOutdated (s : Standing) (es : List (Moment × Event)) : List (Moment × Event) :=
  ((s.calls es).filter fun k => !k.outdated).map fun k => (k.moment, k.event)

/-- Tickets and generations agree: only the ticket of the session on display has the generation of
the guard. -/
structure Sound (s : Standing) : Prop where
  feed : s.board.feed.ticket? = s.session?
  issued : ∀ t ∈ s.issued, t.generation ≤ s.board.guard.generation
  unique : ∀ t ∈ s.issued, t.generation = s.board.guard.generation → s.session? = some t
  session : ∀ t, s.session? = some t → t ∈ s.issued ∧ t.generation = s.board.guard.generation

variable {s : Standing} {m : Moment} {e : Event}

theorem sound_made (store : Store) (tolerance : Float) (limit : Nat) :
    (made store tolerance limit).Sound :=
  ⟨rfl, by simp [made], by simp [made], by simp [made]⟩

theorem Sound.isCurrent_iff (h : s.Sound) {t : Ticket} (ht : t ∈ s.issued) :
    s.board.isCurrent t = true ↔ s.session? = some t := by
  simp only [isCurrent, Guard.isCurrent, decide_eq_true_eq]
  exact ⟨h.unique t ht, fun hs => (h.session t hs).2⟩

theorem Sound.currentTicket (h : s.Sound) : s.board.currentTicket? = s.session? := by
  unfold currentTicket? LiveFeed.current?
  rw [h.feed]
  cases hs : s.session? with
  | none => rfl
  | some t =>
    have hcurrent := (h.isCurrent_iff (h.session t hs).1).mpr hs
    exact Option.filter_some_pos hcurrent

theorem Sound.of_same (h : s.Sound) {b : Board} {new : List Ticket}
    (hguard : b.guard = s.board.guard) (hfeed : b.feed.ticket? = s.board.feed.ticket?)
    (hnew : ∀ t ∈ new, s.session? = some t) : Sound ⟨b, s.session?, s.issued ++ new⟩ := by
  have known {t : Ticket} (ht : t ∈ s.issued ++ new) : t ∈ s.issued := by
    rcases List.mem_append.mp ht with hold | hin
    · exact hold
    · exact (h.session t (hnew t hin)).1
  refine ⟨hfeed.trans h.feed, ?_, ?_, ?_⟩
  · intro t ht
    rw [hguard]
    exact h.issued t (known ht)
  · intro t ht hgen
    rw [hguard] at hgen
    exact h.unique t (known ht) hgen
  · intro t ht
    obtain ⟨hmem, hgen⟩ := h.session t ht
    exact ⟨List.mem_append_left new hmem, hguard ▸ hgen⟩

theorem Sound.switch (h : s.Sound) (m : Moment) (x : Symbol) : (s.next m (.switch x)).Sound := by
  let g := s.board.guard.generation
  have fresh : (s.next m (.switch x)).issued = s.issued ++ [⟨g + 1, x⟩] := rfl
  refine ⟨rfl, ?_, ?_, ?_⟩
  · intro t ht
    show t.generation ≤ g + 1
    rw [fresh] at ht
    rcases List.mem_append.mp ht with hold | hnew
    · exact Nat.le_succ_of_le (h.issued t hold)
    · obtain rfl := List.mem_singleton.mp hnew
      exact Nat.le_refl (g + 1)
  · intro t ht hgen
    have hgen : t.generation = g + 1 := hgen
    rw [fresh] at ht
    rcases List.mem_append.mp ht with hold | hnew
    · have := h.issued t hold
      omega
    · rw [List.mem_singleton.mp hnew]
      rfl
  · intro t ht
    cases ht
    exact ⟨by simp [fresh, g], rfl⟩

theorem Sound.teardown (h : s.Sound) (m : Moment) : (s.next m .teardown).Sound := by
  have same : (s.next m .teardown).issued = s.issued := List.append_nil s.issued
  have later : ∀ t ∈ s.issued, t.generation < s.board.guard.generation + 1 :=
    fun t ht => Nat.lt_succ_of_le (h.issued t ht)
  refine ⟨rfl, ?_, ?_, by simp [next]⟩
  · intro t ht
    exact Nat.le_of_lt (later t (same ▸ ht))
  · intro t ht hgen
    exact absurd hgen (Nat.ne_of_lt (later t (same ▸ ht)))

theorem applyHistory_keeps (b : Board) (t : Ticket) (cs : List Candle) :
    (b.applyHistory t cs).state.guard = b.guard ∧
      (b.applyHistory t cs).state.feed.ticket? = b.feed.ticket? := by
  refine ⟨rfl, ?_⟩
  show (b.feed.load b.guard t cs).state.ticket? = b.feed.ticket?
  unfold LiveFeed.load
  split <;> rfl

theorem applyUpdate_keeps (b : Board) (t : Ticket) (c : Candle) :
    (b.applyUpdate t c).state.guard = b.guard ∧
      (b.applyUpdate t c).state.feed.ticket? = b.feed.ticket? := by
  refine ⟨rfl, ?_⟩
  show (b.feed.update b.guard t c).state.ticket? = b.feed.ticket?
  unfold LiveFeed.update
  split <;> rfl

theorem Sound.next (h : s.Sound) (m : Moment) (e : Event) : (s.next m e).Sound := by
  have quiet {b : Board} (hguard : b.guard = s.board.guard)
      (hfeed : b.feed.ticket? = s.board.feed.ticket?) : Sound ⟨b, s.session?, s.issued ++ []⟩ :=
    h.of_same hguard hfeed (by simp)
  cases e with
  | switch x => exact h.switch m x
  | teardown => exact h.teardown m
  | beginSync =>
    have hnew : ∀ t ∈ s.board.currentTicket?.toList, s.session? = some t := by
      intro t ht
      rwa [Option.mem_toList, h.currentTicket] at ht
    exact h.of_same (b := s.board) rfl rfl hnew
  | history t cs =>
    obtain ⟨hguard, hfeed⟩ := applyHistory_keeps s.board t cs
    exact quiet hguard hfeed
  | update t c =>
    obtain ⟨hguard, hfeed⟩ := applyUpdate_keeps s.board t c
    exact quiet hguard hfeed
  | analysis t payload =>
    have hstate := applyAnalysis_state s.board m t payload
    refine quiet (b := (s.board.applyAnalysis m t payload).state) ?_ ?_ <;>
      rw [hstate] <;> split <;> rfl
  | _ => exact quiet rfl rfl

section Outdated

theorem step_of_not_current {t : Ticket} (hc : s.board.isCurrent t = false)
    (ht : e.ticket? = some t) :
    (s.board.step m e).state = s.board ∧ (s.board.step m e).reply.ticket? = none := by
  cases e with
  | history u cs =>
    cases ht
    exact ⟨congrArg Turn.state (applyHistory_of_outdated hc cs), rfl⟩
  | update u c =>
    cases ht
    exact ⟨congrArg Turn.state (applyUpdate_of_outdated hc c), rfl⟩
  | analysis u payload =>
    cases ht
    exact ⟨congrArg Turn.state (applyAnalysis_of_outdated hc m payload), rfl⟩
  | _ => simp [Event.ticket?] at ht

theorem Sound.next_of_outdated (h : s.Sound) {r : Turn Board Reply}
    (honest : (Call.mk s m e r).Honest) (ho : (Call.mk s m e r).outdated = true) :
    s.next m e = s := by
  obtain ⟨t, ht, hs⟩ := (Option.any_eq_true _ _).mp ho
  have ht : e.ticket? = some t := ht
  have hs : s.session? ≠ some t := by simpa using hs
  have hc : s.board.isCurrent t = false := by
    rw [Bool.eq_false_iff]
    exact mt (h.isCurrent_iff (honest t ht)).mp hs
  obtain ⟨hstate, hreply⟩ := step_of_not_current (m := m) hc ht
  have hsession : (s.next m e).session? = s.session? := by
    cases e with
    | history | update | analysis => rfl
    | _ => simp [Event.ticket?] at ht
  have hissued : (s.next m e).issued = s.issued := by simp [Standing.next, hreply]
  calc s.next m e
      = ⟨(s.board.step m e).state, (s.next m e).session?, (s.next m e).issued⟩ := rfl
    _ = ⟨s.board, s.session?, s.issued⟩ := by rw [hstate, hsession, hissued]

theorem Sound.calls_withoutOutdated (h : s.Sound) {es : List (Moment × Event)}
    (honest : ∀ k ∈ s.calls es, k.Honest) :
    s.calls (s.withoutOutdated es) = (s.calls es).filter (fun k => !k.outdated) ∧
      s.after (s.withoutOutdated es) = s.after es := by
  induction es generalizing s with
  | nil => exact ⟨rfl, rfl⟩
  | cons op es ih =>
    obtain ⟨m, e⟩ := op
    let k : Call := ⟨s, m, e, s.board.step m e⟩
    have hk : k.Honest := honest k List.mem_cons_self
    obtain ⟨hcalls, hafter⟩ := ih (h.next m e) fun k hmem => honest k (List.mem_cons_of_mem _ hmem)
    have hlist : s.calls ((m, e) :: es) = k :: (s.next m e).calls es := rfl
    cases ho : k.outdated with
    | true =>
      -- the call changed nothing, so the rest runs from where it started
      have hsame : s.next m e = s := h.next_of_outdated hk ho
      have hrest : s.withoutOutdated ((m, e) :: es) = s.withoutOutdated es := by
        simp [withoutOutdated, hlist, ho, hsame]
      rw [hsame] at hcalls hafter
      rw [hrest, hcalls, hafter, hlist, hsame]
      refine ⟨by simp [ho], ?_⟩
      show _ = (s.next m e).after es
      rw [hsame]
    | false =>
      have hrest : s.withoutOutdated ((m, e) :: es) =
          (m, e) :: (s.next m e).withoutOutdated es := by
        simp [withoutOutdated, hlist, ho, k]
      rw [hrest, hlist]
      refine ⟨?_, hafter⟩
      show k :: (s.next m e).calls ((s.next m e).withoutOutdated es) = _
      rw [hcalls]
      simp [ho]

end Outdated

section Fed

def lastAnalysis? (t : Ticket) (ks : List Call) : Option Call :=
  (ks.filter (·.event.analyses t)).getLast?

theorem lastAnalysis?_of_analyses {t : Ticket} {ks : List Call} {k : Call}
    (h : k.event.analyses t = true) : lastAnalysis? t (ks ++ [k]) = some k := by
  simp [lastAnalysis?, h]

theorem lastAnalysis?_of_not_analyses {t : Ticket} {ks : List Call} {k : Call}
    (h : k.event.analyses t = false) : lastAnalysis? t (ks ++ [k]) = lastAnalysis? t ks := by
  simp [lastAnalysis?, h]

/-- What is on display comes from the calls made so far with the ticket of the session: every
candle was passed in with it, and the analysis is the one passed in last, adapted where it was. -/
structure Fed (ks : List Call) (s : Standing) : Prop where
  candles : ∀ x ∈ s.board.candles, ∃ t, s.session? = some t ∧
    ∃ k ∈ ks, k.event.ticket? = some t ∧ x ∈ k.event.candles
  analysis : s.board.engine = [] ∨ ∃ t k payload, s.session? = some t ∧
    lastAnalysis? t ks = some k ∧ k.event = .analysis t payload ∧
    s.board.engine = (Analysis.adapt (k.before.board.analysisWindow k.moment) payload).shapes

variable {ks : List Call}

theorem fed_of_empty {s : Standing} (hc : s.board.candles = []) (he : s.board.engine = []) :
    Fed ks s :=
  ⟨by simp [hc], .inl he⟩

theorem fed_made (store : Store) (tolerance : Float) (limit : Nat) :
    Fed [] (made store tolerance limit) := fed_of_empty rfl rfl

theorem Fed.candles_next (h : Fed ks s) {k : Call} {cs : List Candle}
    (hcs : ∀ x ∈ cs, x ∈ s.board.candles ∨
      ∃ t, s.session? = some t ∧ k.event.ticket? = some t ∧ x ∈ k.event.candles) :
    ∀ x ∈ cs, ∃ t, s.session? = some t ∧
      ∃ k' ∈ ks ++ [k], k'.event.ticket? = some t ∧ x ∈ k'.event.candles := by
  intro x hx
  rcases hcs x hx with hold | ⟨t, hs, ht, hmem⟩
  · obtain ⟨t, hs, k', hk', ht, hmem⟩ := h.candles x hold
    exact ⟨t, hs, k', List.mem_append_left [k] hk', ht, hmem⟩
  · exact ⟨t, hs, k, by simp, ht, hmem⟩

theorem Fed.analysis_next (h : Fed ks s) {k : Call}
    (hk : ∀ t, s.session? = some t → k.event.analyses t = false) :
    s.board.engine = [] ∨ ∃ t k' payload, s.session? = some t ∧
      lastAnalysis? t (ks ++ [k]) = some k' ∧ k'.event = .analysis t payload ∧
      s.board.engine =
        (Analysis.adapt (k'.before.board.analysisWindow k'.moment) payload).shapes := by
  rcases h.analysis with hempty | ⟨t, k', payload, hs, hlast, hevent, hengine⟩
  · exact .inl hempty
  · refine .inr ⟨t, k', payload, hs, ?_, hevent, hengine⟩
    rw [lastAnalysis?_of_not_analyses (hk t hs), hlast]

theorem Fed.next (hs : s.Sound) (h : Fed ks s) {r : Turn Board Reply}
    (honest : (Call.mk s m e r).Honest) : Fed (ks ++ [⟨s, m, e, r⟩]) (s.next m e) := by
  let k : Call := ⟨s, m, e, r⟩
  have known {t : Ticket} (ht : e.ticket? = some t) :
      s.board.isCurrent t = true ↔ s.session? = some t := hs.isCurrent_iff (honest t ht)
  have keeps (hk : ∀ t, e.analyses t = false) := h.analysis_next (k := k) fun t _ => hk t
  have untouched := h.candles_next (k := k) fun x (hx : x ∈ s.board.candles) => .inl hx
  cases e with
  | switch x => exact fed_of_empty rfl rfl
  | teardown => exact fed_of_empty rfl rfl
  | resetEngine => exact ⟨untouched, .inl rfl⟩
  | history t cs =>
    refine ⟨h.candles_next (k := k) ?_, keeps fun _ => rfl⟩
    intro x hx
    have hx : x ∈ (s.board.feed.load s.board.guard t cs).state.candles := hx
    unfold LiveFeed.load at hx
    split at hx
    · rename_i hc
      exact .inr ⟨t, (known rfl).mp hc, rfl, CandleBuffer.mem_of_mem_load hx⟩
    · exact .inl hx
  | update t c =>
    refine ⟨h.candles_next (k := k) ?_, keeps fun _ => rfl⟩
    intro x hx
    have hx : x ∈ (s.board.feed.update s.board.guard t c).state.candles := hx
    unfold LiveFeed.update at hx
    split at hx
    · rename_i hc
      rcases CandleBuffer.mem_of_mem_update hx with hold | rfl
      · exact .inl hold
      · exact .inr ⟨t, (known rfl).mp hc, rfl, List.mem_singleton_self x⟩
    · exact .inl hx
  | analysis t payload =>
    have hstate := applyAnalysis_state s.board m t payload
    cases hc : s.board.isCurrent t with
    | true =>
      rw [hc, if_pos rfl] at hstate
      have hboard : (s.next m (.analysis t payload)).board = _ := hstate
      refine ⟨by rw [hboard]; exact untouched, .inr ⟨t, k, payload, (known rfl).mp hc, ?_, rfl, ?_⟩⟩
      · exact lastAnalysis?_of_analyses (by simp [Event.analyses])
      · rw [hboard]
    | false =>
      rw [hc, if_neg (by simp)] at hstate
      have hboard : (s.next m (.analysis t payload)).board = s.board := hstate
      refine ⟨by rw [hboard]; exact untouched, ?_⟩
      rw [hboard]
      refine h.analysis_next (k := k) fun u hu => ?_
      have hne : s.session? ≠ some t := mt (known rfl).mpr (by simp [hc])
      simp only [k, Event.analyses, decide_eq_false_iff_not]
      rintro rfl
      exact hne hu
  | _ => exact ⟨untouched, keeps fun _ => rfl⟩

theorem Fed.after (hs : s.Sound) (h : Fed ks s) {es : List (Moment × Event)}
    (honest : ∀ k ∈ s.calls es, k.Honest) : Fed (ks ++ s.calls es) (s.after es) := by
  induction es generalizing s ks with
  | nil =>
    rw [calls, List.append_nil]
    exact h
  | cons op es ih =>
    obtain ⟨m, e⟩ := op
    have hnext := h.next hs (honest ⟨s, m, e, s.board.step m e⟩ List.mem_cons_self)
    have hrest := ih (hs.next m e) hnext fun k hk => honest k (List.mem_cons_of_mem _ hk)
    rwa [List.append_assoc] at hrest

theorem Fed.empty_of_none (h : Fed ks s) (hn : s.session? = none) :
    s.board.candles = [] ∧ s.board.engine = [] := by
  constructor
  · rw [List.eq_nil_iff_forall_not_mem]
    intro x hx
    obtain ⟨t, ht, _⟩ := h.candles x hx
    simp [hn] at ht
  · rcases h.analysis with hempty | ⟨t, _, _, ht, _⟩
    · exact hempty
    · simp [hn] at ht

end Fed

end Standing

/-- In a run of a board on any store, whose tickets were all handed out before they are passed in,
the display is fed by the latest session alone and empty after a teardown, and the outdated calls
could as well not be made: the other calls find the same boards and do the same, and the run ends
the same. -/
theorem only_latest_session_on_display (store : Store) (tolerance : Float) (limit : Nat)
    (es : List (Moment × Event))
    (honest : ∀ k ∈ (Standing.made store tolerance limit).calls es, k.Honest) :
    let start := Standing.made store tolerance limit
    let final := start.after es
    Standing.Fed (start.calls es) final ∧
      (final.session? = none → final.board.candles = [] ∧ final.board.engine = []) ∧
      start.calls (start.withoutOutdated es) = (start.calls es).filter (fun k => !k.outdated) ∧
      start.after (start.withoutOutdated es) = final := by
  intro start final
  have hs : start.Sound := Standing.sound_made store tolerance limit
  have hfed : Standing.Fed (start.calls es) final :=
    (Standing.fed_made store tolerance limit).after hs honest
  exact ⟨hfed, hfed.empty_of_none, hs.calls_withoutOutdated honest⟩

def crossedAnswers : List (Moment × Event) :=
  let one := Double.ofNat 1
  let bar (time : Int) : Candle := ⟨time, one, one, one, one⟩
  let levels := Json.Value.object [("levels", .array [.object [("price", .real one)]])]
  let first : Ticket := ⟨1, ⟨"EURUSD"⟩⟩
  let second : Ticket := ⟨2, ⟨"GBPUSD"⟩⟩
  [.switch first.symbol, .switch second.symbol, .history first [bar 1, bar 2],
    .history second [bar 5], .update first (bar 6), .update second (bar 7),
    .analysis first levels, .analysis second levels, .beginSync].map fun e => (⟨0, "id"⟩, e)

theorem only_latest_session_on_display_of_crossedAnswers :
    let start := Standing.made {} (Double.ofNat 6) 500
    (∀ k ∈ start.calls crossedAnswers, k.Honest) ∧
      (start.after crossedAnswers).board.candles.map (·.time) = [5, 7] ∧
      (start.withoutOutdated crossedAnswers).length = 6 ∧
      start.after (start.withoutOutdated crossedAnswers) = start.after crossedAnswers := by
  intro start
  have honest : ∀ k ∈ start.calls crossedAnswers, k.Honest := by decide +kernel
  refine ⟨honest, by decide +kernel, by decide +kernel, ?_⟩
  exact (only_latest_session_on_display {} (Double.ofNat 6) 500 crossedAnswers honest).2.2.2

end Board

end MarketSketch
