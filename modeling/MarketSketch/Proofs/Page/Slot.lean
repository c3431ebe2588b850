import MarketSketch.Proofs.Page.Run

/-! The stream slot in a run where sessions begin with loads and end with teardowns. At most one
stream is alive; it is in the slot, and it is of the session on display. -/

namespace MarketSketch

namespace StreamSlot

theorem release_reply (slot : StreamSlot) : slot.release.reply = slot.active.map (·.2) := by
  unfold release
  split <;> simp [*]

theorem release_active (slot : StreamSlot) : slot.release.state.active = none := by
  unfold release
  split
  · rfl
  · assumption

end StreamSlot

def Task.begins? : Task → Option Symbol
  | .load _ s => some s
  | .enter _ text => (Symbol.entered text).toOption
  | _ => none

namespace Page

variable {p q : Page} {t : Ticket} {loaded ts : List Ticket} {i : Nat}

/-- The stream with that number is of that session and was not aborted. -/
def Alive (p : Page) (i : Nat) (t : Ticket) : Prop := p.handles[i]? = some (t, false)

/-- Whatever stream is alive is in the slot, and what the slot holds is alive and of the session on
display, whose history was taken. -/
structure OneAlive (p : Page) (loaded : List Ticket) : Prop where
  live : ∀ i t, p.Alive i t → p.slot.active = some (t.symbol, i)
  held : ∀ x i, p.slot.active = some (x, i) →
    ∃ t ∈ loaded, p.Alive i t ∧ t.symbol = x ∧ p.board.currentTicket? = some t
  earlier : ∀ t ∈ loaded, t.generation ≤ p.board.guard.generation

theorem Alive.lt_length (h : p.Alive i t) : i < p.streams.length := by
  have hlt := (List.getElem?_eq_some_iff.mp h).1
  rwa [handles, List.length_map] at hlt

theorem alive_opening {u : Ticket} :
    (p.opening t).Alive i u ↔ p.Alive i u ∨ i = p.streams.length ∧ u = t := by
  have hlength : p.handles.length = p.streams.length := by simp [handles]
  by_cases hi : i < p.streams.length
  · have hold : (p.opening t).Alive i u ↔ p.Alive i u := by
      unfold Alive
      rw [handles_opening, List.getElem?_append_left (hlength ▸ hi)]
    simp [hold, Nat.ne_of_lt hi]
  · have hnone : ¬ p.Alive i u := fun h => hi h.lt_length
    have hnew : (p.opening t).Alive i u ↔ i = p.streams.length ∧ u = t := by
      unfold Alive
      rw [handles_opening, List.getElem?_append_right (by omega), List.getElem?_singleton, hlength]
      by_cases heq : i = p.streams.length
      · simp [heq, eq_comm]
      · have : i - p.streams.length ≠ 0 := by omega
        simp [this, heq]
    simp [hnew, hnone]

theorem alive_abort {stream : Option Nat} :
    (p.abort stream).Alive i t ↔ p.Alive i t ∧ stream ≠ some i := by
  unfold Alive
  cases stream with
  | none => simp [abort]
  | some id =>
    rw [handles_abort, List.getElem?_modify]
    by_cases hid : id = i
    · simp [hid]
    · simp [hid]

theorem abort_slot (p : Page) (stream : Option Nat) : (p.abort stream).slot = p.slot := by
  cases stream <;> rfl

theorem releaseStream_slot (p : Page) : p.releaseStream.slot = p.slot.release.state :=
  abort_slot { p with slot := p.slot.release.state } p.slot.release.reply

theorem alive_releaseStream :
    p.releaseStream.Alive i t ↔ p.Alive i t ∧ p.slot.active.map (·.2) ≠ some i := by
  rw [← StreamSlot.release_reply]
  exact alive_abort (p := { p with slot := p.slot.release.state })

theorem not_alive_releaseStream (hlive : ∀ i t, p.Alive i t → p.slot.active = some (t.symbol, i)) :
    ¬ p.releaseStream.Alive i t := by
  intro h
  obtain ⟨halive, hother⟩ := alive_releaseStream.mp h
  simp [hlive i t halive] at hother

theorem startStream_slot (p : Page) (t : Ticket) :
    (p.startStream t).slot = ⟨some (t.symbol, p.streams.length)⟩ :=
  abort_slot { p.opening t with slot := (p.slot.attach t.symbol p.streams.length).state }
    (p.slot.attach t.symbol p.streams.length).reply

theorem alive_startStream {u : Ticket} :
    (p.startStream t).Alive i u ↔
      (p.opening t).Alive i u ∧ p.slot.active.map (·.2) ≠ some i := by
  rw [← StreamSlot.release_reply]
  exact alive_abort
    (p := { p.opening t with slot := (p.slot.attach t.symbol p.streams.length).state })

namespace OneAlive

theorem of_silent (hslot : p.slot.active = none) (hsilent : ∀ i t, ¬ p.Alive i t)
    (hearlier : ∀ t ∈ loaded, t.generation ≤ p.board.guard.generation) : OneAlive p loaded :=
  ⟨fun i t h => absurd h (hsilent i t), by simp [hslot], hearlier⟩

theorem undisturbed (h : OneAlive p loaded) (hq : Undisturbed p q) : OneAlive q loaded := by
  have halive {i : Nat} {t : Ticket} : q.Alive i t ↔ p.Alive i t := by
    unfold Alive
    rw [hq.handles]
  refine ⟨fun i t ht => ?_, fun x i hx => ?_, fun t ht => ?_⟩
  · rw [hq.slot]
    exact h.live i t (halive.mp ht)
  · rw [hq.slot] at hx
    obtain ⟨t, ht, hi, hsymbol, hcurrent⟩ := h.held x i hx
    exact ⟨t, ht, halive.mpr hi, hsymbol, by rw [hq.currentTicket, hcurrent]⟩
  · rw [hq.guard]
    exact h.earlier t ht

theorem teardown (h : OneAlive p loaded) : OneAlive p.teardown loaded := by
  have hreleased : OneAlive
      { p.releaseStream with
        board := p.releaseStream.board.teardown.state } loaded := by
    refine .of_silent ?_ (fun i t => not_alive_releaseStream h.live) fun t ht => ?_
    · show p.releaseStream.slot.active = none
      rw [releaseStream_slot, StreamSlot.release_active]
    · have hgen := congrArg Guard.generation (sameSession_releaseStream p).guard
      show t.generation ≤ p.releaseStream.board.guard.generation + 1
      exact hgen ▸ Nat.le_succ_of_le (h.earlier t ht)
  exact hreleased.undisturbed (undisturbed_teardown p)

theorem beginLoad (h : OneAlive p loaded) (c : Client) (s : Symbol) :
    OneAlive (p.beginLoad c s) loaded := by
  let switched : Page := { p with board := (p.board.switchSymbol s).1 }
  have hreleased : OneAlive switched.releaseStream loaded := by
    refine .of_silent ?_ (fun i t => not_alive_releaseStream h.live) fun t ht => ?_
    · rw [releaseStream_slot, StreamSlot.release_active]
    · rw [(sameSession_releaseStream _).guard]
      exact Nat.le_succ_of_le (h.earlier t ht)
  exact hreleased.undisturbed (undisturbed_beginLoad p c s)

theorem startStream (h : OneAlive p loaded) (hcurrent : p.board.isCurrent t = true)
    (hknown : p.Knows t) : OneAlive (p.startStream t) (loaded ++ [t]) := by
  have hsame := sameSession_startStream hknown
  refine ⟨fun i u hu => ?_, fun x i hx => ?_, fun u hu => ?_⟩
  -- a stream from before that is alive was in the slot, and that one is aborted
  · obtain ⟨halive, hother⟩ := alive_startStream.mp hu
    rcases alive_opening.mp halive with hold | ⟨rfl, rfl⟩
    · simp [h.live i u hold] at hother
    · rw [startStream_slot]
  · rw [startStream_slot] at hx
    obtain ⟨rfl, rfl⟩ := Prod.mk.inj (Option.some.inj hx)
    refine ⟨t, by simp, alive_startStream.mpr ⟨alive_opening.mpr (.inr ⟨rfl, rfl⟩), ?_⟩, rfl, ?_⟩
    -- what was in the slot is an earlier stream, so the new one is not the one that is aborted
    · intro hslot
      obtain ⟨⟨x, n⟩, hx, rfl⟩ := Option.map_eq_some_iff.mp hslot
      obtain ⟨_, _, halive, _⟩ := h.held x _ hx
      exact Nat.lt_irrefl _ halive.lt_length
    · rw [hsame.currentTicket, ← hknown.current_iff]
      exact hcurrent
  · rw [hsame.guard]
    rcases List.mem_append.mp hu with hold | hnew
    · exact h.earlier u hold
    · exact List.mem_singleton.mp hnew ▸ hknown.1

theorem shifts (h : OneAlive p loaded) (hq : Shifts p ts q) : OneAlive q (loaded ++ ts) := by
  induction hq generalizing loaded with
  | calm hq => exact (List.append_nil loaded).symm ▸ h.undisturbed hq
  | torn p => exact (List.append_nil loaded).symm ▸ h.teardown
  | begun p c s => exact (List.append_nil loaded).symm ▸ h.beginLoad c s
  | started hcurrent hknown => exact h.startStream hcurrent hknown
  | trans _ _ ih ih' => exact (List.append_assoc loaded _ _) ▸ ih' (ih h)

theorem after (h : OneAlive p loaded) (hp : p.KnowsAll) {hs : List Happening}
    (hkeeps : ∀ x ∈ hs, x.keepsSession = true) : OneAlive (p.after hs) (loaded ++ p.loaded hs) := by
  induction hs generalizing p loaded with
  | nil => exact (List.append_nil loaded).symm ▸ h
  | cons x hs ih =>
    have hx : OneAlive (p.happen x) (loaded ++ (p.taken? x).toList) :=
      h.shifts (shifts_happen hp (hkeeps x List.mem_cons_self))
    have hrest := ih hx (hp.happen x) fun y hy => hkeeps y (List.mem_cons_of_mem x hy)
    rwa [List.append_assoc] at hrest

end OneAlive

/-- Among all streams ever started at most the one in the slot was not aborted. It is of the session
on display, has its symbol, and was started after the history of that session was taken. -/
structure SlotFits (p : Page) (loaded : List Ticket) : Prop where
  alive_iff : ∀ i s, p.streams[i]? = some s →
    (s.aborted = false ↔ ∃ x, p.slot.active = some (x, i))
  displayed : ∀ x i, p.slot.active = some (x, i) → ∃ s, p.streams[i]? = some s ∧
    p.board.currentTicket? = some s.ticket ∧ p.board.symbol? = some x ∧ s.ticket ∈ loaded
  empty_without_session : p.board.currentTicket? = none → p.slot.active = none
  empty_before_history : ∀ t, p.board.currentTicket? = some t → t ∉ loaded → p.slot.active = none

theorem alive_iff_stream : p.Alive i t ↔ ∃ s, p.streams[i]? = some s ∧ s.ticket = t ∧
    s.aborted = false := by
  simp [Alive, handles]

theorem OneAlive.slotFits (h : OneAlive p loaded) : p.SlotFits loaded := by
  have hempty (hnot : ∀ t ∈ loaded, p.board.currentTicket? ≠ some t) : p.slot.active = none := by
    refine Option.eq_none_iff_forall_ne_some.mpr fun ⟨x, i⟩ hx => ?_
    obtain ⟨t, ht, _, _, hcurrent⟩ := h.held x i hx
    exact hnot t ht hcurrent
  refine ⟨fun i s hs => ⟨fun halive => ?_, ?_⟩, fun x i hx => ?_, fun hnone => ?_,
    fun t ht hnew => ?_⟩
  · exact ⟨_, h.live i s.ticket (alive_iff_stream.mpr ⟨s, hs, rfl, halive⟩)⟩
  · rintro ⟨x, hx⟩
    obtain ⟨t, _, halive, _⟩ := h.held x i hx
    obtain ⟨u, hu, _, hu'⟩ := alive_iff_stream.mp halive
    rw [hs] at hu
    rwa [Option.some.inj hu]
  · obtain ⟨t, ht, halive, hsymbol, hcurrent⟩ := h.held x i hx
    obtain ⟨s, hs, rfl, _⟩ := alive_iff_stream.mp halive
    refine ⟨s, hs, hcurrent, ?_, ht⟩
    rw [← hsymbol]
    exact congrArg (Option.map (·.symbol)) hcurrent
  · exact hempty fun t _ => by simp [hnone]
  · refine hempty fun u hu hcurrent => hnew ?_
    rw [ht] at hcurrent
    exact Option.some.inj hcurrent ▸ hu

section Boundaries

theorem teardown_active (p : Page) : p.teardown.slot.active = none := by
  rw [(undisturbed_teardown p).slot]
  show p.releaseStream.slot.active = none
  rw [releaseStream_slot, StreamSlot.release_active]

theorem teardown_currentTicket (p : Page) : p.teardown.board.currentTicket? = none :=
  (undisturbed_teardown p).currentTicket

theorem beginLoad_active (p : Page) (c : Client) (s : Symbol) :
    (p.beginLoad c s).slot.active = none := by
  rw [(undisturbed_beginLoad p c s).slot, releaseStream_slot, StreamSlot.release_active]

theorem beginLoad_currentTicket (p : Page) (c : Client) (s : Symbol) :
    (p.beginLoad c s).board.currentTicket? = some ⟨p.board.guard.generation + 1, s⟩ := by
  rw [(undisturbed_beginLoad p c s).currentTicket, (sameSession_releaseStream _).currentTicket]
  exact Board.currentTicket_switchSymbol p.board s

theorem run_of_begins {k : Task} {s : Symbol} (h : k.begins? = some s) :
    ∃ c, p.run k = p.beginLoad c s := by
  cases k with
  | load c u =>
    obtain rfl := Option.some.inj h
    exact ⟨c, rfl⟩
  | enter place text =>
    refine ⟨.caller place, ?_⟩
    simp only [Task.begins?] at h
    simp only [run, enter]
    cases hentered : Symbol.entered text with
    | error reason => simp [hentered, Except.toOption] at h
    | ok u =>
      simp only [hentered, Except.toOption, Option.some.injEq] at h
      rw [h]
  | _ => cases h

theorem takes_of_begins {k : Task} {s : Symbol} (h : k.begins? = some s) : p.takes? k = none := by
  cases k with
  | history => cases h
  | _ => rfl

theorem takes_eq_some {k : Task} (h : p.takes? k = some t) : ∃ c request a cs,
    k = .history c t request ∧ p.answer? request = some a ∧ candlesOf a = .ok cs ∧
      p.board.isCurrent t = true := by
  cases k with
  | history c u request =>
    simp only [takes?] at h
    cases ha : p.answer? request with
    | none => simp [ha] at h
    | some a =>
      cases hcandles : candlesOf a with
      | error f => simp [ha, hcandles] at h
      | ok cs =>
        simp only [ha, Option.map_some, hcandles, Board.applyHistory_reply,
          Option.ite_none_right_eq_some, Option.some.injEq] at h
        obtain ⟨hcurrent, rfl⟩ := h
        exact ⟨c, request, a, cs, rfl, ha, hcandles, hcurrent⟩
  | _ => cases h

theorem redraw_streams (p : Page) : p.redraw.streams = p.streams := by
  obtain ⟨_, _, _, _, hdrawn⟩ := repainted_redraw p
  rw [hdrawn]

theorem finishLoad_active {c : Client} {a : Answer} {cs : List Candle} (h : candlesOf a = .ok cs)
    (hcurrent : p.board.isCurrent t = true) :
    (p.finishLoad c t a).slot.active = some (t.symbol, p.streams.length) := by
  rw [finishLoad_of_ok h]
  simp only [hcurrent, if_true]
  rw [(aside_settleLoad _ c _).slot]
  show (Page.startStream _ t).slot.active = _
  rw [startStream_slot, redraw_streams]
  rfl

theorem taken_active {n : Nat} (h : p.taken? (.turn n) = some t) :
    (p.happen (.turn n)).slot.active = some (t.symbol, p.streams.length) := by
  obtain ⟨k, hk, htakes⟩ := Option.bind_eq_some_iff.mp h
  obtain ⟨c, request, a, cs, rfl, ha, hcandles, hcurrent⟩ := takes_eq_some htakes
  have hanswer : answer? { p with ready := p.ready.eraseIdx n } request = some a := ha
  simp only [happen, hk, run, hanswer]
  exact finishLoad_active (p := { p with ready := p.ready.eraseIdx n }) hcandles hcurrent

theorem loaded_append (p : Page) (hs hs' : List Happening) :
    p.loaded (hs ++ hs') = p.loaded hs ++ (p.after hs).loaded hs' := by
  induction hs generalizing p with
  | nil => rfl
  | cons x hs ih => simp [Page.loaded, ih]

end Boundaries

/-- Sessions begin with loads and end with teardowns of the page. Then the slot fits between any two
steps; it is empty after a teardown, and after a load began until its history is taken, which fills
it with a new stream. -/
theorem slot_holds_stream_of_display (h : Host) (c : Config) (storage : Storage) (desk : Desk)
    (session : Vault) (hs : List Happening) (hkeeps : ∀ x ∈ hs, x.keepsSession = true) :
    let start := Page.opened h c storage desk session
    let p := start.after hs
    p.SlotFits (start.loaded hs) ∧
      (p.teardown.slot.active = none ∧ p.teardown.board.currentTicket? = none) ∧
      (∀ n k s, p.ready[n]? = some k → k.begins? = some s →
        let q := p.happen (.turn n)
        q.slot.active = none ∧ ∃ t, q.board.currentTicket? = some t ∧ t.symbol = s ∧
          t ∉ start.loaded (hs ++ [.turn n])) ∧
      ∀ n t, p.taken? (.turn n) = some t →
        (p.happen (.turn n)).slot.active = some (t.symbol, p.streams.length) := by
  intro start p
  have hknown : start.KnowsAll := knowsAll_opened h c storage desk session
  have hstart : OneAlive start [] := by
    refine .of_silent rfl (fun i t halive => ?_) (by simp)
    exact Nat.not_lt_zero i halive.lt_length
  have halive : OneAlive p (start.loaded hs) := hstart.after hknown hkeeps
  refine ⟨halive.slotFits, ⟨teardown_active p, teardown_currentTicket p⟩,
    fun n k s hk hbegins => ?_, fun n t => taken_active⟩
  have hturn : ∃ c, p.happen (.turn n) = { p with ready := p.ready.eraseIdx n }.beginLoad c s := by
    simp only [happen, hk]
    exact run_of_begins hbegins
  obtain ⟨c, hturn⟩ := hturn
  simp only [hturn]
  refine ⟨beginLoad_active _ c s, _, beginLoad_currentTicket _ c s, rfl, fun hloaded => ?_⟩
  have htaken : (p.taken? (.turn n)) = none := by simp [taken?, hk, takes_of_begins hbegins]
  have hbefore : (⟨p.board.guard.generation + 1, s⟩ : Ticket) ∈ start.loaded hs := by
    rw [loaded_append] at hloaded
    simpa [Page.loaded, p, htaken] using hloaded
  exact Nat.not_succ_le_self _ (halive.earlier _ hbefore)

def crossedLoads : List Happening :=
  let empty := Answer.response 200 "OK" "[]"
  [.load ⟨"EURUSD"⟩, .turn 0, .load ⟨"GBPUSD"⟩, .turn 0, .respond 1 empty, .turn 0,
    .respond 0 empty, .turn 0, .turn 0, .load ⟨"EURUSD"⟩, .turn 0, .respond 2 empty, .turn 1]

theorem slot_holds_stream_of_display_of_crossedLoads :
    let start := Page.opened {} {} .memory { clock := 0 } {}
    let p := start.after crossedLoads
    (∀ x ∈ crossedLoads, x.keepsSession = true) ∧
      p.handles = [(⟨2, ⟨"GBPUSD"⟩⟩, true), (⟨3, ⟨"EURUSD"⟩⟩, false)] ∧
      p.slot.active = some (⟨"EURUSD"⟩, 1) ∧
      p.SlotFits (start.loaded crossedLoads) := by
  have hkeeps : ∀ x ∈ crossedLoads, x.keepsSession = true := by decide
  refine ⟨hkeeps, by decide +kernel, by decide +kernel, ?_⟩
  exact (slot_holds_stream_of_display {} {} .memory { clock := 0 } {} crossedLoads hkeeps).1

end Page

end MarketSketch
