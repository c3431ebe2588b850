import MarketSketch.Proofs.Page.Outdated
import MarketSketch.Proofs.Page.Syncs

/-! What is left of earlier loads after a teardown. A load has a session only when its task first
gets its turn. One that had it is outdated by the teardown, whenever its answer comes; one that had
not begins a session after it. -/

namespace MarketSketch

namespace Task

/-- The task begins no session, and none comes of it. -/
def Harmless (k : Task) : Prop := k.begins? = none ∧ ∀ e, k ≠ .effect e

theorem harmless_of_waits {k : Task} (h : k.waits = true) : k.Harmless := by
  cases k <;> first | exact ⟨rfl, fun _ => Task.noConfusion⟩ | cases h

theorem Harmless.leads {j k : Task} (h : j.Harmless) (hk : j.Leads k) : k.Harmless := by
  cases j with
  | effect e => exact absurd rfl (h.2 e)
  | analysis | stream => exact hk.elim
  | enter | load | sync =>
    obtain ⟨t, n, rfl⟩ := hk
    exact harmless_of_waits rfl
  | history c t n =>
    cases c with
    | panel =>
      obtain ⟨u, m, rfl⟩ := hk
      exact harmless_of_waits rfl
    | _ => exact hk.elim

end Task

namespace Page

variable {p q : Page} {t : Ticket}

/-- A call of the overlay's host, a turn of a task, or an event of the world; no panel is there, and
the listeners load and sync nothing. -/
def Happening.ofApi : Happening → Bool
  | .call c => c.calm
  | .operate e => e.byHost
  | .load _ | .attach _ | .redraw | .mount _ _ _ | .viewport _ | .tool _ | .symbol _ | .press _ _
  | .key _ | .unmount | .tick => false
  | _ => true

def Happening.loads : Happening → Bool
  | .call (.load _) => true
  | _ => false

theorem Happening.calm_of_ofApi {x : Happening} (hx : x.ofApi = true) : x.calm = true := by
  cases x with
  | call c => exact hx
  | _ => rfl

/-- No symbol is displayed, and nothing of one is left. -/
structure Idle (p : Page) : Prop where
  session : p.board.currentTicket? = none
  slot : p.slot.active = none
  candles : p.board.candles = []
  engine : p.board.engine = []
  status : p.status = "Idle"

namespace Idle

theorem of_board (h : p.Idle) (hguard : q.board.guard = p.board.guard)
    (hfeed : q.board.feed = p.board.feed) (hengine : q.board.engine = p.board.engine)
    (hslot : q.slot = p.slot) (hstatus : q.status = p.status) : q.Idle := by
  refine ⟨?_, hslot ▸ h.slot, ?_, hengine ▸ h.engine, hstatus ▸ h.status⟩
  · rw [Board.currentTicket?, hguard, hfeed]
    exact h.session
  · rw [Board.candles, hfeed]
    exact h.candles

theorem unnoticed (h : p.Idle) (hq : Unnoticed p q) : q.Idle := by
  have hboard := hq.board
  exact h.of_board (by rw [hboard]) (by rw [hboard]) (by rw [hboard]) hq.slot hq.status

theorem aside (h : p.Idle) (hq : Aside p q) : q.Idle := h.unnoticed hq.unnoticed

theorem repainted (h : p.Idle) (hq : Repainted p q) : q.Idle := by
  obtain ⟨flag, notes, screen, canvases, rfl⟩ := hq
  exact h.of_board rfl rfl rfl rfl rfl

theorem operate (h : p.Idle) {e : Board.Event} (he : e.byHost = true) : (p.operate e).1.Idle := by
  obtain ⟨hguard, hfeed, hengine⟩ := Board.step_of_byHost he p.board p.moment
  have hstep : (p.step (p.board.step p.moment e)).1.Idle := h.of_board hguard hfeed hengine rfl rfl
  exact hstep.repainted (repainted_redraw _)

end Idle

theorem repainted_teardown (p : Page) : ∃ q, Repainted
        (p.releaseStream.step p.releaseStream.board.teardown).1 q ∧
      p.teardown = { q with status := "Idle" } :=
  ⟨_, repainted_redraw _, rfl⟩

theorem idle_teardown (p : Page) : p.teardown.Idle := by
  obtain ⟨q, ⟨_, _, _, _, rfl⟩, htorn⟩ := repainted_teardown p
  refine ⟨teardown_currentTicket p, teardown_active p, ?_, ?_, ?_⟩ <;> rw [htorn] <;> rfl

structure Quiet (p : Page) : Prop where
  harmless : ∀ k ∈ p.pending, k.Harmless
  calm : p.Calm

theorem Quiet.adds {kind : Task → Prop} (h : p.Quiet) (hq : Adds kind p q)
    (hkind : ∀ k, kind k → k.Harmless) : q.Quiet := by
  refine ⟨fun k hk => ?_, hq.calm h.calm⟩
  cases hstream : k.isStream with
  | true =>
    cases k with
    | stream id => exact Task.harmless_of_waits rfl
    | _ => cases hstream
  | false =>
    rcases hq.tasks k hk hstream with hold | ⟨hnew, -⟩
    · exact h.harmless k hold
    · exact hkind k hnew

theorem Quiet.happen (h : p.Quiet) {x : Happening} (hx : x.ofApi = true) (hload : x.loads = false) :
    (p.happen x).Quiet := by
  refine h.adds (adds_happen h.calm (Happening.calm_of_ofApi hx)) fun k hk => ?_
  cases x with
  | call c =>
    cases c with
    | load => cases hload
    | sync =>
      obtain ⟨place, rfl⟩ := hk
      exact ⟨rfl, fun _ => Task.noConfusion⟩
    | _ => exact hk.elim
  | load | mount | symbol | tick => cases hx
  | turn n =>
    obtain ⟨j, hj, hleads⟩ := hk
    exact (h.harmless j (mem_pending.mpr (.inl (List.mem_of_getElem? hj)))).leads hleads
  | _ => exact hk.elim

section Afterwards

theorem Idle.outdated (h : p.Idle) (ht : p.Knows t) : p.board.isCurrent t = false := by
  rw [Bool.eq_false_iff]
  intro hcurrent
  have hdisplay := ht.current_iff.mp hcurrent
  rw [h.session] at hdisplay
  cases hdisplay

theorem knows_of_stream {id : Nat} {s : LiveStream} (hp : p.KnowsAll)
    (hs : p.streams[id]? = some s) : p.Knows s.ticket := by
  refine hp s.ticket (List.mem_append_right _ ?_)
  exact List.mem_map_of_mem (List.mem_of_getElem? hs)

theorem Idle.run (h : p.Idle) (hp : p.KnowsAll) {k : Task} (hk : k.Harmless)
    (hknown : ∀ t, k.ticket? = some t → p.Knows t) : (p.run k).Idle := by
  cases k with
  | enter place text =>
    have hrefused : (Symbol.entered text).toOption = none := hk.1
    cases hentered : Symbol.entered text with
    | ok s =>
      rw [hentered] at hrefused
      cases hrefused
    | error reason =>
      simp only [Page.run, Page.enter, hentered]
      exact h.of_board rfl rfl rfl rfl rfl
  | load => cases hk.1
  | history c t request | analysis c t request =>
    exact h.unnoticed (unnoticed_run (.inl rfl) (h.outdated (hknown t rfl)))
  | sync c => exact h.aside (aside_beginSync p c)
  | stream id =>
    cases hs : p.streams[id]? with
    | none =>
      simp only [Page.run, runStream, hs]
      exact h
    | some s =>
      have hlate := h.outdated (knows_of_stream hp hs)
      exact h.unnoticed (unnoticed_run (.inr ⟨id, s, rfl, hs, rfl⟩) hlate)
  | effect e => exact absurd rfl (hk.2 e)

theorem Idle.call (h : p.Idle) (c : HostCall Listener) : (p.call c).Idle := by
  cases c with
  | operate e byHost => exact h.operate byHost
  | load | sync | listen => exact h.of_board rfl rfl rfl rfl rfl
  | teardown => exact idle_teardown p
  | payload v =>
    have hrefused : p.call (.payload v) = p := by
      simp only [Page.call, applyPayload, h.session]
    rw [hrefused]
    exact h
  | attach id => exact h.repainted (repainted_attachCanvas p id)
  | render => exact h.repainted (repainted_renderNow p)

theorem Idle.happen (h : p.Idle) (hp : p.KnowsAll) (hquiet : p.Quiet) {x : Happening}
    (hx : x.ofApi = true) : (p.happen x).Idle := by
  cases x with
  | call c => exact h.call c
  | load | attach | redraw | mount | viewport | tool | symbol | press | key | unmount | tick =>
    cases hx
  | clock | host => exact h.of_board rfl rfl rfl rfl rfl
  | operate e => exact h.operate hx
  | turn n =>
    simp only [Page.happen]
    cases hk : p.ready[n]? with
    | none => exact h
    | some k =>
      have htaken : Idle { p with ready := p.ready.eraseIdx n } := h.of_board rfl rfl rfl rfl rfl
      have hmem : k ∈ p.pending := mem_pending.mpr (.inl (List.mem_of_getElem? hk))
      -- no session is displayed, so every ticket that the page knows is outdated
      have hsame := undisturbed_taken (p := p) n
      refine htaken.run (hsame.knowsAll hp) (hquiet.harmless k hmem) fun t ht => ?_
      exact hsame.knows_iff.mpr (knows_of_ready hp hk t ht)
  | message id text =>
    simp only [Page.happen]
    split
    · exact h.unnoticed (unnoticed_complete (h.outdated (knows_of_stream hp ‹_›)) (.message text))
    · exact h
  | ended id f =>
    simp only [Page.happen]
    split
    · exact h.unnoticed (unnoticed_complete (h.outdated (knows_of_stream hp ‹_›)) (.ended id f))
    · exact h
  | respond request a =>
    simp only [Page.happen, respond]
    split
    · split
      · exact h
      · exact h.of_board rfl rfl rfl rfl rfl
    · exact h
  | deliver socket e =>
    simp only [Page.happen, deliver]
    split
    · split
      · exact h.of_board rfl rfl rfl rfl rfl
      · exact h
    · exact h

theorem Idle.after (h : p.Idle) (hp : p.KnowsAll) (hquiet : p.Quiet) {hs : List Happening}
    (hcalls : ∀ x ∈ hs, x.ofApi = true ∧ x.loads = false) : (p.after hs).Idle := by
  induction hs generalizing p with
  | nil => exact h
  | cons x hs ih =>
    obtain ⟨hx, hload⟩ := hcalls x List.mem_cons_self
    exact ih (h.happen hp hquiet hx) (hp.happen x) (hquiet.happen hx hload)
      fun y hy => hcalls y (List.mem_cons_of_mem x hy)

end Afterwards

section Before

/-- What holds while no panel is there: nothing is due for one, what is put off only waits, and the
listeners load and sync nothing. -/
structure Bare (p : Page) : Prop where
  calm : p.Calm
  noEffect : ∀ k ∈ p.pending, ∀ e, k ≠ .effect e
  waits : ∀ k ∈ p.waiting, k.waits = true

theorem Bare.happen (h : p.Bare) {x : Happening} (hx : x.ofApi = true) : (p.happen x).Bare := by
  have hadds := adds_happen h.calm (Happening.calm_of_ofApi hx)
  refine ⟨hadds.calm h.calm, ?_, fun k hk => (hadds.waiting k hk).elim (h.waits k) id⟩
  rintro k hk e rfl
  rcases hadds.tasks _ hk rfl with hold | ⟨hleads, -⟩
  · exact h.noEffect _ hold e rfl
  · cases x with
    | load | mount | symbol | tick => cases hx
    | call c =>
      cases c with
      | load | sync =>
        obtain ⟨_, hnone⟩ := hleads
        cases hnone
      | _ => exact hleads
    | turn n =>
      obtain ⟨j, -, hj⟩ := hleads
      unfold Task.Leads at hj
      split at hj <;> simp at hj
    | _ => exact hleads

theorem Bare.after (h : p.Bare) {hs : List Happening} (hcalls : ∀ x ∈ hs, x.ofApi = true) :
    (p.after hs).Bare := by
  induction hs generalizing p with
  | nil => exact h
  | cons x hs ih =>
    exact ih (h.happen (hcalls x List.mem_cons_self))
      fun y hy => hcalls y (List.mem_cons_of_mem x hy)

theorem Bare.quiet_iff (h : p.Bare) : p.Quiet ↔ ∀ k ∈ p.ready, k.begins? = none := by
  constructor
  · exact fun hquiet k hk => (hquiet.harmless k (mem_pending.mpr (.inl hk))).1
  · refine fun hready => ⟨fun k hk => ?_, h.calm⟩
    rcases mem_pending.mp hk with hnow | hlater
    · exact ⟨hready k hnow, h.noEffect k hk⟩
    · exact Task.harmless_of_waits (h.waits k hlater)

end Before

theorem mem_ready_teardown {k : Task} (hk : k ∈ p.ready) : k ∈ p.teardown.ready := by
  have habort (q : Page) (stream : Option Nat) (hq : k ∈ q.ready) : k ∈ (q.abort stream).ready := by
    cases stream with
    | none => exact hq
    | some id => exact List.mem_append_left _ hq
  obtain ⟨q, ⟨_, _, _, _, rfl⟩, htorn⟩ := repainted_teardown p
  rw [htorn]
  exact habort { p with slot := p.slot.release.state } p.slot.release.reply hk

theorem not_idle_of_begins {n : Nat} {k : Task} (hk : p.ready[n]? = some k)
    (hbegins : k.begins? ≠ none) : ¬ (p.happen (.turn n)).Idle := by
  obtain ⟨s, hs⟩ := Option.ne_none_iff_exists'.mp hbegins
  intro hidle
  obtain ⟨c, hload⟩ := run_of_begins (p := { p with ready := p.ready.eraseIdx n }) hs
  have hdisplay := hidle.session
  simp only [happen, hk, hload, beginLoad_currentTicket] at hdisplay
  cases hdisplay

/-- After a teardown nothing is displayed again, in whatever order the tasks have their turns and
whatever comes in, exactly if there was no load whose task was yet to have its first turn. -/
theorem idle_after_teardown_iff (h : Host) (c : Config) (storage : Storage) (desk : Desk)
    (session : Vault) (before : List Happening) (hbefore : ∀ x ∈ before, x.ofApi = true) :
    let p := (Page.opened h c storage desk session).after before
    (∀ later : List Happening, (∀ x ∈ later, x.ofApi = true ∧ x.loads = false) →
      (p.teardown.after later).Idle) ↔ ∀ k ∈ p.ready, k.begins? = none := by
  intro p
  have hknown : p.KnowsAll := (knowsAll_opened h c storage desk session).after before
  have hempty : (Page.opened h c storage desk session).Bare :=
    ⟨rfl, fun _ hk => (List.not_mem_nil hk).elim, fun _ hk => (List.not_mem_nil hk).elim⟩
  have hbare : p.Bare := hempty.after hbefore
  constructor
  · intro hidle k hk
    by_contra hbegins
    -- the teardown leaves the task where it was, and one turn of it is enough
    obtain ⟨n, hn⟩ := List.getElem?_of_mem (mem_ready_teardown hk)
    refine not_idle_of_begins hn hbegins (hidle [.turn n] ?_)
    intro x hx
    obtain rfl := List.mem_singleton.mp hx
    exact ⟨rfl, rfl⟩
  · intro hready later hcalls
    have hquiet : p.teardown.Quiet :=
      (hbare.quiet_iff.mpr hready).adds (addsNone_teardown p) fun _ => False.elim
    exact (idle_teardown p).after hknown.teardown hquiet hcalls

theorem idle_after_teardown_iff_of_lateHistory :
    let p := (Page.opened {} {} .areaOfPage { clock := 0 } {}).after
      [.call (.load "EURUSD"), .turn 0]
    let later : List Happening := [.respond 0 (.response 200 "OK" "[]"), .turn 0]
    p.board.currentTicket? = some ⟨1, ⟨"EURUSD"⟩⟩ ∧ (p.teardown.after later).results = [.done 0] ∧
      (p.teardown.after later).Idle := by
  intro p later
  have hiff := idle_after_teardown_iff {} {} .areaOfPage { clock := 0 } {}
    [.call (.load "EURUSD"), .turn 0] (by decide)
  have hready : ∀ k ∈ p.ready, k.begins? = none := by decide +kernel
  exact ⟨by decide +kernel, by decide +kernel, hiff.mpr hready later (by decide)⟩

/-- The load is called just before the teardown, so that its task has its first turn after it. -/
theorem displayed_after_teardown :
    ¬ ∀ (h : Host) (c : Config) (storage : Storage) (desk : Desk) (session : Vault)
        (before later : List Happening), (∀ x ∈ before, x.ofApi = true) →
        (∀ x ∈ later, x.ofApi = true ∧ x.loads = false) →
        let settled := ((Page.opened h c storage desk session).after before).teardown.after later
        settled.ready = [] → .pending ∉ settled.results → settled.Idle := by
  intro h
  have hidle := h {} {} .areaOfPage { clock := 0 } {} [.call (.load "EURUSD")]
    [.turn 0, .respond 0 (.response 200 "OK" "[]"), .turn 0, .turn 0] (by decide) (by decide)
    (by decide +kernel) (by decide +kernel)
  exact absurd hidle.session (by decide +kernel)

end Page

end MarketSketch
