import MarketSketch.Proofs.Page.Boards

/-! Where the tasks of a page come from, if its listeners set off none. A turn of a task adds tasks
of few kinds, and each happening of the world its own; what waits for a request was added when that
was made. Streams are left out of account. -/

namespace MarketSketch

namespace Task

def request? : Task → Option Nat
  | .history _ _ n | .analysis _ _ n => some n
  | _ => none

def isStream : Task → Bool
  | .stream _ => true
  | _ => false

def waits : Task → Bool
  | .history _ _ _ | .analysis _ _ _ | .stream _ => true
  | _ => false

/-- The second task may come of a turn of the first. -/
def Leads : Task → Task → Prop
  | .enter place _, k => ∃ t n, k = .history (.caller place) t n
  | .load c _, k => ∃ t n, k = .history c t n
  | .history .panel _ _, k => ∃ t n, k = .analysis .panelSync t n
  | .sync c, k => ∃ t n, k = .analysis c t n
  | .effect .symbol, k => ∃ s, k = .load .panel s
  | _, _ => False

end Task

namespace HostCall

/-- The task may come of the call. -/
def Leads : HostCall Listener → Task → Prop
  | .load text, k => ∃ place, k = .enter place text
  | .sync, k => ∃ place, k = .sync (.caller place)
  | _, _ => False

def calm : HostCall Listener → Bool
  | .listen l => decide (Listener.workOfNext l = 0)
  | _ => true

variable {c : HostCall Listener}

theorem calm_of_workOf (h : Listener.workOf c = 0) : c.calm = true := by
  cases c with
  | listen l => exact decide_eq_true h
  | _ => rfl

theorem not_leads_of_workOf (h : Listener.workOf c = 0) (k : Task) : ¬ c.Leads k := by
  cases c with
  | load text => simp [Listener.workOf, Task.work] at h
  | sync => simp [Listener.workOf, Task.work] at h
  | _ => exact id

end HostCall

namespace Page

variable {p q r : Page} {kind : Task → Prop} {k : Task}

def pending (p : Page) : List Task := p.ready ++ p.waiting

theorem mem_pending : k ∈ p.pending ↔ k ∈ p.ready ∨ k ∈ p.waiting := List.mem_append

theorem mem_pending_spawn {j : Task} : j ∈ (p.spawn k).pending ↔ j ∈ p.pending ∨ j = k := by
  simp only [pending, spawn, List.mem_append, List.mem_singleton, or_right_comm]

theorem mem_pending_suspend {j : Task} : j ∈ (p.suspend k).pending ↔ j ∈ p.pending ∨ j = k := by
  simp only [pending, suspend, List.mem_append, List.mem_singleton, or_assoc]

/-- The listener, if there is one, loads and syncs nothing, nor do those that it sets. -/
def Calm (p : Page) : Prop := Listener.workOfNext p.listener = 0

/-- From one page to another requests are only added, and a calm listener stays so. Tasks of one
kind may be added, and what one of them waits for was asked in between. Whatever begins to wait is
of the sort that may. -/
structure Adds (kind : Task → Prop) (p q : Page) : Prop where
  calm : p.Calm → q.Calm
  requests : p.requests.length ≤ q.requests.length
  tasks : ∀ k ∈ q.pending, k.isStream = false → k ∈ p.pending ∨
    kind k ∧ ∀ n, k.request? = some n → p.requests.length ≤ n ∧ n < q.requests.length
  waiting : ∀ k ∈ q.waiting, k ∈ p.waiting ∨ k.waits = true

abbrev AddsNone : Page → Page → Prop := Adds fun _ => False

namespace Adds

theorem of_subset (hlistener : q.listener = p.listener)
    (hrequests : q.requests.length = p.requests.length)
    (htasks : ∀ k ∈ q.pending, k.isStream = false → k ∈ p.pending)
    (hwaiting : ∀ k ∈ q.waiting, k ∈ p.waiting ∨ k.waits = true) : Adds kind p q :=
  ⟨fun hp => (congrArg Listener.workOfNext hlistener).trans hp, Nat.le_of_eq hrequests.symm,
    fun k hk hstream => .inl (htasks k hk hstream), hwaiting⟩

theorem of_same (hlistener : q.listener = p.listener) (hrequests : q.requests = p.requests)
    (hready : q.ready = p.ready) (hwaiting : q.waiting = p.waiting) : Adds kind p q := by
  refine of_subset hlistener (by rw [hrequests]) (fun k hk _ => ?_) fun k hk => .inl (hwaiting ▸ hk)
  rwa [pending, hready, hwaiting] at hk

theorem refl (p : Page) : Adds kind p p := of_same rfl rfl rfl rfl

theorem trans (h : Adds kind p q) (h' : Adds kind q r) : Adds kind p r := by
  refine ⟨fun hp => h'.calm (h.calm hp), Nat.le_trans h.requests h'.requests,
    fun k hk hstream => ?_, fun k hk => ?_⟩
  · rcases h'.tasks k hk hstream with hold | ⟨hkind, hnew⟩
    · refine (h.tasks k hold hstream).imp_right fun ⟨hkind, hnew⟩ => ⟨hkind, fun n hn => ?_⟩
      exact ⟨(hnew n hn).1, Nat.lt_of_lt_of_le (hnew n hn).2 h'.requests⟩
    · exact .inr ⟨hkind, fun n hn => ⟨Nat.le_trans h.requests (hnew n hn).1, (hnew n hn).2⟩⟩
  · exact (h'.waiting k hk).elim (h.waiting k) .inr

theorem mono (h : Adds kind p q) {wider : Task → Prop} (hkind : ∀ k, kind k → wider k) :
    Adds wider p q :=
  ⟨h.calm, h.requests, fun k hk hstream => (h.tasks k hk hstream).imp_right fun ⟨hk', hnew⟩ =>
    ⟨hkind k hk', hnew⟩, h.waiting⟩

theorem of_none (h : AddsNone p q) : Adds kind p q := h.mono fun _ => False.elim

theorem spawn (h : Adds kind p q) (hkind : kind k) (hk : k.request? = none) :
    Adds kind p (q.spawn k) := by
  refine ⟨h.calm, h.requests, fun j hj hstream => ?_, h.waiting⟩
  rcases mem_pending_spawn.mp hj with hold | rfl
  · exact h.tasks j hold hstream
  · exact .inr ⟨hkind, by simp [hk]⟩

theorem waiting_suspend (h : Adds kind p q) (hk : k.waits = true) :
    ∀ j ∈ (q.suspend k).waiting, j ∈ p.waiting ∨ j.waits = true := by
  intro j hj
  rcases List.mem_append.mp hj with hold | hnew
  · exact h.waiting j hold
  · exact .inr (List.mem_singleton.mp hnew ▸ hk)

theorem suspend_stream (h : Adds kind p q) (id : Nat) : Adds kind p (q.suspend (.stream id)) := by
  refine ⟨h.calm, h.requests, fun j hj hstream => ?_, h.waiting_suspend rfl⟩
  rcases mem_pending_suspend.mp hj with hold | rfl
  · exact h.tasks j hold hstream
  · simp [Task.isStream] at hstream

theorem await (h : AddsNone p q) (places : List TokenReading) (url : String) (hkind : kind k)
    (hk : k.request? = some q.requests.length) :
    Adds kind p ((q.fetch places url).1.suspend k) := by
  have hlength : (q.fetch places url).1.requests.length = q.requests.length + 1 := by
    simp [fetch]
  have hwaits : k.waits = true := by cases k <;> first | rfl | cases hk
  refine ⟨h.calm, Nat.le_trans h.requests (Nat.le_of_lt (hlength ▸ Nat.lt_succ_self _)),
    fun j hj hstream => ?_, h.waiting_suspend hwaits⟩
  rcases mem_pending_suspend.mp hj with hold | rfl
  · exact (h.tasks j hold hstream).imp_right fun hnone => hnone.1.elim
  · refine .inr ⟨hkind, fun n hn => ?_⟩
    obtain rfl := Option.some.inj (hk.symm.trans hn)
    exact ⟨h.requests, hlength ▸ Nat.lt_succ_self _⟩

end Adds

section Calls

theorem Repainted.addsNone (h : Repainted p q) : AddsNone p q := by
  obtain ⟨flag, notes, screen, canvases, rfl⟩ := h
  exact .of_same rfl rfl rfl rfl

theorem addsNone_update {ρ : Type} (p : Page) (u : Turn Board ρ) : AddsNone p (p.update u).1 := by
  have hstep : AddsNone p (p.step u).1 := .of_same rfl rfl rfl rfl
  exact hstep.trans (repainted_redraw _).addsNone

theorem addsNone_operate (p : Page) (e : Board.Event) : AddsNone p (p.operate e).1 :=
  addsNone_update p _

theorem addsNone_wake (p : Page) (which : Task → Bool) : AddsNone p (p.wake which) :=
  .of_subset rfl rfl (fun _ hk _ => mem_pending.mpr (mem_wake (mem_pending.mp hk)))
    fun _ hk => .inl (List.mem_of_mem_filter hk)

theorem addsNone_abort (p : Page) (stream : Option Nat) : AddsNone p (p.abort stream) := by
  cases stream with
  | none => exact .refl p
  | some id => exact (addsNone_wake p (· = Task.stream id)).trans (.of_same rfl rfl rfl rfl)

theorem addsNone_releaseStream (p : Page) : AddsNone p p.releaseStream := by
  have hslot : AddsNone p { p with slot := p.slot.release.state } := .of_same rfl rfl rfl rfl
  exact hslot.trans ((addsNone_abort _ _).trans (.of_same rfl rfl rfl rfl))

theorem addsNone_startStream (p : Page) (t : Ticket) : AddsNone p (p.startStream t) := by
  have hopened : AddsNone p (p.opening t) := by
    refine .of_subset rfl rfl (fun k hk hstream => ?_) fun _ hk => .inl hk
    refine (mem_pending_spawn.mp hk).resolve_right ?_
    rintro rfl
    simp [Task.isStream] at hstream
  have hslot : AddsNone (p.opening t)
      { p.opening t with slot := (p.slot.attach t.symbol p.streams.length).state } :=
    .of_same rfl rfl rfl rfl
  exact hopened.trans (hslot.trans ((addsNone_abort _ _).trans (.of_same rfl rfl rfl rfl)))

theorem addsNone_teardown (p : Page) : AddsNone p p.teardown :=
  (addsNone_releaseStream p).trans
    ((addsNone_operate p.releaseStream .teardown).trans (.of_same rfl rfl rfl rfl))

theorem addsNone_settle (p : Page) (c : Client) (result : Except Failure Nat) :
    AddsNone p (p.settle c result) := by
  cases c with
  | caller place => cases result <;> exact .of_same rfl rfl rfl rfl
  | panel | panelSync =>
    unfold settle showStatus
    cases result <;> dsimp only <;> split <;> exact .of_same rfl rfl rfl rfl
  | timer => cases result <;> exact .of_same rfl rfl rfl rfl

theorem addsNone_fail (p : Page) (t : Ticket) (f : Failure) : AddsNone p (p.fail t f) := by
  unfold fail
  dsimp only
  split <;> exact .of_same rfl rfl rfl rfl

theorem adds_beginSync (p : Page) (c : Client) :
    Adds (fun k => ∃ t n, k = .analysis c t n) p (p.beginSync c) := by
  unfold beginSync
  split
  · exact .of_none (addsNone_settle p c _)
  · exact .await (.refl p) _ _ ⟨_, _, rfl⟩ rfl

theorem addsNone_finishSync (p : Page) (c : Client) (t : Ticket) (a : Answer) :
    AddsNone p (p.finishSync c t a) := by
  unfold finishSync
  split
  · exact (addsNone_fail p t _).trans (addsNone_settle _ c _)
  · exact (addsNone_update p _).trans (addsNone_settle _ c _)

theorem adds_beginLoad (p : Page) (c : Client) (s : Symbol) :
    Adds (fun k => ∃ t n, k = .history c t n) p (p.beginLoad c s) := by
  let switched : Page := { p with board := (p.board.switchSymbol s).1 }
  have hswitched : AddsNone p switched := .of_same rfl rfl rfl rfl
  have hdrawn : AddsNone p switched.releaseStream.redraw :=
    hswitched.trans ((addsNone_releaseStream _).trans (repainted_redraw _).addsNone)
  refine Adds.await (q := Page.note _ _) ?_ _ _ ⟨_, _, rfl⟩ rfl
  exact hdrawn.trans (.of_same rfl rfl rfl rfl)

theorem adds_settleLoad (p : Page) (c : Client) (result : Except Failure Nat) :
    Adds (fun k => c = .panel ∧ result.isOk = true ∧ ∃ t n, k = .analysis .panelSync t n) p
      (p.settleLoad c result) := by
  unfold settleLoad
  split
  · exact (adds_beginSync p .panelSync).mono fun k hk => ⟨rfl, rfl, hk⟩
  · exact .of_none (addsNone_settle p c _)

theorem finishLoad_cases (p : Page) (c : Client) (t : Ticket) (a : Answer) :
    ∃ q result, AddsNone p q ∧ q.board.currentTicket? = p.board.currentTicket? ∧
      p.finishLoad c t a = q.settleLoad c result ∧ result.isOk = (candlesOf a).isOk := by
  cases hcandles : candlesOf a with
  | error f =>
    exact ⟨_, .error f, addsNone_fail p t f, (undisturbed_fail t f).currentTicket,
      finishLoad_of_error hcandles, rfl⟩
  | ok cs =>
    obtain ⟨hguard, hticket⟩ := Board.Standing.applyHistory_keeps p.board t cs
    let taken := ((p.note (loadedNote t.symbol cs.length)).step (p.board.applyHistory t cs)).1
    have htaken : AddsNone p taken := .of_same rfl rfl rfl rfl
    have hsame : Undisturbed p taken := .of_same hguard hticket rfl rfl rfl rfl
    rw [finishLoad_of_ok hcandles]
    dsimp only
    split
    · have hdrawn := hsame.trans (repainted_redraw taken).undisturbed
      have hstarted := htaken.trans
        ((repainted_redraw taken).addsNone.trans (addsNone_startStream taken.redraw t))
      have hboard := congrArg Board.currentTicket? (startStream_board taken.redraw t)
      refine ⟨_, .ok _, ?_, ?_, rfl, rfl⟩
      · exact hstarted.trans (.of_same rfl rfl rfl rfl)
      · exact hboard.trans hdrawn.currentTicket
    · exact ⟨taken, .ok 0, htaken, hsame.currentTicket, rfl, rfl⟩

theorem adds_finishLoad (p : Page) (c : Client) (t : Ticket) (a : Answer) :
    Adds (fun k => c = .panel ∧ (candlesOf a).isOk = true ∧ ∃ t n, k = .analysis .panelSync t n) p
      (p.finishLoad c t a) := by
  obtain ⟨q, result, hq, -, heq, hok⟩ := finishLoad_cases p c t a
  rw [heq, ← hok]
  exact .trans (.of_none hq) (adds_settleLoad q c result)

end Calls

section Streams

theorem addsNone_dropSocket (p : Page) (s : LiveStream) : AddsNone p (p.dropSocket s) := by
  unfold dropSocket
  split <;> exact .of_same rfl rfl rfl rfl

theorem addsNone_closeStream (p : Page) (id : Nat) : AddsNone p (p.closeStream id) := by
  unfold closeStream
  split
  · exact (addsNone_dropSocket p _).trans (.of_same rfl rfl rfl rfl)
  · exact .refl p

theorem addsNone_abortStream (p : Page) (id : Nat) (t : Ticket) :
    AddsNone p (p.abortStream id t) :=
  (addsNone_closeStream p id).trans (.of_same rfl rfl rfl rfl)

theorem addsNone_streamEnded (p : Page) (t : Ticket) (f : Option Failure) :
    AddsNone p (p.streamEnded t f) := by
  unfold streamEnded
  split <;> exact .of_same rfl rfl rfl rfl

theorem addsNone_finishStream (p : Page) (id : Nat) (t : Ticket) (f : Option Failure) :
    AddsNone p (p.finishStream id t f) := by
  have hnoted (p : Page) (n : Log.Note) : AddsNone p (p.note n) := .of_same rfl rfl rfl rfl
  cases f with
  | none =>
    exact (hnoted p _).trans ((addsNone_closeStream _ id).trans (addsNone_streamEnded _ t none))
  | some f =>
    exact (addsNone_closeStream p id).trans
      ((hnoted _ _).trans (addsNone_streamEnded _ t (some f)))

theorem addsNone_connect (p : Page) (id : Nat) (s : LiveStream) : AddsNone p (p.connect id s) := by
  unfold connect
  dsimp only
  generalize hq : p.note _ = q
  have hnoted : AddsNone p q := hq ▸ .of_same rfl rfl rfl rfl
  split
  · exact hnoted.trans (addsNone_finishStream q id _ _)
  · refine Adds.suspend_stream ?_ id
    exact hnoted.trans (.of_same rfl rfl rfl rfl)

end Streams

section Messages

theorem adds_call (p : Page) {c : HostCall Listener} (hc : c.calm = true) :
    Adds c.Leads p (p.call c) := by
  have hreserve : AddsNone p p.reserve.1 := .of_same rfl rfl rfl rfl
  cases c with
  | operate e => exact .of_none (addsNone_operate p e)
  | payload v =>
    simp only [call, applyPayload]
    cases p.board.currentTicket? with
    | none => exact .refl p
    | some t => exact .of_none (addsNone_update p _)
  | load | sync => exact .spawn (.of_none hreserve) ⟨_, rfl⟩ rfl
  | attach id => exact .of_none (repainted_attachCanvas p id).addsNone
  | render => exact .of_none (repainted_renderNow p).addsNone
  | listen l =>
    have hl : Listener.workOfNext l = 0 := of_decide_eq_true hc
    exact ⟨fun _ => hl, Nat.le_refl _, fun k hk _ => .inl hk, fun k hk => .inl hk⟩
  | teardown => exact .of_none (addsNone_teardown p)

theorem addsNone_calls (p : Page) {cs : List (HostCall Listener)}
    (hcs : Listener.workOfAll cs = 0) : AddsNone p (cs.foldl call p) := by
  induction cs generalizing p with
  | nil => exact .refl p
  | cons c cs ih =>
    obtain ⟨hc, hrest⟩ : Listener.workOf c = 0 ∧ Listener.workOfAll cs = 0 := by
      simpa [Listener.workOfAll] using hcs
    have hcall : AddsNone p (p.call c) :=
      (adds_call p (HostCall.calm_of_workOf hc)).mono (HostCall.not_leads_of_workOf hc)
    exact hcall.trans (ih (p.call c) hrest)

theorem addsNone_listen (p : Page) {l : Listener} (hl : l.work = 0) (c : Candle) :
    AddsNone p (p.listen l c) := by
  let told : Page := { p with heard := (l, c) :: p.heard }
  have htold : AddsNone p told := .of_same rfl rfl rfl rfl
  have hcs : Listener.workOfAll l.calls = 0 := by
    cases l
    simpa [Listener.work] using hl
  have hcalls : AddsNone p (l.calls.foldl call told) := htold.trans (addsNone_calls told hcs)
  unfold listen
  cases l.throws with
  | none => exact hcalls
  | some reason => exact hcalls.trans (.of_same rfl rfl rfl rfl)

theorem addsNone_announce (hp : p.Calm) : AddsNone p p.announce := by
  unfold announce
  split
  · rename_i l _ hl
    have hwork : l.work = 0 := by
      rw [Calm, hl] at hp
      simpa [Listener.workOfNext] using hp
    exact addsNone_listen p hwork _
  · exact .refl p

theorem addsNone_receive (hp : p.Calm) (t : Ticket) (text : String) :
    AddsNone p (p.receive t text) := by
  unfold receive
  split
  · exact .of_same rfl rfl rfl rfl
  · dsimp only
    generalize hq : p.step _ = stepped
    have hstep : AddsNone p stepped.1 := hq ▸ .of_same rfl rfl rfl rfl
    split
    · have hdrawn := hstep.trans (repainted_redraw stepped.1).addsNone
      exact hdrawn.trans (addsNone_announce (hdrawn.calm hp))
    · exact hstep

theorem addsNone_readEvents (hp : p.Calm) (id : Nat) (t : Ticket) (es : List SocketEvent) :
    AddsNone p (readEvents id t es p) := by
  induction es generalizing p with
  | nil =>
    unfold readEvents
    split
    · exact addsNone_abortStream p id t
    · exact .suspend_stream (.refl p) id
  | cons e es ih =>
    unfold readEvents
    split
    · exact addsNone_finishStream p id t _
    · split
      · rename_i text _
        have hreceived := addsNone_receive hp t text
        exact hreceived.trans (ih (hreceived.calm hp))
      · exact ih hp

theorem addsNone_runStream (hp : p.Calm) (id : Nat) : AddsNone p (p.runStream id) := by
  unfold runStream
  cases p.streams[id]? with
  | none => exact .refl p
  | some s =>
    let read := p.setStream id { s with inbox := [] }
    have hread : AddsNone p read := .of_same rfl rfl rfl rfl
    dsimp only
    split
    · exact .refl p
    · split
      · exact addsNone_abortStream p id _
      · exact addsNone_connect p id s
    · split
      · exact addsNone_abortStream p id _
      · exact hread.trans (addsNone_readEvents (hread.calm hp) id _ _)

end Messages

section Turns

theorem adds_enterPanelSymbol (p : Page) :
    Adds (fun k => ∃ s, k = .load .panel s) p p.enterPanelSymbol := by
  unfold enterPanelSymbol
  split
  · exact .of_same rfl rfl rfl rfl
  · exact .spawn (.refl p) ⟨_, rfl⟩ rfl

theorem adds_run (hp : p.Calm) (k : Task) :
    Adds k.Leads p (p.run k) ∨ p.run k = p.suspend k ∧ k.waits = true := by
  cases k with
  | enter place text =>
    left
    unfold run enter
    dsimp only
    split
    · exact .of_same rfl rfl rfl rfl
    · exact adds_beginLoad p _ _
  | load c s => exact .inl (adds_beginLoad p c s)
  | history c t request =>
    unfold run
    dsimp only
    split
    · refine .inl ((adds_finishLoad p c t _).mono ?_)
      rintro k ⟨rfl, -, hk⟩
      exact hk
    · exact .inr ⟨rfl, rfl⟩
  | sync c => exact .inl (adds_beginSync p c)
  | analysis c t request =>
    unfold run
    dsimp only
    split
    · exact .inl (.of_none (addsNone_finishSync p c t _))
    · exact .inr ⟨rfl, rfl⟩
  | stream id => exact .inl (.of_none (addsNone_runStream hp id))
  | effect e =>
    left
    cases e with
    | viewport | tool => exact .of_none (addsNone_operate p _)
    | symbol => exact adds_enterPanelSymbol p

theorem addsNone_taken (p : Page) (n : Nat) : AddsNone p { p with ready := p.ready.eraseIdx n } :=
  .of_subset rfl rfl
    (fun _ hj _ => mem_pending.mpr ((mem_pending.mp hj).imp_left List.mem_of_mem_eraseIdx))
    fun _ hj => .inl hj

theorem addsNone_putBack {n : Nat} (hk : p.ready[n]? = some k) (hwaits : k.waits = true) :
    AddsNone p ({ p with ready := p.ready.eraseIdx n }.suspend k) := by
  have htaken := addsNone_taken p n
  refine .of_subset rfl rfl (fun j hj hstream => ?_) (htaken.waiting_suspend hwaits)
  rcases mem_pending_suspend.mp hj with hold | rfl
  · exact (htaken.tasks j hold hstream).resolve_right fun hnone => hnone.1.elim
  · exact mem_pending.mpr (.inl (List.mem_of_getElem? hk))

theorem adds_turn (hp : p.Calm) {n : Nat} (hk : p.ready[n]? = some k) :
    Adds k.Leads p ({ p with ready := p.ready.eraseIdx n }.run k) := by
  rcases adds_run (p := { p with ready := p.ready.eraseIdx n }) hp k with hadds | ⟨hback, hwaits⟩
  · exact (Adds.of_none (addsNone_taken p n)).trans hadds
  · rw [hback]
    exact .of_none (addsNone_putBack hk hwaits)

end Turns

/-- What a happening may add: a call of the host or the timer its task, the panel its effects and
its loads, and a turn what its task leads to. -/
def Happening.Leads (p : Page) : Happening → Task → Prop
  | .call c, k => c.Leads k
  | .load s, k => ∃ place, k = .load (.caller place) s
  | .mount _ _ _, k => ∃ e, k = .effect e
  | .symbol _, k => ∃ s, k = .load .panel s
  | .tick, k => k = .sync .timer
  | .turn n, k => ∃ j, p.ready[n]? = some j ∧ j.Leads k
  | _, _ => False

def Happening.calm : Happening → Bool
  | .call c => c.calm
  | _ => true

section World

theorem addsNone_attachPanel (p : Page) : AddsNone p p.attachPanel := by
  unfold attachPanel
  split
  · exact .of_same rfl rfl rfl rfl
  · exact (repainted_takeCanvas p _ _).addsNone

theorem addsNone_startTimer (p : Page) : AddsNone p p.startTimer := by
  unfold startTimer
  split <;> exact .of_same rfl rfl rfl rfl

theorem adds_mount (p : Page) (v : ChartView) (t : Tool) (text : String) :
    Adds (fun k => ∃ e, k = .effect e) p (p.mount v t text) := by
  unfold mount
  dsimp only
  generalize hq : { p with panel := _ } = q
  have hpanel : AddsNone p q := hq ▸ .of_same rfl rfl rfl rfl
  have hshown : AddsNone p q.attachPanel.startTimer :=
    hpanel.trans ((addsNone_attachPanel q).trans (addsNone_startTimer _))
  exact .spawn (.spawn (.spawn (.of_none hshown) ⟨_, rfl⟩ rfl) ⟨_, rfl⟩ rfl) ⟨_, rfl⟩ rfl

theorem addsNone_respond (p : Page) (request : Nat) (a : Answer) :
    AddsNone p (p.respond request a).1 := by
  unfold respond
  split
  · split
    · exact .refl p
    · rename_i answered _ _
      let heard : Page :=
        { p with requests := p.requests.set request { answered with answer? := some a } }
      have hheard : AddsNone p heard :=
        .of_subset rfl (List.length_set ..) (fun _ hk _ => hk) fun _ hk => .inl hk
      exact hheard.trans (addsNone_wake heard _)
  · exact .refl p

theorem addsNone_deliver (p : Page) (socket : Nat) (e : SocketEvent) :
    AddsNone p (p.deliver socket e).1 := by
  unfold deliver
  split
  · split
    · exact (addsNone_wake p _).trans (.of_same rfl rfl rfl rfl)
    · exact .refl p
  · exact .refl p

theorem adds_tick (p : Page) : Adds (fun k => k = .sync .timer) p p.tick := by
  refine ⟨id, Nat.le_refl _, fun k hk _ => ?_, fun _ hk => .inl hk⟩
  rcases mem_pending.mp hk with hready | hwaiting
  · rcases List.mem_append.mp hready with hold | hnew
    · exact .inl (mem_pending.mpr (.inl hold))
    · obtain ⟨_, _, rfl⟩ := List.mem_map.mp hnew
      exact .inr ⟨rfl, by simp [Task.request?]⟩
  · exact .inl (mem_pending.mpr (.inr hwaiting))

theorem addsNone_unmount (p : Page) : AddsNone p p.unmount := by
  unfold unmount
  split
  · dsimp only
    generalize hq : { p with timers := _ } = q
    have htimers : AddsNone p q := hq ▸ .of_same rfl rfl rfl rfl
    exact htimers.trans ((addsNone_teardown q).trans (.of_same rfl rfl rfl rfl))
  · exact .refl p

theorem addsNone_capture (p : Page) (pointer : Int) : AddsNone p (p.capture pointer) := by
  unfold capture
  split <;> exact .of_same rfl rfl rfl rfl

theorem adds_happen (hp : p.Calm) {x : Happening} (hx : x.calm = true) :
    Adds (x.Leads p) p (p.happen x) := by
  have hpanel (panel : Panel) : AddsNone p { p with panel := panel } := .of_same rfl rfl rfl rfl
  have hreserve : AddsNone p p.reserve.1 := .of_same rfl rfl rfl rfl
  cases x with
  | call c => exact adds_call p hx
  | load => exact .spawn (.of_none hreserve) ⟨_, rfl⟩ rfl
  | operate e => exact .of_none (addsNone_operate p e)
  | clock | host => exact .of_same rfl rfl rfl rfl
  | attach s => exact .of_none (repainted_attach p s).addsNone
  | redraw => exact .of_none (repainted_redraw p).addsNone
  | mount v t text => exact adds_mount p v t text
  | viewport | tool =>
    simp only [happen, setViewport, setTool]
    split
    · exact .of_none ((hpanel _).trans (addsNone_operate _ _))
    · exact .refl p
  | symbol text =>
    simp only [happen, setSymbol]
    split
    · exact .trans (.of_none (hpanel _)) (adds_enterPanelSymbol _)
    · exact .refl p
  | press pointer at_ => exact .of_none ((addsNone_capture p pointer).trans (addsNone_operate _ _))
  | key key =>
    simp only [happen, keyDown]
    split
    · exact .of_none (addsNone_operate p _)
    · exact .refl p
  | unmount => exact .of_none (addsNone_unmount p)
  | turn n =>
    simp only [happen]
    cases hk : p.ready[n]? with
    | none => exact .refl p
    | some k => exact (adds_turn hp hk).mono fun j hj => ⟨k, hk, hj⟩
  | message id text =>
    simp only [happen]
    split
    · exact .of_none (addsNone_receive hp _ text)
    · exact .refl p
  | ended id f =>
    simp only [happen]
    split
    · exact .of_none (addsNone_finishStream p id _ f)
    · exact .refl p
  | respond request a => exact .of_none (addsNone_respond p request a)
  | deliver socket e => exact .of_none (addsNone_deliver p socket e)
  | tick => exact adds_tick p

end World

def Numbered (p : Page) : Prop :=
  ∀ k ∈ p.pending, ∀ n, k.request? = some n → n < p.requests.length

theorem Adds.numbered (h : Adds kind p q) (hp : p.Numbered) : q.Numbered := by
  intro k hk n hn
  have hstream : k.isStream = false := by cases k <;> first | rfl | cases hn
  rcases h.tasks k hk hstream with hold | ⟨-, hnew⟩
  · exact Nat.lt_of_lt_of_le (hp k hold n hn) h.requests
  · exact (hnew n hn).2

end Page

end MarketSketch
