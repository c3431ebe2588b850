import MarketSketch.Proofs.Page.Slot
import MarketSketch.Proofs.Page.Tasks

/-! When the panel asks for an analysis. Its tasks load and go on with a sync, which is for whatever
session is displayed by then. That one has its candles, unless the load was overtaken. -/

namespace MarketSketch

theorem Analysis.zone_of_mem_adapt {w : Analysis.Window} {payload : Json.Value} {e : EngineShape}
    {a b : ChartPoint} (he : e ∈ (Analysis.adapt w payload).shapes)
    (hg : e.shape.geometry = .zone a b) : a.time = w.start ∧ b.time = w.stop := by
  have hadapted : some e ∈ Analysis.adapted w payload := by
    obtain ⟨answer, hanswer, rfl⟩ := List.mem_filterMap.mp he
    exact hanswer
  rcases List.mem_append.mp hadapted with hlevel | hzone
  · obtain ⟨i, hi, hshape⟩ := List.mem_mapIdx.mp hlevel
    obtain ⟨l, -, hl⟩ := Option.bind_eq_some_iff.mp hshape
    split at hl
    · cases hl
      cases hg
    · cases hl
  · obtain ⟨g, -, hmem⟩ := List.mem_flatMap.mp hzone
    obtain ⟨i, hi, hshape⟩ := List.mem_mapIdx.mp hmem
    obtain ⟨z, -, hz⟩ := Option.bind_eq_some_iff.mp hshape
    split at hz
    · cases hz
      cases hg
      exact ⟨rfl, rfl⟩
    · cases hz

theorem Task.not_leads_sync (k : Task) (c : Client) : ¬ k.Leads (.sync c) := by
  unfold Task.Leads
  split <;> simp

namespace Page

variable {p q : Page} {t u : Ticket} {kind : Task → Prop} {loaded : List Ticket}

def asked (p q : Page) : List Ticket :=
  q.pending.filterMap fun
    | .analysis _ t n => if p.requests.length ≤ n then some t else none
    | _ => none

theorem mem_asked : u ∈ p.asked q ↔
    ∃ c n, .analysis c u n ∈ q.pending ∧ p.requests.length ≤ n := by
  unfold asked
  rw [List.mem_filterMap]
  constructor
  · rintro ⟨k, hk, hsome⟩
    split at hsome
    · simp only [Option.ite_none_right_eq_some, Option.some.injEq] at hsome
      obtain ⟨hnew, rfl⟩ := hsome
      exact ⟨_, _, hk, hnew⟩
    · cases hsome
  · rintro ⟨c, n, hk, hnew⟩
    exact ⟨_, hk, if_pos hnew⟩

/-- Nobody but the panel loads or syncs, not even a listener, and sessions only begin with
loads. -/
def Happening.byPanel : Happening → Bool
  | .call c => decide (Listener.workOf c = 0)
  | .load _ | .tick => false
  | .operate e => e.keepsSession
  | _ => true

theorem Happening.calm_of_byPanel {x : Happening} (hx : x.byPanel = true) : x.calm = true := by
  cases x with
  | call c => exact HostCall.calm_of_workOf (of_decide_eq_true hx)
  | _ => rfl

def Readable (p : Page) (request : Nat) : Prop :=
  ∃ a, p.answer? request = some a ∧ (candlesOf a).isOk = true

/-- One step of a run: the page that it finds, the sessions whose history was taken before, and what
happens. -/
structure Visit where
  page : Page
  loaded : List Ticket
  next : Happening

def visits (p : Page) (loaded : List Ticket) : List Happening → List Visit
  | [] => []
  | x :: hs => ⟨p, loaded, x⟩ :: (p.happen x).visits (loaded ++ (p.taken? x).toList) hs

namespace Visit

/-- Whatever analysis is asked for is for the session on display, and its history was taken. -/
def AsksLoaded (v : Visit) : Prop :=
  ∀ u ∈ v.page.asked (v.page.happen v.next), v.page.board.currentTicket? = some u ∧
    u ∈ v.loaded ++ (v.page.taken? v.next).toList

instance (v : Visit) : Decidable v.AsksLoaded := inferInstanceAs (Decidable (∀ u ∈ _, _))

/-- A load of the panel gets its history when another session is displayed, whose own history was
not taken yet. -/
def Overtaken (v : Visit) : Prop :=
  ∃ n t request u, v.next = .turn n ∧ v.page.ready[n]? = some (.history .panel t request) ∧
    v.page.Readable request ∧ v.page.board.currentTicket? = some u ∧ u ≠ t ∧ u ∉ v.loaded

end Visit

def NoSync (p : Page) : Prop := ∀ c, Task.sync c ∉ p.pending

section Tasks

theorem NoSync.happen (h : p.NoSync) (hp : p.Calm) {x : Happening} (hx : x.byPanel = true) :
    (p.happen x).NoSync := by
  intro c hc
  rcases (adds_happen hp (Happening.calm_of_byPanel hx)).tasks _ hc rfl with hold | ⟨hleads, -⟩
  · exact h c hold
  · cases x with
    | call c => exact HostCall.not_leads_of_workOf (of_decide_eq_true hx) _ hleads
    | tick => cases hx
    | turn n =>
      obtain ⟨j, -, hj⟩ := hleads
      exact Task.not_leads_sync j c hj
    | load | mount | symbol =>
      obtain ⟨_, hnone⟩ := hleads
      cases hnone
    | _ => exact hleads

end Tasks

section Asked

theorem not_mem_asked (h : Adds kind p q) (hp : p.Numbered)
    (hkind : ∀ c n, ¬ kind (.analysis c u n)) : u ∉ p.asked q := by
  intro hu
  obtain ⟨c, n, hk, hnew⟩ := mem_asked.mp hu
  rcases h.tasks _ hk rfl with hold | ⟨hbrought, -⟩
  · exact Nat.not_lt_of_le hnew (hp _ hold n rfl)
  · exact hkind c n hbrought

theorem not_mem_asked_of_none (h : AddsNone p q) (hp : p.Numbered) : u ∉ p.asked q :=
  not_mem_asked h hp fun _ _ => False.elim

theorem mem_asked_beginSync (h : AddsNone p q) (hp : p.Numbered) (c : Client) :
    u ∈ p.asked (q.beginSync c) ↔ q.board.currentTicket? = some u := by
  cases hcurrent : q.board.currentTicket? with
  | none =>
    have hsettled : q.beginSync c = q.settle c (.error (.validation "no symbol loaded")) := by
      simp [beginSync, hcurrent]
    have hnone : AddsNone p (q.settle c (.error (.validation "no symbol loaded"))) :=
      h.trans (addsNone_settle q c _)
    rw [hsettled]
    exact iff_of_false (not_mem_asked_of_none hnone hp) (by simp)
  | some t =>
    let sent := (q.fetch q.places (Route.annotations q.config.apiBaseUrl t.symbol)).1
    have hasked : q.beginSync c = sent.suspend (.analysis c t q.requests.length) := by
      simp only [beginSync, hcurrent]
      rfl
    rw [hasked, mem_asked, Option.some.injEq]
    constructor
    · rintro ⟨d, n, hk, hnew⟩
      rcases mem_pending_suspend.mp hk with hold | hsame
      · have hasked : u ∈ p.asked q := mem_asked.mpr ⟨d, n, hold, hnew⟩
        exact absurd hasked (not_mem_asked_of_none h hp)
      · cases hsame
        rfl
    · rintro rfl
      exact ⟨c, _, mem_pending_suspend.mpr (.inr rfl), h.requests⟩

theorem mem_asked_turn {n request : Nat} (hp : p.Numbered)
    (hk : p.ready[n]? = some (.history .panel t request)) :
    u ∈ p.asked (p.happen (.turn n)) ↔
      p.Readable request ∧ p.board.currentTicket? = some u := by
  let taken : Page := { p with ready := p.ready.eraseIdx n }
  have hturn : p.happen (.turn n) = taken.run (.history .panel t request) := by
    simp only [happen, hk, taken]
  rw [hturn]
  cases ha : p.answer? request with
  | none =>
    have hback : taken.run (.history .panel t request) =
        taken.suspend (.history .panel t request) := by
      have hanswer : taken.answer? request = none := ha
      simp only [run, hanswer]
    have hnone : AddsNone p (taken.suspend (.history .panel t request)) :=
      addsNone_putBack hk rfl
    rw [hback]
    exact iff_of_false (not_mem_asked_of_none hnone hp) (by simp [Readable, ha])
  | some a =>
    have hload : taken.run (.history .panel t request) = taken.finishLoad .panel t a := by
      have hanswer : taken.answer? request = some a := ha
      simp only [run, hanswer]
    obtain ⟨q, result, hq, hcurrent, hfinish, hok⟩ := finishLoad_cases taken .panel t a
    have hadds : AddsNone p q := (addsNone_taken p n).trans hq
    rw [hload, hfinish]
    have hreadable : p.Readable request ↔ result.isOk = true := by
      simp [Readable, ha, hok]
    rw [hreadable]
    cases result with
    | ok count =>
      have hsync : q.settleLoad .panel (.ok count) = q.beginSync .panelSync := rfl
      rw [hsync, mem_asked_beginSync hadds hp, hcurrent]
      exact (and_iff_right rfl).symm
    | error f =>
      have hnone : AddsNone p (q.settleLoad .panel (.error f)) :=
        hadds.trans (addsNone_settle q .panel (.error f))
      refine iff_of_false (not_mem_asked_of_none hnone hp) ?_
      rintro ⟨hfalse, -⟩
      cases hfalse

structure PanelOnly (p : Page) : Prop where
  numbered : p.Numbered
  noSync : p.NoSync
  calm : p.Calm

theorem mem_asked_happen (hp : p.PanelOnly) {x : Happening} (hx : x.byPanel = true) :
    u ∈ p.asked (p.happen x) ↔ ∃ n t request, x = .turn n ∧
      p.ready[n]? = some (.history .panel t request) ∧ p.Readable request ∧
      p.board.currentTicket? = some u := by
  constructor
  · intro hu
    obtain ⟨c, m, hk, hnew⟩ := mem_asked.mp hu
    have hadds := adds_happen hp.calm (Happening.calm_of_byPanel hx)
    rcases hadds.tasks _ hk rfl with hold | ⟨hleads, -⟩
    · exact absurd (hp.numbered _ hold m rfl) (Nat.not_lt_of_le hnew)
    cases x with
    | call => exact (HostCall.not_leads_of_workOf (of_decide_eq_true hx) _ hleads).elim
    | tick => cases hx
    | load | mount | symbol =>
      obtain ⟨_, hnone⟩ := hleads
      cases hnone
    | turn n =>
      obtain ⟨j, hj, hleads⟩ := hleads
      have hmem : j ∈ p.pending := mem_pending.mpr (.inl (List.mem_of_getElem? hj))
      unfold Task.Leads at hleads
      split at hleads
      · obtain ⟨_, _, hnone⟩ := hleads
        cases hnone
      · obtain ⟨_, _, hnone⟩ := hleads
        cases hnone
      · rename_i t request
        exact ⟨n, t, request, rfl, hj, (mem_asked_turn hp.numbered hj).mp hu⟩
      · exact absurd hmem (hp.noSync _)
      · obtain ⟨_, hnone⟩ := hleads
        cases hnone
      · exact hleads.elim
    | _ => exact hleads.elim
  · rintro ⟨n, t, request, rfl, hk, hasked⟩
    exact (mem_asked_turn hp.numbered hk).mpr hasked

end Asked

section Runs

theorem takes_of_readable {request : Nat} (hr : p.Readable request)
    (hcurrent : p.board.isCurrent t = true) (c : Client) :
    p.takes? (.history c t request) = some t := by
  obtain ⟨a, ha, hok⟩ := hr
  cases hcandles : candlesOf a with
  | error f => simp [hcandles, Except.isOk, Except.toBool] at hok
  | ok cs => simp [takes?, ha, hcandles, Board.applyHistory_reply, hcurrent]

theorem asksLoaded_iff {v : Visit} (hp : v.page.PanelOnly) (hx : v.next.byPanel = true) :
    v.AsksLoaded ↔ ¬ v.Overtaken := by
  constructor
  · rintro hasks ⟨n, t, request, u, hturn, hk, hr, hdisplay, hother, hunloaded⟩
    have hasked := (mem_asked_happen hp hx).mpr ⟨n, t, request, hturn, hk, hr, hdisplay⟩
    have htaken : v.page.taken? v.next = some u := by
      simpa [hunloaded] using (hasks u hasked).2
    rw [hturn] at htaken
    have htakes : v.page.takes? (.history .panel t request) = some u := by
      simpa [taken?, hk] using htaken
    obtain ⟨_, _, _, _, hsame, -, -, -⟩ := takes_eq_some htakes
    cases hsame
    exact hother rfl
  · intro hnever u hu
    obtain ⟨n, t, request, hturn, hk, hr, hdisplay⟩ := (mem_asked_happen hp hx).mp hu
    refine ⟨hdisplay, ?_⟩
    by_contra hunloaded
    simp only [List.mem_append, not_or] at hunloaded
    refine hnever ⟨n, t, request, u, hturn, hk, hr, hdisplay, ?_, hunloaded.1⟩
    rintro rfl
    have hcurrent : v.page.board.isCurrent u = true := (Option.filter_eq_some_iff.mp hdisplay).2
    have htaken : v.page.taken? v.next = some u := by
      simp [hturn, taken?, hk, takes_of_readable hr hcurrent]
    exact hunloaded.2 (by simp [htaken])

theorem PanelOnly.happen (h : p.PanelOnly) {x : Happening} (hx : x.byPanel = true) :
    (p.happen x).PanelOnly := by
  have hadds := adds_happen h.calm (Happening.calm_of_byPanel hx)
  exact ⟨hadds.numbered h.numbered, h.noSync.happen h.calm hx, hadds.calm h.calm⟩

theorem PanelOnly.visits (h : p.PanelOnly) {hs : List Happening}
    (hpanel : ∀ x ∈ hs, x.byPanel = true) :
    ∀ v ∈ p.visits loaded hs, v.page.PanelOnly ∧ v.next.byPanel = true := by
  induction hs generalizing p loaded with
  | nil => exact fun _ hv => (List.not_mem_nil hv).elim
  | cons x hs ih =>
    have hx : x.byPanel = true := hpanel x List.mem_cons_self
    intro v hv
    rcases List.mem_cons.mp hv with rfl | hv
    · exact ⟨h, hx⟩
    · exact ih (h.happen hx) (fun y hy => hpanel y (List.mem_cons_of_mem x hy)) v hv

theorem panelOnly_opened (h : Host) (c : Config) (storage : Storage) (desk : Desk)
    (session : Vault) : (opened h c storage desk session).PanelOnly :=
  ⟨fun _ hk => (List.not_mem_nil hk).elim, fun _ hk => List.not_mem_nil hk, rfl⟩

theorem loaded_of_waiting (h : p.PanelOnly) {hs : List Happening}
    (hpanel : ∀ x ∈ hs, x.byPanel = true)
    (hwaiting : ∀ c t n, .analysis c t n ∈ p.pending → t ∈ loaded)
    (hnever : ∀ v ∈ p.visits loaded hs, ¬ v.Overtaken) :
    ∀ v ∈ p.visits loaded hs, ∀ c t n, .analysis c t n ∈ v.page.pending → t ∈ v.loaded := by
  induction hs generalizing p loaded with
  | nil => exact fun _ hv => (List.not_mem_nil hv).elim
  | cons x hs ih =>
    have hx : x.byPanel = true := hpanel x List.mem_cons_self
    have hasks : Visit.AsksLoaded ⟨p, loaded, x⟩ :=
      (asksLoaded_iff h hx).mpr (hnever _ List.mem_cons_self)
    have hnext : ∀ c t n, .analysis c t n ∈ (p.happen x).pending →
        t ∈ loaded ++ (p.taken? x).toList := by
      intro c t n hk
      have hadds := adds_happen h.calm (Happening.calm_of_byPanel hx)
      rcases hadds.tasks _ hk rfl with hold | ⟨-, hnew⟩
      · exact List.mem_append_left _ (hwaiting c t n hold)
      · exact (hasks t (mem_asked.mpr ⟨c, n, hk, (hnew n rfl).1⟩)).2
    intro v hv
    rcases List.mem_cons.mp hv with rfl | hv
    · exact hwaiting
    · exact ih (h.happen hx) (fun y hy => hpanel y (List.mem_cons_of_mem x hy)) hnext
        (fun w hw => hnever w (List.mem_cons_of_mem _ hw)) v hv

theorem engine_turn_analysis {n request : Nat} {c : Client} {a : Answer} {payload : Json.Value}
    (hk : p.ready[n]? = some (.analysis c t request)) (ha : p.answer? request = some a)
    (hpayload : document a = .ok payload) (hcurrent : p.board.isCurrent t = true) :
    (p.happen (.turn n)).board.engine =
      (Analysis.adapt (p.board.analysisWindow p.moment) payload).shapes := by
  let taken : Page := { p with ready := p.ready.eraseIdx n }
  have hanswer : taken.answer? request = some a := ha
  have hturn : p.happen (.turn n) = taken.finishSync c t a := by
    simp only [happen, hk, run, taken] at hanswer ⊢
    rw [hanswer]
  have hengine : (p.board.applyAnalysis p.moment t payload).state.engine =
      (Analysis.adapt (p.board.analysisWindow p.moment) payload).shapes := by
    rw [Board.applyAnalysis_state, if_pos hcurrent]
  obtain ⟨_, _, _, _, hdrawn⟩ :=
    repainted_redraw (taken.step (p.board.applyAnalysis p.moment t payload)).1
  rw [hturn, finishSync, hpayload]
  dsimp only
  rw [(aside_settle _ c _).board]
  show (Page.redraw _).board.engine = _
  rw [← hengine]
  exact congrArg (·.board.engine) hdrawn

end Runs

/-- In a run in which only the panel loads and syncs, each step that asks for an analysis asks for
the session on display with its history there, unless it ends a load that was overtaken by a change
of symbol whose own history is still on its way. If no step does, the zones of every analysis that
is taken reach from the first to the last candle of its session. -/
theorem panel_asks_loaded_iff (h : Host) (c : Config) (storage : Storage) (desk : Desk)
    (session : Vault) (hs : List Happening) (hpanel : ∀ x ∈ hs, x.byPanel = true) :
    let run := (Page.opened h c storage desk session).visits [] hs
    (∀ v ∈ run, v.AsksLoaded ↔ ¬ v.Overtaken) ∧
      ((∀ v ∈ run, ¬ v.Overtaken) → ∀ v ∈ run, ∀ n c t request a payload, v.next = .turn n →
        v.page.ready[n]? = some (.analysis c t request) → v.page.answer? request = some a →
        document a = .ok payload → v.page.board.isCurrent t = true →
        t ∈ v.loaded ∧
          ∀ first last, v.page.board.feed.buffer.first? = some first →
            v.page.board.feed.buffer.last? = some last →
            ∀ e ∈ (v.page.happen v.next).board.engine, ∀ a b, e.shape.geometry = .zone a b →
              a.time = Timestamp.toFloat first.time ∧ b.time = Timestamp.toFloat last.time) := by
  intro run
  have hstart := panelOnly_opened h c storage desk session
  have hkept : ∀ v ∈ run, v.page.PanelOnly ∧ v.next.byPanel = true := hstart.visits hpanel
  refine ⟨fun v hv => ?_, ?_⟩
  · obtain ⟨hv, hx⟩ := hkept v hv
    exact asksLoaded_iff hv hx
  · rintro hnever v hv n c t request a payload hturn hk ha hpayload hcurrent
    constructor
    · exact loaded_of_waiting hstart hpanel (fun _ _ _ hk => (List.not_mem_nil hk).elim) hnever v hv
        c t request (mem_pending.mpr (.inl (List.mem_of_getElem? hk)))
    · intro first last hfirst hlast e he a b hzone
      rw [hturn, engine_turn_analysis hk ha hpayload hcurrent] at he
      have hwindow : v.page.board.analysisWindow v.page.moment =
          ⟨Timestamp.toFloat first.time, Timestamp.toFloat last.time, v.page.moment.now⟩ := by
        simp [Board.analysisWindow, CandleBuffer.span?, hfirst, hlast, Analysis.Window.over]
      have hends := Analysis.zone_of_mem_adapt he hzone
      rwa [hwindow] at hends

def shownSymbol : List Happening :=
  let bar := "\x7b\"time\":60,\"open\":1,\"high\":2,\"low\":1,\"close\":2\x7d"
  let later := "\x7b\"time\":120,\"open\":2,\"high\":3,\"low\":2,\"close\":3\x7d"
  let zone := "\x7b\"zones\":[\x7b\"priceFrom\":1,\"priceTo\":2\x7d]\x7d"
  [.mount Viewport.initial .select "EURUSD", .turn 0, .turn 0, .turn 0, .turn 0,
    .respond 0 (.response 200 "OK" ("[" ++ bar ++ "]")), .turn 0, .message 0 later,
    .respond 1 (.response 200 "OK" zone), .turn 1]

theorem panel_asks_loaded_iff_of_shownSymbol :
    let run := (Page.opened {} {} .areaOfPage { clock := 0 } {}).visits [] shownSymbol
    (∀ x ∈ shownSymbol, x.byPanel = true) ∧ (∀ v ∈ run, ¬ v.Overtaken) ∧
      ∃ v ∈ run, (v.page.happen v.next).board.engine.map (·.shape.geometry) =
        [.zone ⟨Double.ofNat 60, Double.ofNat 1⟩ ⟨Double.ofNat 120, Double.ofNat 2⟩] := by
  intro run
  have hpanel : ∀ x ∈ shownSymbol, x.byPanel = true := by decide
  have hasks : ∀ v ∈ run, v.AsksLoaded := by decide +kernel
  have hiff := (panel_asks_loaded_iff {} {} .areaOfPage { clock := 0 } {} shownSymbol hpanel).1
  have hzone : ∃ v ∈ run, (v.page.happen v.next).board.engine.map (·.shape.geometry) =
      [.zone ⟨Double.ofNat 60, Double.ofNat 1⟩ ⟨Double.ofNat 120, Double.ofNat 2⟩] := by
    decide +kernel
  exact ⟨hpanel, fun v hv => (hiff v hv).mp (hasks v hv), hzone⟩

def overtakenLoad : List Happening :=
  [.mount Viewport.initial .select "EURUSD", .turn 0, .turn 0, .turn 0, .turn 0, .symbol "GBPUSD",
    .turn 0, .respond 0 (.response 200 "OK" "[]"), .turn 0]

theorem unloaded_symbol_asked :
    ¬ ∀ (h : Host) (c : Config) (storage : Storage) (desk : Desk) (session : Vault)
        (hs : List Happening), (∀ x ∈ hs, x.byPanel = true) →
        ∀ v ∈ (Page.opened h c storage desk session).visits [] hs, v.AsksLoaded := by
  intro h
  have hpanel : ∀ x ∈ overtakenLoad, x.byPanel = true := by decide
  have hasks := h {} {} .areaOfPage { clock := 0 } {} overtakenLoad hpanel
  exact absurd hasks (by decide +kernel)

end Page

end MarketSketch
