import MarketSketch.Proofs.Paint.Picture

/-! Frames on a surface that refuses. The frame ends with the first call that is refused, only that
a draft whose label is refused still has its dash put back. So what the surface is asked for is the
beginning of the script, and a solid line is left. -/

namespace MarketSketch

/-- A call as a surface answered it. One that was refused has no effect. -/
structure Asked where
  call : Call
  refusal? : Option Failure
deriving DecidableEq

namespace Asked

def met (c : Call) : Asked := ⟨c, none⟩

def granted (as : List Asked) : List Call := (as.filter (·.refusal?.isNone)).map (·.call)

def lastRefusal? (as : List Asked) : Option Failure := (as.filterMap (·.refusal?)).getLast?

/-- The calls that make the line solid, as far as that needs them: a draft in a solid line leaves
one by itself. -/
def resets (s : Style) (as : List Asked) : List Asked :=
  (if s.draftDash = [] then as.take 2 else as).filter (·.call = .dash [])

variable (as bs : List Asked) (calls : List Call)

@[simp] theorem granted_append : granted (as ++ bs) = granted as ++ granted bs := by
  simp [granted]

@[simp] theorem granted_met : granted (calls.map met) = calls := by
  induction calls with
  | nil => rfl
  | cons c calls ih => simpa [granted, met] using ih

@[simp] theorem granted_single (c : Call) (f? : Option Failure) :
    granted [⟨c, f?⟩] = if f?.isNone then [c] else [] := by
  cases f? <;> rfl

@[simp] theorem map_call_met : (calls.map met).map (·.call) = calls := by
  rw [List.map_map]
  exact List.map_id calls

@[simp] theorem lastRefusal?_append :
    lastRefusal? (as ++ bs) = (lastRefusal? bs).or (lastRefusal? as) := by
  simp [lastRefusal?, List.getLast?_append]

@[simp] theorem lastRefusal?_met : lastRefusal? (calls.map met) = none := by
  simp [lastRefusal?, met, List.filterMap_map, Function.comp_def]

@[simp] theorem lastRefusal?_single (c : Call) (f? : Option Failure) :
    lastRefusal? [⟨c, f?⟩] = f? := by
  cases f? <;> rfl

theorem isSome_lastRefusal? : (lastRefusal? as).isSome ↔ ∃ a ∈ as, a.refusal?.isSome := by
  simp [lastRefusal?, Option.isSome_iff_ne_none]

end Asked

open Asked

namespace Surface

variable {σ : Type}

def asked (surface : Surface σ) : Surface (σ × List Asked) := fun c x =>
  (((surface c x.1).1, x.2 ++ [⟨c, (surface c x.1).2⟩]), (surface c x.1).2)

/-- Only setting the dash and writing text can be refused. -/
def Fragile (surface : Surface σ) : Prop :=
  ∀ c x, (surface c x).2.isSome → (FragileCall.of? c).isSome

def refusing (numbers : List Nat) : Surface Nat := fun c n =>
  match FragileCall.of? c with
  | none => (n, none)
  | some k => (n + 1, if n ∈ numbers then some (.rendering (k.name ++ " failed")) else none)

theorem fragile_refusing (numbers : List Nat) : (refusing numbers).Fragile := by
  intro c n h
  unfold refusing at h
  split at h
  · cases h
  · rename_i k hk
    rw [hk]
    rfl

end Surface

/-- What is asked for when calls are made in order: all of them, or those up to a refusal. -/
inductive Cut : List Call → List Asked → Option Failure → Prop
  | whole (calls : List Call) : Cut calls (calls.map met) none
  | refused (made : List Call) {c : Call} (rest : List Call) (e : Failure)
      (fragile : (FragileCall.of? c).isSome) :
      Cut (made ++ c :: rest) (made.map met ++ [⟨c, some e⟩]) (some e)

namespace Cut

variable {calls : List Call} {as : List Asked} {f? : Option Failure}

theorem cons (h : Cut calls as f?) (c : Call) : Cut (c :: calls) (met c :: as) f? := by
  cases h with
  | whole => exact .whole (c :: calls)
  | refused made rest e fragile => exact .refused (c :: made) rest e fragile

theorem lastRefusal? (h : Cut calls as f?) : lastRefusal? as = f? := by
  cases h <;> simp

theorem isPrefix (h : Cut calls as f?) : as.map (·.call) <+: calls := by
  cases h with
  | whole calls => exact ⟨[], by rw [List.append_nil, map_call_met]⟩
  | refused made rest => exact ⟨rest, by rw [List.map_append, map_call_met]; simp⟩

theorem all_met (h : Cut calls as none) : as = calls.map met := by
  cases h
  rfl

theorem eq_single {c : Call} (h : Cut [c] as f?) : as = [⟨c, f?⟩] := by
  generalize hcalls : [c] = calls at h
  cases h with
  | whole =>
    subst hcalls
    rfl
  | refused made =>
    obtain ⟨rfl, hlast⟩ | ⟨-, hnone⟩ := List.append_eq_singleton_iff.mp hcalls.symm
    · cases hlast
      rfl
    · cases hnone

theorem mem_of_mem_granted (h : Cut calls as f?) {c : Call} (hc : c ∈ granted as) : c ∈ calls := by
  cases h with
  | whole calls => rwa [granted_met] at hc
  | refused made =>
    rw [granted_append, granted_met, granted_single, Option.isNone_some, if_neg Bool.false_ne_true,
      List.append_nil] at hc
    exact List.mem_append_left _ hc

theorem all_asked_of_last (h : Cut calls as f?)
    (hlast : ∀ made c rest, calls = made ++ c :: rest → (FragileCall.of? c).isSome → rest = []) :
    as.map (·.call) = calls := by
  cases h with
  | whole calls => exact map_call_met calls
  | refused made rest e fragile =>
    obtain rfl := hlast made _ rest rfl fragile
    rw [List.map_append, map_call_met, List.map_singleton]

end Cut

section Surface

variable {σ τ : Type} {surface : Surface σ}

theorem perform_asked (hsurface : surface.Fragile) (calls : List Call) (x : σ)
    (past : List Asked) :
    ∃ y as f?, perform surface.asked calls (x, past) = ((y, past ++ as), f?) ∧
      perform surface calls x = (y, f?) ∧ Cut calls as f? := by
  induction calls generalizing x past with
  | nil => exact ⟨x, [], none, by simp [perform], rfl, .whole []⟩
  | cons c calls ih =>
    rcases hc : surface c x with ⟨y, _ | e⟩
    · obtain ⟨z, as, f?, hasked, hplain, hcut⟩ := ih y (past ++ [met c])
      refine ⟨z, met c :: as, f?, ?_, ?_, hcut.cons c⟩
      · simpa [perform, Surface.asked, hc, met] using hasked
      · simpa [perform, hc] using hplain
    · have hfragile := hsurface c x (by rw [hc]; rfl)
      exact ⟨y, [⟨c, some e⟩], some e, by simp [perform, Surface.asked, hc],
        by simp [perform, hc], .refused [] calls e hfragile⟩

end Surface

section Shape

variable {s : Style} {v : Projection Float}

theorem shapeCalls_eq_append {p : Paint} {shape : Shape} {calls : List Call}
    (h : shapeCalls? s v p shape = some calls) :
    ∃ plain label, calls = plain ++ label ∧ (∀ c ∈ plain, FragileCall.of? c = none) ∧
      label.length ≤ 1 ∧ ∀ c ∈ label, FragileCall.of? c = some .text := by
  obtain ⟨g, -, rfl⟩ := Option.map_eq_some_iff.mp h
  let drawn := .stroke p.stroke p.width :: (outline g p v.width s.labelPadding).1
  let place := (outline g p v.width s.labelPadding).2
  have hdrawn : ∀ c ∈ drawn, FragileCall.of? c = none := by
    cases g <;> simp [drawn, outline, FragileCall.of?]
  have hnamed : ∃ plain label, labelCalls shape.label p place s.labelFont = plain ++ label ∧
      (∀ c ∈ plain, FragileCall.of? c = none) ∧ label.length ≤ 1 ∧
      ∀ c ∈ label, FragileCall.of? c = some .text := by
    unfold labelCalls
    split
    · split
      · exact ⟨[], [], rfl, by simp, by simp, by simp⟩
      · exact ⟨[.fill p.stroke], [.text _ place s.labelFont], rfl, by simp [FragileCall.of?],
          by simp, by simp [FragileCall.of?]⟩
    · exact ⟨[], [], rfl, by simp, by simp, by simp⟩
  obtain ⟨plain, label, hlabel, hplain, hlength, htext⟩ := hnamed
  refine ⟨drawn ++ plain, label, ?_, ?_, hlength, htext⟩
  · rw [List.append_assoc, ← hlabel]
  · intro c hc
    exact (List.mem_append.mp hc).elim (hdrawn c) (hplain c)

theorem not_dash_shapeCalls {p : Paint} {shape : Shape} {calls : List Call}
    (h : shapeCalls? s v p shape = some calls) (pattern : List Float) : .dash pattern ∉ calls := by
  obtain ⟨plain, label, rfl, hplain, -, hlabel⟩ := shapeCalls_eq_append h
  intro hmem
  rcases List.mem_append.mp hmem with hmem | hmem
  · cases hplain _ hmem
  · cases hlabel _ hmem

theorem last_of_fragile_shapeCalls {p : Paint} {shape : Shape} {made rest : List Call} {c : Call}
    (h : shapeCalls? s v p shape = some (made ++ c :: rest))
    (hc : (FragileCall.of? c).isSome) : rest = [] := by
  obtain ⟨plain, label, heq, hplain, hlength, -⟩ := shapeCalls_eq_append h
  have hlast (before : List Call) (htail : label = before ++ c :: rest) : rest = [] := by
    rw [htail, List.length_append, List.length_cons] at hlength
    exact List.eq_nil_of_length_eq_zero (by omega)
  rcases List.append_eq_append_iff.mp heq with ⟨between, hall, htail⟩ | ⟨between, -, htail⟩
  · cases between with
    | nil => exact hlast [] htail.symm
    | cons d between =>
      obtain ⟨rfl, -⟩ := List.cons.inj htail
      rw [hplain c (by simp [hall])] at hc
      cases hc
  · exact hlast _ htail

end Shape

section Dash

variable (pen : Pen)

theorem dash_after_of_not_mem {calls : List Call} (h : ∀ pattern, .dash pattern ∉ calls) :
    (pen.after calls).ink.dash = pen.ink.dash := by
  induction calls generalizing pen with
  | nil => rfl
  | cons c calls ih =>
    have hrest : ∀ pattern, .dash pattern ∉ calls := fun pattern hmem =>
      h pattern (List.mem_cons_of_mem c hmem)
    rw [Pen.after_cons, ih (pen.take c) hrest]
    cases c with
    | dash pattern => exact absurd List.mem_cons_self (h pattern)
    | _ => rfl

theorem Cut.dash_eq {calls : List Call} {as : List Asked} {f? : Option Failure} {w h : Float}
    (hcut : Cut (.clear w h :: .dash [] :: calls) as f?) (hcalls : ∀ pattern, .dash pattern ∉ calls)
    (hreset : ∀ a ∈ as.take 2, a.call = .dash [] → a.refusal? = none) :
    (pen.after (granted as)).ink.dash = [] := by
  generalize hall : Call.clear w h :: .dash [] :: calls = all at hcut
  cases hcut with
  | whole =>
    subst hall
    rw [granted_met, Pen.after_cons, Pen.after_cons, dash_after_of_not_mem _ hcalls]
    rfl
  | refused made rest e fragile =>
    rename_i c
    match made, hall with
    | [], hall =>
      cases hall
      cases fragile
    | [_], hall =>
      cases hall
      cases hreset ⟨.dash [], some e⟩ (by simp) rfl
    | _ :: _ :: made, hall =>
      cases hall
      have hmade : ∀ pattern, .dash pattern ∉ made := fun pattern hmem =>
        hcalls pattern (List.mem_append_left _ hmem)
      rw [granted_append, granted_met, granted_single]
      simpa using (dash_after_of_not_mem _ hmade : _ = [])

end Dash

namespace Frame

variable {σ : Type} {surface : Surface σ} (f : Frame) (s : Style) (v : Projection Float)

theorem not_dash_shapes (pattern : List Float) : .dash pattern ∉ (f.shapes s v).flatten := by
  intro hmem
  obtain ⟨calls, hcalls, hdash⟩ := List.mem_flatten.mp hmem
  rcases List.mem_append.mp hcalls with hengine | huser
  · obtain ⟨e, -, he⟩ := List.mem_filterMap.mp hengine
    exact not_dash_shapeCalls he pattern hdash
  · obtain ⟨u, -, hu⟩ := List.mem_filterMap.mp huser
    exact not_dash_shapeCalls hu pattern hdash

theorem not_dash_draftCalls (pattern : List Float) :
    .dash pattern ∉ (f.draftCalls? s v).getD [] := by
  cases hdraft : f.draftCalls? s v with
  | none => exact List.not_mem_nil
  | some calls =>
    obtain ⟨d, -, hd⟩ := Option.bind_eq_some_iff.mp hdraft
    exact not_dash_shapeCalls hd pattern

theorem draft_all_asked {as : List Asked} {f? : Option Failure}
    (h : Cut ((f.draftCalls? s v).getD []) as f?) :
    as.map (·.call) = (f.draftCalls? s v).getD [] := by
  refine h.all_asked_of_last fun made c rest hcalls hc => ?_
  cases hdraft : f.draftCalls? s v with
  | none => simp [hdraft] at hcalls
  | some calls =>
    obtain ⟨d, -, hd⟩ := Option.bind_eq_some_iff.mp hdraft
    rw [hdraft, Option.getD_some] at hcalls
    exact last_of_fragile_shapeCalls (hcalls ▸ hd) hc

/-- The four ways in which a frame ends: in the background, there if it has no draft, at the dash of
its draft, and with the dash put back after a draft that may have lost its label. -/
inductive Course : List Asked → Except Failure Nat → Prop
  | background {as : List Asked} {e : Failure} (cut : Cut (f.background s v) as (some e)) :
      Course as (.error e)
  | plain (noDraft : f.draft? = none) : Course ((f.background s v).map met) (.ok (f.count s v))
  | dash (drafts : f.draft?.isSome) (e : Failure) :
      Course ((f.background s v).map met ++ [⟨.dash s.draftDash, some e⟩]) (.error e)
  | reset (drafts : f.draft?.isSome) {as : List Asked} {drew? : Option Failure}
      (cut : Cut ((f.draftCalls? s v).getD []) as drew?) (reset? : Option Failure) :
      Course
        ((f.background s v).map met ++ [met (.dash s.draftDash)] ++ as ++ [⟨.dash [], reset?⟩])
        ((reset?.or drew?).elim (.ok (f.count s v)) .error)

section Steps

variable {f s v} {x x₁ x₂ x₃ x₄ : σ}

theorem render_of_cut {e : Failure} (hback : perform surface (f.background s v) x = (x₁, some e)) :
    f.render s v surface x = (x₁, .error e) := by
  simp [render, hback]

theorem render_of_no_draft (hback : perform surface (f.background s v) x = (x₁, none))
    (hd : f.draft? = none) : f.render s v surface x = (x₁, .ok (f.count s v)) := by
  simp [render, hback, hd]

theorem render_of_no_dash {e : Failure}
    (hback : perform surface (f.background s v) x = (x₁, none)) (hd : f.draft?.isSome)
    (hdash : perform surface [.dash s.draftDash] x₁ = (x₂, some e)) :
    f.render s v surface x = (x₂, .error e) := by
  simp [render, hback, Option.ne_none_iff_isSome.mpr hd, hdash]

theorem render_of_dash {drew? reset? : Option Failure}
    (hback : perform surface (f.background s v) x = (x₁, none)) (hd : f.draft?.isSome)
    (hdash : perform surface [.dash s.draftDash] x₁ = (x₂, none))
    (hdraw : perform surface ((f.draftCalls? s v).getD []) x₂ = (x₃, drew?))
    (hreset : perform surface [.dash []] x₃ = (x₄, reset?)) :
    f.render s v surface x = (x₄, (reset?.or drew?).elim (.ok (f.count s v)) .error) := by
  simp only [render, hback, hdash, hdraw, hreset, Option.isNone_iff_eq_none,
    Option.ne_none_iff_isSome.mpr hd, if_false]
  cases reset?.or drew? <;> rfl

end Steps

theorem render_course (hsurface : surface.Fragile) (x : σ) :
    let r := f.render s v surface.asked (x, [])
    (r.1.1, r.2) = f.render s v surface x ∧ f.Course s v r.1.2 r.2 := by
  intro r
  obtain ⟨x₁, as₁, f₁, hback, hback', hcut₁⟩ := perform_asked hsurface (f.background s v) x []
  rw [List.nil_append] at hback
  rcases f₁ with _ | e
  case some =>
    rw [show r = _ from render_of_cut hback, render_of_cut hback']
    exact ⟨rfl, .background hcut₁⟩
  obtain rfl := hcut₁.all_met
  rcases hd : f.draft? with _ | d
  · rw [show r = _ from render_of_no_draft hback hd, render_of_no_draft hback' hd]
    exact ⟨rfl, .plain hd⟩
  have hdrafts : f.draft?.isSome := by rw [hd]; rfl
  obtain ⟨x₂, as₂, f₂, hdash, hdash', hcut₂⟩ :=
    perform_asked hsurface [.dash s.draftDash] x₁ ((f.background s v).map met)
  obtain rfl := hcut₂.eq_single
  rcases f₂ with _ | e
  case some =>
    rw [show r = _ from render_of_no_dash hback hdrafts hdash,
      render_of_no_dash hback' hdrafts hdash']
    exact ⟨rfl, .dash hdrafts e⟩
  obtain ⟨x₃, as₃, drew?, hdraw, hdraw', hcut₃⟩ :=
    perform_asked hsurface ((f.draftCalls? s v).getD []) x₂
      ((f.background s v).map met ++ [met (.dash s.draftDash)])
  obtain ⟨x₄, as₄, reset?, hreset, hreset', hcut₄⟩ :=
    perform_asked hsurface [.dash []] x₃
      ((f.background s v).map met ++ [met (.dash s.draftDash)] ++ as₃)
  obtain rfl := hcut₄.eq_single
  rw [show r = _ from render_of_dash hback hdrafts hdash hdraw hreset,
    render_of_dash hback' hdrafts hdash' hdraw' hreset']
  exact ⟨rfl, .reset hdrafts hcut₃ reset?⟩

section Course

variable {f s v} {as : List Asked} {result : Except Failure Nat}

theorem Course.isPrefix (h : f.Course s v as result) : as.map (·.call) <+: f.script s v := by
  cases h with
  | background cut => exact cut.isPrefix.trans (List.prefix_append _ _)
  | plain noDraft =>
    rw [map_call_met, script, noDraft]
    exact List.prefix_append _ _
  | dash drafts e =>
    rw [script, if_pos drafts, List.map_append, map_call_met]
    exact (List.prefix_append_right_inj _).mpr (List.prefix_append [_] _)
  | reset drafts cut reset? =>
    simp only [script, if_pos drafts, List.map_append, map_call_met, draft_all_asked f s v cut,
      List.map_singleton, List.append_assoc]
    exact List.prefix_refl _

theorem Course.result_eq (h : f.Course s v as result) :
    result = (lastRefusal? as).elim (.ok (f.count s v)) .error := by
  cases h with
  | background cut => rw [cut.lastRefusal?]; rfl
  | plain => rw [lastRefusal?_met]; rfl
  | dash drafts e => rw [lastRefusal?_append, lastRefusal?_single]; rfl
  | reset drafts cut reset? =>
    have hdash : lastRefusal? [met (.dash s.draftDash)] = none := rfl
    simp only [lastRefusal?_append, lastRefusal?_single, cut.lastRefusal?, lastRefusal?_met, hdash,
      Option.or_none]

theorem Course.dash_eq (h : f.Course s v as result) (pen : Pen)
    (hresets : ∀ a ∈ resets s as, a.refusal? = none) : (pen.after (granted as)).ink.dash = [] := by
  have hshapes := f.not_dash_shapes s v
  have hsolid : (pen.after (f.background s v)).ink.dash = [] := (f.background_marks s v pen).2
  cases h with
  | background cut =>
    refine cut.dash_eq pen hshapes fun a ha hcall => hresets a ?_
    have hmem : a ∈ if s.draftDash = [] then as.take 2 else as := by
      split
      · exact ha
      · exact List.mem_of_mem_take ha
    exact List.mem_filter.mpr ⟨hmem, by simpa using hcall⟩
  | plain => rwa [granted_met]
  | dash drafts e =>
    rw [granted_append, granted_met, granted_single]
    simpa using hsolid
  | reset drafts cut reset? =>
    rename_i drawn _
    by_cases hsolidDraft : s.draftDash = []
    · -- a draft in a solid line leaves it solid, whether or not it is made so again
      have hdrawn := dash_after_of_not_mem
        ((pen.after (f.background s v)).take (.dash s.draftDash))
        fun pattern hmem => f.not_dash_draftCalls s v pattern (cut.mem_of_mem_granted hmem)
      have hdash : granted [met (.dash s.draftDash)] = [.dash s.draftDash] := rfl
      simp only [granted_append, granted_met, hdash, granted_single, Pen.after_append,
        Pen.after_cons, Pen.after_nil]
      cases reset? with
      | none => rfl
      | some e => exact hdrawn.trans hsolidDraft
    · obtain rfl : reset? = none :=
        hresets ⟨.dash [], reset?⟩ (by simp [resets, hsolidDraft])
      rw [granted_append, granted_single, Pen.after_append]
      rfl

end Course

theorem calls_of_willing {willing : Surface σ} (hwilling : ∀ c y, (willing c y).2 = none) (y : σ) :
    (f.render s v willing.recorded (y, [])).1.2 = f.script s v := by
  have hrecorded : ∀ c y, (willing.recorded c y).2 = none := fun c y => hwilling c y.1
  have hdone := perform_of_willing hrecorded (f.script s v) (y, [])
  have hr := (f.render_eq_ok_iff s v).mpr ⟨Prod.ext rfl hdone, rfl⟩
  rw [hr]
  exact (perform_recorded willing (f.script s v) y []).2 hdone

/-- On a surface that may refuse dashes and texts, whichever they are, a frame asks for the first
of the calls that it makes on one that refuses nothing. It fails exactly if one of them was refused,
with the refusal that came last. And whatever the pen was, the line that is left is solid, if no
call that makes it so was refused. -/
theorem refused_frame_cut_short {τ : Type} (surface : Surface σ) (hsurface : surface.Fragile)
    (willing : Surface τ) (hwilling : ∀ c y, (willing c y).2 = none) (x : σ) (y : τ) (pen : Pen) :
    let r := f.render s v surface.asked (x, [])
    let whole := f.render s v willing.recorded (y, [])
    (r.1.1, r.2) = f.render s v surface x ∧
      r.1.2.map (·.call) <+: whole.1.2 ∧
      r.2 = (lastRefusal? r.1.2).elim (.ok (f.count s v)) .error ∧
      (r.2.isOk = false ↔ ∃ a ∈ r.1.2, a.refusal?.isSome) ∧
      ((∀ a ∈ resets s r.1.2, a.refusal? = none) →
        (pen.after (granted r.1.2)).ink.dash = []) := by
  intro r whole
  obtain ⟨hsame, hcourse⟩ := f.render_course s v hsurface x
  have hresult := hcourse.result_eq
  refine ⟨hsame, ?_, hresult, ?_, hcourse.dash_eq pen⟩
  · rw [show whole.1.2 = _ from f.calls_of_willing s v hwilling y]
    exact hcourse.isPrefix
  · rw [← isSome_lastRefusal?, hresult]
    cases lastRefusal? r.1.2 <;> simp [Except.isOk, Except.toBool]

def labelled : Frame :=
  let n := Double.ofNat
  { user := [⟨"l", 0, some "support", .level (n 30)⟩]
    draft? := some ⟨"d", 0, some "target", .zone ⟨n 50, n 50⟩ ⟨n 70, n 20⟩⟩ }

theorem refused_frame_cut_short_of_labelled :
    let n := Double.ofNat
    let v : ChartView := ⟨n 0, n 100, n 0, n 100, n 100, n 100⟩
    let s : Style := {}
    let pen : Pen := ⟨⟨s.gold, n 7, [n 1]⟩, s.green⟩
    let r := labelled.render s v (Surface.refusing [3]).asked (0, [])
    let r' := labelled.render s v (Surface.refusing [3, 4]).asked (0, [])
    let whole := labelled.render s v (Surface.refusing []).recorded (0, [])
    (Surface.refusing [3]).Fragile ∧ (Surface.refusing [3, 4]).Fragile ∧
      (∀ c y, (Surface.refusing [] c y).2 = none) ∧
      (r.2 = .error (.rendering "text failed") ∧ r.1.2.map (·.call) <+: whole.1.2 ∧
        (pen.after (granted r.1.2)).ink.dash = []) ∧
      r'.2 = .error (.rendering "dash failed") ∧ r'.1.2.map (·.call) <+: whole.1.2 ∧
        (pen.after (granted r'.1.2)).ink.dash = s.draftDash := by
  intro n v s pen r r' whole
  have hwilling : ∀ c y, (Surface.refusing [] c y).2 = none := by
    intro c y
    unfold Surface.refusing
    split <;> simp
  obtain ⟨-, hprefix, hresult, -, hdash⟩ := labelled.refused_frame_cut_short s v
    (Surface.refusing [3]) (Surface.fragile_refusing _) (Surface.refusing []) hwilling 0 0 pen
  obtain ⟨-, hprefix', hresult', -, -⟩ := labelled.refused_frame_cut_short s v
    (Surface.refusing [3, 4]) (Surface.fragile_refusing _) (Surface.refusing []) hwilling 0 0 pen
  have htext : lastRefusal? r.1.2 = some (.rendering "text failed") := by decide +kernel
  have hreset : lastRefusal? r'.1.2 = some (.rendering "dash failed") := by decide +kernel
  refine ⟨Surface.fragile_refusing _, Surface.fragile_refusing _, hwilling,
    ⟨hresult.trans (by rw [htext]; rfl), hprefix, hdash (by decide +kernel)⟩,
    hresult'.trans (by rw [hreset]; rfl), hprefix', by decide +kernel⟩

end Frame

end MarketSketch
