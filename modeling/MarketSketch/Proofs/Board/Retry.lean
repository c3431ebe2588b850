import MarketSketch.Proofs.Board.Redraw

/-! A frame that failed. It leaves the board as it was, the flag included: a frame that was asked
for is still owed, and one that was forced on a board up to date is forgotten. -/

namespace MarketSketch.Board

variable {b : Board} {a : Action}

def Action.fails (b : Board) : Action → Bool
  | .event _ _ => false
  | .render style surface start => !(b.render style surface start).2.2.isOk
  | .renderIfNeeded style surface start => !(b.renderIfNeeded style surface start).2.2.isOk

/-- The drawing is forced on a board that asks for no frame. -/
def Action.uncalledFor (b : Board) : Action → Bool
  | .render _ _ _ => !b.needsRedraw
  | _ => false

def Frameless (b : Board) : List Action → Prop
  | [] => True
  | a :: as => a.draws b = false ∧ (b.act a).Frameless as

/-- Whatever happens before the next complete frame, drawing on demand draws. -/
def OwesFrame (b : Board) : Prop :=
  ∀ later : List Action, b.Frameless later →
    ∀ {σ : Type} (style : Style) (surface : Surface σ) (start : σ),
      let now := later.foldl act b
      now.renderIfNeeded style surface start =
        ((now.render style surface start).1, (now.render style surface start).2.1,
          (now.render style surface start).2.2.map some)

theorem act_keeps_flag (h : b.needsRedraw = true) (ha : a.draws b = false) :
    (b.act a).needsRedraw = true := by
  rcases act_of_not_draws ha with hsame | ⟨m, e, rfl⟩
  · rwa [hsame]
  · exact step_keeps_flag h m e

theorem Frameless.keeps_flag {as : List Action} (hs : b.Frameless as) (h : b.needsRedraw = true) :
    (as.foldl act b).needsRedraw = true := by
  induction as generalizing b with
  | nil => exact h
  | cons a as ih => exact ih hs.2 (act_keeps_flag h hs.1)

def willing : Surface Unit := fun _ s => (s, none)

def undashed : Surface Unit := fun call s =>
  match call with
  | .dash _ => (s, some (.rendering "dash failed"))
  | _ => (s, none)

theorem owesFrame_iff : b.OwesFrame ↔ b.needsRedraw = true := by
  constructor
  · intro h
    by_contra hdown
    have hidle : b.renderIfNeeded {} willing () = (b, (), .ok none) :=
      renderIfNeeded_of_upToDate (by simpa using hdown) {} willing ()
    have hanswer : .ok none = (b.render {} willing ()).2.2.map some :=
      congrArg (·.2.2) (hidle.symm.trans (h [] trivial {} willing ()))
    cases hr : (b.render {} willing ()).2.2 <;> simp [hr, Except.map] at hanswer
  · intro h later hlater σ style surface start
    exact renderIfNeeded_of_needed (hlater.keeps_flag h) style surface start

theorem not_draws_of_fails (h : a.fails b = true) : a.draws b = false := by
  cases a with
  | event m e => rfl
  | render style surface start => simpa [Action.fails, Action.draws] using h
  | renderIfNeeded style surface start =>
    simp only [Action.fails, Action.draws] at h ⊢
    cases hr : (b.renderIfNeeded style surface start).2.2 with
    | error f => rfl
    | ok n => simp [hr, Except.isOk, Except.toBool] at h

theorem act_of_fails (h : a.fails b = true) : b.act a = b := by
  rcases act_of_not_draws (not_draws_of_fails h) with hsame | ⟨m, e, rfl⟩
  · exact hsame
  · simp [Action.fails] at h

theorem needsRedraw_act_of_fails (h : a.fails b = true) :
    (b.act a).needsRedraw = true ↔ a.uncalledFor b = false := by
  rw [act_of_fails h]
  cases a with
  | event m e => simp [Action.fails] at h
  | render style surface start => simp [Action.uncalledFor]
  | renderIfNeeded style surface start =>
    refine iff_of_true ?_ rfl
    by_contra hdown
    have hup : b.needsRedraw = false := by simpa using hdown
    simp [Action.fails, renderIfNeeded_of_upToDate hup, Except.isOk, Except.toBool] at h

/-- On any board, a frame that fails anywhere leaves the board alone; and it is drawn again on the
next demand, whatever comes in between, unless it was forced while the flag was down. -/
theorem failed_frame_owed_iff (b : Board) (a : Action) (h : a.fails b = true) :
    b.act a = b ∧ ((b.act a).needsRedraw = true ↔ a.uncalledFor b = false) ∧
      ((b.act a).OwesFrame ↔ a.uncalledFor b = false) := by
  have hflag := needsRedraw_act_of_fails h
  exact ⟨act_of_fails h, hflag, owesFrame_iff.trans hflag⟩

theorem failed_frame_owed_of_newTool :
    let as : List Action := [.render {} willing (), .event ⟨0, "line"⟩ (.tool .zone)]
    let b := as.foldl act (opened {} (.ok none)).state
    (Action.renderIfNeeded {} undashed ()).fails b = true ∧
      b.act (.renderIfNeeded {} undashed ()) = b ∧
      ((b.act (.renderIfNeeded {} undashed ())).needsRedraw = true ↔
        (Action.renderIfNeeded {} undashed ()).uncalledFor b = false) ∧
      ((b.act (.renderIfNeeded {} undashed ())).OwesFrame ↔
        (Action.renderIfNeeded {} undashed ()).uncalledFor b = false) := by
  intro as b
  have hfails : (Action.renderIfNeeded {} undashed ()).fails b = true := by decide +kernel
  exact ⟨hfails, failed_frame_owed_iff b (.renderIfNeeded {} undashed ()) hfails⟩

/-- A frame forced on a board that was just drawn fails at its first dash, and nothing asks for it
again. -/
theorem forced_frame_forgotten :
    ¬ ∀ (c : Config) (stored : Except Failure (Option String)) (as : List Action) (a : Action),
        let b := as.foldl act (opened c stored).state
        a.fails b = true → (b.act a).needsRedraw = true ∧ (b.act a).OwesFrame := by
  intro h
  let as : List Action := [.render {} willing ()]
  have hflag := (h {} (.ok none) as (.render {} undashed ()) (by decide +kernel)).1
  exact absurd hflag (by decide +kernel)

end MarketSketch.Board
