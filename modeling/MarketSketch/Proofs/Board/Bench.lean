import MarketSketch.Proofs.Board.Run
import MarketSketch.Proofs.Drawing.Saving

/-! A board at its desk: each operation happens at some time of the clock, and the desk meets what
it asks for. Only a write that is not refused changes what is stored. -/

namespace MarketSketch

namespace Vault

variable {v : Vault}

theorem peek?_write_of_met (h : v.writeFault v.writes = none) (key text : String) :
    (v.write key text).1.peek? key = some text := by
  unfold write
  rw [h]
  simp [put, peek?]

theorem peek?_write_of_refused {reason : String} (h : v.writeFault v.writes = some reason)
    (key text : String) : (v.write key text).1.peek? key = v.peek? key := by
  unfold write
  rw [h]
  rfl

end Vault

namespace Desk

variable {d : Desk}

theorem perform_write_vault (d : Desk) (key : String) (shapes : List Shape) :
    (d.perform (.write key shapes)).vault = (d.vault.write key (d.envelope shapes)).1 := by
  simp only [perform]
  rcases d.vault.write key (d.envelope shapes) with ⟨v, _ | f⟩ <;> rfl

@[simp] theorem perform_ids (d : Desk) (e : Effect) : (d.perform e).ids = d.ids := by
  cases e with
  | write key shapes =>
    simp only [perform]
    split <;> rfl
  | _ => rfl

@[simp] theorem perform_atWrite (d : Desk) (e : Effect) : (d.perform e).atWrite = d.atWrite := by
  cases e with
  | write key shapes =>
    simp only [perform]
    split <;> rfl
  | _ => rfl

@[simp] theorem performAll_ids (d : Desk) (es : List Effect) : (d.performAll es).ids = d.ids := by
  induction es generalizing d with
  | nil => rfl
  | cons e es ih => exact (ih (d.perform e)).trans (perform_ids d e)

@[simp] theorem performAll_atWrite (d : Desk) (es : List Effect) :
    (d.performAll es).atWrite = d.atWrite := by
  induction es generalizing d with
  | nil => rfl
  | cons e es ih => exact (ih (d.perform e)).trans (perform_atWrite d e)

theorem performAll_vault_congr {d' : Desk} (h : d.vault = d'.vault) (hat : d.atWrite = d'.atWrite)
    (es : List Effect) : (d.performAll es).vault = (d'.performAll es).vault := by
  induction es generalizing d d' with
  | nil => exact h
  | cons e es ih =>
    have hat' : (d.perform e).atWrite = (d'.perform e).atWrite := by
      rw [perform_atWrite, perform_atWrite, hat]
    refine ih ?_ hat'
    cases e with
    | write key shapes =>
      have henvelope : d.envelope shapes = d'.envelope shapes := by
        unfold envelope
        rw [h, hat]
      rw [perform_write_vault, perform_write_vault, h, henvelope]
    | _ => exact h

theorem performAll_vault (d : Desk) (es : List Effect) :
    (d.performAll es).vault = (d.performAll (Effect.writes es)).vault := by
  induction es generalizing d with
  | nil => rfl
  | cons e es ih =>
    cases e with
    | write key shapes => exact ih (d.perform (.write key shapes))
    | note n =>
      have hvault : (d.note n).vault = d.vault := rfl
      have hat : (d.note n).atWrite = d.atWrite := rfl
      exact (ih (d.note n)).trans (performAll_vault_congr hvault hat (Effect.writes es))
    | takeId =>
      have hvault : (d.perform .takeId).vault = d.vault := rfl
      have hat : (d.perform .takeId).atWrite = d.atWrite := rfl
      exact (ih (d.perform .takeId)).trans (performAll_vault_congr hvault hat (Effect.writes es))

end Desk

namespace Board

theorem step_writes (b : Board) (m : Moment) (e : Event) :
    Effect.writes (b.step m e).effects = Effect.writes (e.onSketch m b.view b.sketch).effects := by
  cases e with
  | history t candles =>
    show Effect.writes (b.feed.load b.guard t candles).effects = []
    unfold LiveFeed.load
    split <;> rfl
  | update t c =>
    show Effect.writes (b.feed.update b.guard t c).effects = []
    simp only [LiveFeed.update]
    split
    · dsimp only
      split <;> rfl
    · rfl
  | analysis t payload =>
    show Effect.writes (b.applyAnalysis m t payload).effects = []
    unfold applyAnalysis
    split
    · exact Effect.writes_notes _
    · rfl
  | _ => rfl

end Board

structure Bench where
  board : Board
  desk : Desk

namespace Bench

/-- Every operation of a board, an event at a time of the clock. -/
inductive Op where
  | event (clock : UInt64) (e : Board.Event)
  | render {σ : Type} (style : Style) (surface : Surface σ) (start : σ)
  | renderIfNeeded {σ : Type} (style : Style) (surface : Surface σ) (start : σ)

namespace Op

def action (m : Moment) : Op → Board.Action
  | .event _ e => .event m e
  | .render style surface start => .render style surface start
  | .renderIfNeeded style surface start => .renderIfNeeded style surface start

def effects (b : Board) (m : Moment) : Op → List Effect
  | .event _ e => (b.step m e).effects
  | _ => []

def clocked (d : Desk) : Op → Desk
  | .event clock _ => { d with clock := clock }
  | _ => d

def removes : Op → Bool
  | .event _ .undo => true
  | .event _ .clear => true
  | _ => false

end Op

variable {w : Bench} {op : Op}

def opened (c : Config) (d : Desk) : Bench :=
  let t := Board.opened c (d.vault.read c.storageKey)
  ⟨t.state, d.performAll t.effects⟩

def next (w : Bench) (op : Op) : Bench :=
  let d := op.clocked w.desk
  ⟨w.board.act (op.action d.moment), d.performAll (op.effects w.board d.moment)⟩

def after (w : Bench) (ops : List Op) : Bench := ops.foldl next w

def asked (w : Bench) (op : Op) : List Effect :=
  Effect.writes (op.effects w.board (op.clocked w.desk).moment)

/-- The list that an operation stores, unless it asks for no write or is refused. -/
def saves? (w : Bench) (op : Op) : Option (List Shape) :=
  if w.asked op ≠ [] ∧ w.desk.vault.writeFault w.desk.vault.writes = none then
    some (w.next op).board.shapes
  else none

def lastSaved? (w : Bench) : List Op → Option (List Shape)
  | [] => none
  | op :: ops => (lastSaved? (w.next op) ops).or (w.saves? op)

@[simp] theorem clocked_vault (d : Desk) (op : Op) : (op.clocked d).vault = d.vault := by
  cases op <;> rfl

@[simp] theorem clocked_ids (d : Desk) (op : Op) : (op.clocked d).ids = d.ids := by
  cases op <;> rfl

@[simp] theorem clocked_atWrite (d : Desk) (op : Op) : (op.clocked d).atWrite = d.atWrite := by
  cases op <;> rfl

theorem next_ids (w : Bench) (op : Op) : (w.next op).desk.ids = w.desk.ids := by
  unfold next
  rw [Desk.performAll_ids, clocked_ids]

theorem next_atWrite (w : Bench) (op : Op) : (w.next op).desk.atWrite = w.desk.atWrite := by
  unfold next
  rw [Desk.performAll_atWrite, clocked_atWrite]

theorem next_vault (w : Bench) (op : Op) :
    (w.next op).desk.vault = (w.desk.performAll (w.asked op)).vault := by
  unfold next asked
  rw [Desk.performAll_vault]
  exact Desk.performAll_vault_congr (clocked_vault w.desk op) (clocked_atWrite w.desk op) _

theorem opened_vault (c : Config) (d : Desk) : (opened c d).desk.vault = d.vault := by
  unfold opened Board.opened Store.opened Turn.lift
  rw [Desk.performAll_vault]
  simp [Desk.performAll]

theorem next_sketch (w : Bench) (op : Op) :
    (w.next op).board.sketch =
      match op with
      | .event clock e =>
        (e.onSketch ((Op.event clock e).clocked w.desk).moment w.board.view w.board.sketch).state
      | _ => w.board.sketch := by
  unfold next
  rw [Board.act_sketch]
  cases op <;> rfl

end Bench

end MarketSketch
