import MarketSketch.Proofs.Board.Bench
import MarketSketch.Proofs.Drawing.Edit

/-! Writing through, with any pattern of refusals. The list in memory never learns whether a write
was refused, so a run goes as if none were. At every moment what is stored is the list right after
the last edit whose write was not refused, with what the clock showed at that very write. -/

namespace MarketSketch

namespace Vault

variable {v : Vault} {α : Type}

/-- The last of some things that is not refused, if a write is tried for each of them in turn, and
the number of that write. -/
def lastMet? (v : Vault) (xs : List α) : Option (α × Nat) :=
  (xs.zipIdx v.writes).findRev? fun x => (v.writeFault x.2).isNone

theorem write_writes (v : Vault) (key text : String) :
    (v.write key text).1.writes = v.writes + 1 := by
  unfold write
  cases v.writeFault v.writes <;> rfl

theorem write_writeFault (v : Vault) (key text : String) :
    (v.write key text).1.writeFault = v.writeFault := by
  unfold write
  cases v.writeFault v.writes <;> rfl

theorem lastMet?_cons (v : Vault) (key text : String) (x : α) (xs : List α) :
    v.lastMet? (x :: xs) =
      ((v.write key text).1.lastMet? xs).or
        (if v.writeFault v.writes = none then some (x, v.writes) else none) := by
  unfold lastMet?
  rw [write_writes, write_writeFault, List.zipIdx_cons, List.findRev?]
  cases hrest : (xs.zipIdx (v.writes + 1)).findRev? fun x => (v.writeFault x.2).isNone with
  | some y => rfl
  | none => cases v.writeFault v.writes <;> rfl

end Vault

namespace Desk

variable {d d' d'' : Desk}

def obliging (d : Desk) : Desk := { d with vault := { d.vault with writeFault := fun _ => none } }

/-- What steps can see of a desk is the same, whatever is stored and noted. -/
structure Agrees (d d' : Desk) : Prop where
  clock : d.clock = d'.clock
  ids : d.ids = d'.ids
  drawn : d.drawn = d'.drawn

theorem Agrees.symm (h : d.Agrees d') : d'.Agrees d :=
  ⟨h.clock.symm, h.ids.symm, h.drawn.symm⟩

theorem Agrees.trans (h : d.Agrees d') (h' : d'.Agrees d'') : d.Agrees d'' :=
  ⟨h.clock.trans h'.clock, h.ids.trans h'.ids, h.drawn.trans h'.drawn⟩

theorem Agrees.moment (h : d.Agrees d') : d.moment = d'.moment := by
  unfold Desk.moment
  rw [h.clock, h.ids, h.drawn]

theorem agrees_perform_write (d : Desk) (key : String) (shapes : List Shape) :
    (d.perform (.write key shapes)).Agrees d := by
  simp only [perform]
  split <;> exact ⟨rfl, rfl, rfl⟩

theorem Agrees.perform (h : d.Agrees d') (e : Effect) : (d.perform e).Agrees (d'.perform e) := by
  cases e with
  | write key shapes =>
    have hbefore := agrees_perform_write d key shapes
    have hafter := agrees_perform_write d' key shapes
    exact hbefore.trans (h.trans hafter.symm)
  | note n => exact ⟨h.clock, h.ids, h.drawn⟩
  | takeId => exact ⟨h.clock, h.ids, congrArg (· + 1) h.drawn⟩

theorem Agrees.performAll (h : d.Agrees d') (es : List Effect) :
    (d.performAll es).Agrees (d'.performAll es) := by
  induction es generalizing d d' with
  | nil => exact h
  | cons e es ih => exact ih (h.perform e)

def copy (d : Desk) (x : List Shape × Nat) : String :=
  Archive.encode x.1 (signedWord (d.atWrite x.2))

theorem peek?_performAll_copies (d : Desk) (key : String) (copies : List (List Shape)) :
    (d.performAll (copies.map (.write key))).vault.peek? key =
      ((d.vault.lastMet? copies).map d.copy).or (d.vault.peek? key) := by
  induction copies generalizing d with
  | nil => rfl
  | cons shapes copies ih =>
    have hvault : (d.perform (.write key shapes)).vault =
        (d.vault.write key (d.envelope shapes)).1 := perform_write_vault d key shapes
    have hcopy : (d.perform (.write key shapes)).copy = d.copy := by
      unfold copy
      rw [perform_atWrite]
    show ((d.perform (.write key shapes)).performAll (copies.map (.write key))).vault.peek? key = _
    rw [ih, hcopy, hvault, Vault.lastMet?_cons d.vault key (d.envelope shapes)]
    cases hfault : d.vault.writeFault d.vault.writes with
    | none =>
      rw [Vault.peek?_write_of_met hfault]
      cases (d.vault.write key (d.envelope shapes)).1.lastMet? copies <;> rfl
    | some reason =>
      rw [Vault.peek?_write_of_refused hfault]
      cases (d.vault.write key (d.envelope shapes)).1.lastMet? copies <;> rfl

end Desk

theorem Sketch.MadeOf.map {s : Sketch} {key : String} {es : List Edit} {ρ κ : Type}
    {t : Turn Sketch ρ} (h : s.MadeOf key es t) (f : ρ → κ) : s.MadeOf key es (t.map f) :=
  ⟨h.store, h.writes⟩

namespace Board

def Event.edits (m : Moment) (v : ChartView) (s : Sketch) : Event → List Edit
  | .down p => s.pressEdits m v p
  | .move p => s.moveEdits v p
  | .up p => s.upEdits v p
  | .tool _ | .cancel | .teardown => s.cancelEdits
  | .undo => s.cancelEdits ++ [.undo]
  | .clear => s.cancelEdits ++ [.clear]
  | _ => []

theorem madeOf_onSketch {s : Sketch} {key : String} (hkey : s.store.key? = some key) (m : Moment)
    (v : ChartView) (e : Event) : s.MadeOf key (e.edits m v s) (e.onSketch m v s) := by
  cases e with
  | down p => exact (Sketch.madeOf_pointerDown hkey m v p).map _
  | move p => exact (Sketch.madeOf_pointerMove hkey v p).map _
  | up p => exact (Sketch.madeOf_pointerUp hkey v p).map _
  | tool t => exact (Sketch.madeOf_setTool hkey t).map fun _ => Reply.done
  | cancel => exact (Sketch.madeOf_cancel hkey).map _
  | undo => exact (Sketch.madeOf_undo hkey).map _
  | clear => exact (Sketch.madeOf_clear hkey).map fun _ => Reply.done
  | select id => exact (s.madeOf_select id).map _
  | teardown => exact (Sketch.madeOf_cancel hkey).map fun _ => Reply.done
  | _ => exact .nothing rfl rfl

end Board

namespace Bench

variable {d : Desk} {w w' : Bench} {key : String}

def moment (w : Bench) (op : Op) : Moment := (op.clocked w.desk).moment

section Isolation

def Op.reply (b : Board) (m : Moment) : Op → Board.Reply ⊕ Except Failure (Option Nat)
  | .event _ e => .inl (b.step m e).reply
  | .render style surface start => .inr ((b.render style surface start).2.2.map some)
  | .renderIfNeeded style surface start => .inr (b.renderIfNeeded style surface start).2.2

def history (w : Bench) : List Op → List ((Board.Reply ⊕ Except Failure (Option Nat)) × Board)
  | [] => []
  | op :: ops => (op.reply w.board (w.moment op), (w.next op).board) :: history (w.next op) ops

theorem agrees_clocked (h : d.Agrees w.desk) (op : Op) :
    (op.clocked d).Agrees (op.clocked w.desk) := by
  cases op with
  | event clock e => exact ⟨rfl, h.ids, h.drawn⟩
  | render style surface start => exact h
  | renderIfNeeded style surface start => exact h

theorem history_congr (hboard : w.board = w'.board) (hdesk : w.desk.Agrees w'.desk)
    (ops : List Op) : w.history ops = w'.history ops := by
  induction ops generalizing w w' with
  | nil => rfl
  | cons op ops ih =>
    have hclocked : (op.clocked w.desk).Agrees (op.clocked w'.desk) := agrees_clocked hdesk op
    have hmoment : w.moment op = w'.moment op := hclocked.moment
    -- the board after an operation and its requests depend on the board and the moment alone
    have hnext : (w.next op).board = (w'.next op).board := by
      show w.board.act (op.action (w.moment op)) = w'.board.act (op.action (w'.moment op))
      rw [hboard, hmoment]
    have heffects : op.effects w.board (w.moment op) = op.effects w'.board (w'.moment op) := by
      rw [hboard, hmoment]
    have hdesk' : (w.next op).desk.Agrees (w'.next op).desk := by
      have hall := hclocked.performAll (op.effects w.board (w.moment op))
      show ((op.clocked w.desk).performAll (op.effects w.board (w.moment op))).Agrees
        ((op.clocked w'.desk).performAll (op.effects w'.board (w'.moment op)))
      rwa [← heffects]
    rw [history, history, ih hnext hdesk', hnext, hboard, hmoment]

theorem history_obliging (c : Config) (d : Desk) (ops : List Op) :
    (opened c d).history ops = (opened c d.obliging).history ops := by
  have hread : d.obliging.vault.read c.storageKey = d.vault.read c.storageKey := rfl
  have hdesk : d.Agrees d.obliging := ⟨rfl, rfl, rfl⟩
  refine history_congr ?_ ?_ ops
  · unfold opened
    rw [hread]
  · unfold opened
    rw [hread]
    exact hdesk.performAll _

end Isolation

section Writes

def Op.edits (b : Board) (m : Moment) : Op → List Edit
  | .event _ e => e.edits m b.view b.sketch
  | _ => []

/-- The list right after each edit of an operation that takes effect. -/
def copies (w : Bench) (op : Op) : List (List Shape) :=
  w.board.sketch.store.copies (op.edits w.board (w.moment op))

/-- An operation changes the list by its edits, and asks for one write for each of them that takes
effect and for no other. -/
structure WritesThrough (key : String) (w : Bench) (op : Op) : Prop where
  store : (w.next op).board.sketch.store =
    w.board.sketch.store.edited (op.edits w.board (w.moment op))
  writes : w.asked op = (w.copies op).map (.write key)

theorem writesThrough (hkey : w.board.sketch.store.key? = some key) (op : Op) :
    w.WritesThrough key op := by
  have hnext := congrArg Sketch.store (w.next_sketch op)
  cases op with
  | event clock e =>
    let m := w.moment (.event clock e)
    obtain ⟨hstore, hwrites⟩ := Board.madeOf_onSketch hkey m w.board.view e
    exact ⟨hnext.trans hstore, (Board.step_writes w.board m e).trans hwrites⟩
  | _ => exact ⟨hnext, rfl⟩

theorem key?_next (hkey : w.board.sketch.store.key? = some key) (op : Op) :
    (w.next op).board.sketch.store.key? = some key := by
  rw [(writesThrough hkey op).store, Store.edited_key?, hkey]

theorem key?_after (hkey : w.board.sketch.store.key? = some key) (ops : List Op) :
    (w.after ops).board.sketch.store.key? = some key := by
  induction ops generalizing w with
  | nil => exact hkey
  | cons op ops ih => exact ih (key?_next hkey op)

def asks (w : Bench) : List Op → List Effect
  | [] => []
  | op :: ops => op.effects w.board (w.moment op) ++ asks (w.next op) ops

def allCopies (w : Bench) : List Op → List (List Shape)
  | [] => []
  | op :: ops => w.copies op ++ allCopies (w.next op) ops

theorem vault_after (w : Bench) (ops : List Op) :
    (w.after ops).desk.vault = (w.desk.performAll (w.asks ops)).vault := by
  induction ops generalizing w with
  | nil => rfl
  | cons op ops ih =>
    have hnext : (w.next op).desk.vault =
        (w.desk.performAll (op.effects w.board (w.moment op))).vault :=
      Desk.performAll_vault_congr (clocked_vault w.desk op) (clocked_atWrite w.desk op) _
    have hsplit : w.desk.performAll (w.asks (op :: ops)) =
        (w.desk.performAll (op.effects w.board (w.moment op))).performAll ((w.next op).asks ops) :=
      List.foldl_append
    have hat : (w.next op).desk.atWrite =
        (w.desk.performAll (op.effects w.board (w.moment op))).atWrite := by
      rw [next_atWrite, Desk.performAll_atWrite]
    rw [hsplit]
    exact (ih (w.next op)).trans (Desk.performAll_vault_congr hnext hat _)

theorem writes_asks (hkey : w.board.sketch.store.key? = some key) (ops : List Op) :
    Effect.writes (w.asks ops) = (w.allCopies ops).map (.write key) := by
  induction ops generalizing w with
  | nil => rfl
  | cons op ops ih =>
    have hop : Effect.writes (op.effects w.board (w.moment op)) =
        (w.copies op).map (.write key) := (writesThrough hkey op).writes
    have hsplit : Effect.writes (w.asks (op :: ops)) =
        Effect.writes (op.effects w.board (w.moment op)) ++
          Effect.writes ((w.next op).asks ops) := List.filter_append ..
    rw [hsplit, hop, ih (key?_next hkey op), allCopies, List.map_append]

theorem peek?_of_take (hkey : w.board.sketch.store.key? = some key) (ops : List Op) (n : Nat) :
    let past := (w.asks ops).take n
    (w.desk.performAll past).vault.peek? key =
      ((w.desk.vault.lastMet? ((w.allCopies ops).take (Effect.writes past).length)).map
        w.desk.copy).or (w.desk.vault.peek? key) := by
  intro past
  have hprefix : Effect.writes past <+: Effect.writes (w.asks ops) :=
    (List.take_prefix n (w.asks ops)).filter Effect.isWrite
  have hpast : Effect.writes past =
      ((w.allCopies ops).take (Effect.writes past).length).map (.write key) := by
    rw [List.map_take, ← writes_asks hkey]
    exact List.prefix_iff_eq_take.mp hprefix
  rw [Desk.performAll_vault, ← Desk.peek?_performAll_copies, ← hpast]

end Writes

/-- Every edit that takes effect is written through once, and refused writes change nothing else. A
board opened on a desk is answered and left, operation by operation, as if no write were refused. At
every moment of a run, in the middle of an operation too, the text is what was there before the run
until a write succeeds, and from then on the list right after the last edit whose write did, with
what the clock showed at that write. -/
theorem writes_through_refusals (c : Config) (d : Desk) (ops : List Op) :
    let w := opened c d
    w.history ops = (opened c d.obliging).history ops ∧
      (∀ n, let past := (w.asks ops).take n
        (w.desk.performAll past).vault.peek? c.storageKey =
          ((d.vault.lastMet? ((w.allCopies ops).take (Effect.writes past).length)).map fun x =>
            Archive.encode x.1 (signedWord (d.atWrite x.2))).or (d.vault.peek? c.storageKey)) ∧
      (w.after ops).desk.vault = (w.desk.performAll (w.asks ops)).vault ∧
      ∀ op, (w.after ops).WritesThrough c.storageKey op := by
  intro w
  have hkey : w.board.sketch.store.key? = some c.storageKey := rfl
  have hvault : w.desk.vault = d.vault := opened_vault c d
  have hat : w.desk.atWrite = d.atWrite := Desk.performAll_atWrite d _
  refine ⟨history_obliging c d ops, ?_, vault_after w ops, ?_⟩
  · intro n past
    rw [← hvault, ← hat]
    exact peek?_of_take hkey ops n
  · exact writesThrough (key?_after hkey ops)

theorem writes_through_refusals_of_undoneDrag :
    let n := Double.ofNat
    let view : ChartView := ⟨n 0, n 100, n 0, n 100, n 100, n 100⟩
    let d : Desk :=
      { clock := 0, atWrite := fun k => 10 + UInt64.ofNat k,
        vault := { writeFault := fun k => if k = 3 then some "full" else none } }
    let ops : List Op := [.event 1 (.viewport view), .event 1 (.tool .level),
      .event 2 (.down ⟨n 10, n 10⟩), .event 3 (.tool .select), .event 3 (.down ⟨n 10, n 10⟩),
      .event 4 (.move ⟨n 10, n 30⟩), .event 5 .undo]
    let w := opened {} d
    let level (price : Nat) : Shape := ⟨"shape-1", 2, none, .level (n price)⟩
    w.history ops = (opened {} d.obliging).history ops ∧
      w.allCopies ops = [[level 90], [level 70], [level 90], []] ∧
      (w.after ops).board.shapes = [] ∧
      (w.after ops).desk.vault.peek? defaultStorageKey = some (Archive.encode [level 90] 12) := by
  intro n view d ops w level
  obtain ⟨hsame, hstored, hvault, -⟩ := writes_through_refusals {} d ops
  have hcopies : w.allCopies ops = [[level 90], [level 70], [level 90], []] := by decide +kernel
  refine ⟨hsame, hcopies, by decide +kernel, ?_⟩
  have hlast := hstored (w.asks ops).length
  dsimp only at hlast
  have hfour : (Effect.writes (w.asks ops)).length = 4 := by decide +kernel
  rw [List.take_length, hfour, hcopies] at hlast
  rw [hvault]
  exact hlast

end Bench

end MarketSketch
