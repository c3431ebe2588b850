import MarketSketch.Proofs.Board.Bench
import MarketSketch.Proofs.Drawing.Archive

/-! What stays stored while nothing is removed. The list in memory only grows, but it counts as it
is: after a refused read it begins empty, and a shape with an infinite end is written as a record
that is dropped when it is read. -/

namespace MarketSketch

theorem Sketch.Grows.map {s : Sketch} {m : Moment} {ρ κ : Type} {t : Turn Sketch ρ}
    (h : s.Grows m t) (f : ρ → κ) : s.Grows m (t.map f) :=
  ⟨h.key, h.tags, h.draft, h.writes⟩

namespace Board

variable {s : Sketch} {e : Event}

theorem grows_onSketch (h : s.Sound) (m : Moment) (v : ChartView)
    (hundo : e ≠ .undo) (hclear : e ≠ .clear) : s.Grows m (e.onSketch m v s) := by
  cases e with
  | down p => exact (s.grows_pointerDown m v p).map _
  | move p => exact (h.grows_pointerMove m v p).map _
  | up p => exact (h.grows_pointerUp m v p).map _
  | tool t => exact (h.grows_setTool m t).map fun _ => Reply.done
  | cancel => exact (h.grows_cancel m).map _
  | undo => exact absurd rfl hundo
  | clear => exact absurd rfl hclear
  | select id => exact (s.grows_select m id).map _
  | clearSelection => exact .of_same rfl rfl fun d hd => .of_draft hd
  | teardown => exact (h.grows_cancel m).map fun _ => Reply.done
  | _ => exact .of_same rfl rfl fun d hd => .of_draft hd

end Board

namespace Bench

open Archive

variable {c : Config} {d : Desk} {w : Bench} {op : Op}

def storedShapes : Option String → List Shape
  | none => []
  | some text => Archive.shapes text

def storedIds (text? : Option String) : List String := (storedShapes text?).map (·.id)

theorem opened_shapes_of_read (h : d.vault.readFault = none) :
    (opened c d).board.shapes = storedShapes (d.vault.peek? c.storageKey) := by
  have hread : d.vault.read c.storageKey = .ok (d.vault.peek? c.storageKey) := by
    unfold Vault.read
    rw [h]
  unfold opened
  rw [hread]
  cases d.vault.peek? c.storageKey <;> rfl

theorem opened_shapes_of_refused (h : d.vault.readFault ≠ none) :
    (opened c d).board.shapes = [] := by
  obtain ⟨reason, hreason⟩ := Option.ne_none_iff_exists'.mp h
  have hread : d.vault.read c.storageKey = .error (.storage reason) := by
    unfold Vault.read
    rw [hreason]
  unfold opened
  rw [hread]
  rfl

/-- What a tag can be in a run that began at this desk: its time is one that the clock shows, and
after a refused read its id was handed out. -/
def Given (d : Desk) (tag : Tag) : Prop :=
  IsSignedWord tag.createdAt ∧ (d.vault.readFault ≠ none → ∃ n, d.ids n = tag.id)

structure Held (c : Config) (d : Desk) (shapes : List Shape) : Prop where
  grown : (opened c d).board.sketch.store.tags <+: shapes.map (·.tag)
  distinct : (shapes.map (·.id)).Nodup
  given : ∀ tag ∈ shapes.map (·.tag), Given d tag

/-- What is stored: what was there before, until a list is saved. -/
def Stored (c : Config) (d : Desk) (v : Vault) : Option (List Shape) → Prop
  | none => v.peek? c.storageKey = d.vault.peek? c.storageKey
  | some saved => Held c d saved ∧ ∃ savedAt, IsSignedWord savedAt ∧
      v.peek? c.storageKey = some (encode saved savedAt)

structure Durable (c : Config) (d : Desk) (w : Bench) (saved? : Option (List Shape)) : Prop where
  sound : w.board.sketch.Sound
  key : w.board.sketch.store.key? = some c.storageKey
  ids : w.desk.ids = d.ids
  held : Held c d w.board.shapes
  draft : ∀ s, w.board.sketch.gesture.draft? = some s → Given d s.tag
  stored : Stored c d w.desk.vault saved?

theorem given_of_mem_opened {s : Shape} (h : s ∈ (opened c d).board.shapes) : Given d s.tag := by
  by_cases hread : d.vault.readFault = none
  · rw [opened_shapes_of_read hread] at h
    refine ⟨?_, fun hrefused => absurd hread hrefused⟩
    cases htext : d.vault.peek? c.storageKey with
    | none => simp [htext, storedShapes] at h
    | some text =>
      rw [htext] at h
      exact (of_mem_shapes h).2
  · rw [opened_shapes_of_refused hread] at h
    simp at h

theorem durable_opened (c : Config) (d : Desk) : Durable c d (opened c d) none := by
  have hsound : (opened c d).board.sketch.Sound :=
    Board.sound_opened c (d.vault.read c.storageKey)
  refine ⟨hsound, ?_, ?_, ⟨List.prefix_rfl, hsound.distinct, ?_⟩, ?_, ?_⟩
  · rfl
  · exact Desk.performAll_ids d _
  · intro tag htag
    obtain ⟨s, hs, rfl⟩ := List.mem_map.mp htag
    exact given_of_mem_opened hs
  · intro s hs
    simp [opened, Board.opened, Turn.lift, Board.ofStore, Gesture.draft?] at hs
  · show (opened c d).desk.vault.peek? c.storageKey = d.vault.peek? c.storageKey
    rw [opened_vault]

theorem exists_grows (h : w.board.sketch.Sound) (hop : op.removes = false) :
    ∃ (m : Moment) (t : Turn Sketch Board.Reply), IsSignedWord m.now ∧
      (∃ n, w.desk.ids n = m.freshId) ∧ w.board.sketch.Grows m t ∧
      (w.next op).board.sketch = t.state ∧ w.asked op = Effect.writes t.effects := by
  -- drawing leaves the sketch alone, and any moment will do for it
  have idle : w.board.sketch.Grows ⟨0, w.desk.ids 0⟩ ⟨w.board.sketch, Board.Reply.done, []⟩ :=
    .of_same rfl rfl fun d hd => .of_draft hd
  have hzero : IsSignedWord 0 := by unfold IsSignedWord; omega
  have hnext := w.next_sketch op
  cases op with
  | event clock e =>
    have hundo : e ≠ .undo := by rintro rfl; cases hop
    have hclear : e ≠ .clear := by rintro rfl; cases hop
    let m := ((Op.event clock e).clocked w.desk).moment
    exact ⟨m, e.onSketch m w.board.view w.board.sketch, isSignedWord_signedWord clock,
      ⟨w.desk.drawn + 1, rfl⟩, Board.grows_onSketch h m w.board.view hundo hclear, hnext,
      Board.step_writes w.board m e⟩
  | _ => exact ⟨_, _, hzero, ⟨0, rfl⟩, idle, hnext, rfl⟩

theorem saves?_of_quiet (h : w.asked op = []) : w.saves? op = none := by
  unfold saves?
  rw [if_neg (by simp [h])]

theorem stored_of_quiet {saved? : Option (List Shape)} (h : Stored c d w.desk.vault saved?)
    (hquiet : w.asked op = []) : Stored c d (w.next op).desk.vault ((w.saves? op).or saved?) := by
  have hvault : (w.next op).desk.vault = w.desk.vault := by
    rw [next_vault, hquiet]
    rfl
  rw [saves?_of_quiet hquiet, hvault, Option.none_or]
  exact h

theorem stored_of_asked {saved? : Option (List Shape)} (h : Stored c d w.desk.vault saved?)
    (hheld : Held c d (w.next op).board.shapes)
    (hasked : w.asked op = [.write c.storageKey (w.next op).board.shapes]) :
    Stored c d (w.next op).desk.vault ((w.saves? op).or saved?) := by
  let savedAt := signedWord (w.desk.atWrite w.desk.vault.writes)
  have hvault : (w.next op).desk.vault =
      (w.desk.vault.write c.storageKey (encode (w.next op).board.shapes savedAt)).1 := by
    rw [next_vault, hasked]
    exact Desk.perform_write_vault w.desk _ _
  cases hfault : w.desk.vault.writeFault w.desk.vault.writes with
  | none =>
    have hsaves : w.saves? op = some (w.next op).board.shapes := by
      unfold saves?
      rw [if_pos ⟨by simp [hasked], hfault⟩]
    rw [hsaves, Option.some_or]
    refine ⟨hheld, savedAt, isSignedWord_signedWord _, ?_⟩
    rw [hvault]
    exact Vault.peek?_write_of_met hfault _ _
  | some reason =>
    -- the list goes on in memory, and what was stored last stays stored
    have hsaves : w.saves? op = none := by
      unfold saves?
      rw [if_neg (by simp [hfault])]
    have hpeek := Vault.peek?_write_of_refused hfault c.storageKey
      (encode (w.next op).board.shapes savedAt)
    rw [hsaves, Option.none_or, hvault]
    cases saved? with
    | none => exact hpeek.trans h
    | some saved =>
      obtain ⟨hsaved, before, hat, htext⟩ := h
      exact ⟨hsaved, before, hat, hpeek.trans htext⟩

theorem durable_next {saved? : Option (List Shape)} (h : Durable c d w saved?)
    (hop : op.removes = false) : Durable c d (w.next op) ((w.saves? op).or saved?) := by
  obtain ⟨m, t, hnow, ⟨n, hid⟩, hgrows, hsketch, hasked⟩ := exists_grows h.sound hop
  have hsound : (w.next op).board.sketch.Sound := Board.sound_act h.sound _
  have hkey : (w.next op).board.sketch.store.key? = some c.storageKey := by
    rw [hsketch, hgrows.key, h.key]
  have hstart (tag : Tag) (htag : tag.id = m.freshId) (hat : tag.createdAt = m.now) :
      Given d tag :=
    ⟨hat ▸ hnow, fun _ => ⟨n, by rw [htag, ← hid, h.ids]⟩⟩
  obtain ⟨hgiven, hdraft⟩ := hgrows.forall_tags hstart h.held.given h.draft
  rw [← hsketch] at hgiven hdraft
  have hheld : Held c d (w.next op).board.shapes := by
    have hgrown : w.board.sketch.store.tags <+: (w.next op).board.sketch.store.tags :=
      hsketch ▸ hgrows.prefix_tags
    exact ⟨h.held.grown.trans hgrown, hsound.distinct, hgiven⟩
  refine ⟨hsound, hkey, (next_ids w op).trans h.ids, hheld, hdraft, ?_⟩
  -- an operation without a write leaves the list and the text, any other asks to store its list
  rcases hgrows.writes with ⟨-, hquiet⟩ | hsaving
  · exact stored_of_quiet h.stored (hasked.trans hquiet)
  · refine stored_of_asked h.stored hheld ?_
    rw [hasked, hsaving, ← hsketch]
    unfold Store.saving
    rw [hkey]
    rfl

theorem durable_after {saved? : Option (List Shape)} {ops : List Op} (h : Durable c d w saved?)
    (hops : ∀ op ∈ ops, op.removes = false) :
    Durable c d (w.after ops) ((w.lastSaved? ops).or saved?) := by
  induction ops generalizing w saved? with
  | nil => exact h
  | cons op ops ih =>
    have hnext := durable_next h (hops op List.mem_cons_self)
    have hafter := ih hnext fun o ho => hops o (List.mem_cons_of_mem op ho)
    rwa [← Option.or_assoc] at hafter

theorem mem_storedIds_encode {saved : List Shape} {savedAt : Int} {id : String}
    (h : Held c d saved) (hat : IsSignedWord savedAt) :
    id ∈ storedIds (some (encode saved savedAt)) ↔ ∃ s ∈ saved, storable s = true ∧ s.id = id := by
  have htimes (s : Shape) (hs : s ∈ saved) : IsSignedWord s.createdAt :=
    (h.given s.tag (List.mem_map_of_mem hs)).1
  have hdistinct : ((saved.filter storable).map (·.id)).Nodup :=
    h.distinct.sublist (List.filter_sublist.map _)
  have hread : storedShapes (some (encode saved savedAt)) = saved.filter storable :=
    (shapes_encode htimes hat).trans (firsts_eq_self hdistinct (by simp))
  unfold storedIds
  rw [hread]
  simp [and_assoc]

theorem storable_iff_of_stored {text? : Option String} {s : Shape} (h : s.id ∈ storedIds text?) :
    storable s = true ↔ s.geometry.finite = true := by
  cases text? with
  | none => simp [storedIds, storedShapes] at h
  | some text =>
    obtain ⟨t, ht, hid⟩ := List.mem_map.mp h
    have hshows := (of_mem_shapes ht).1
    unfold storable at hshows ⊢
    rw [hid] at hshows
    simp_all

theorem mem_encode_iff_of_stored {before : Option String} {saved : List Shape} {savedAt : Int}
    {id : String} (h : Held c d saved) (hat : IsSignedWord savedAt) (hid : id ∈ storedIds before) :
    id ∈ storedIds (some (encode saved savedAt)) ↔
      ∃ s ∈ saved, s.id = id ∧ s.geometry.finite = true := by
  rw [mem_storedIds_encode h hat]
  constructor
  · rintro ⟨s, hs, hstorable, rfl⟩
    exact ⟨s, hs, rfl, (storable_iff_of_stored hid).mp hstorable⟩
  · rintro ⟨s, hs, rfl, hfinite⟩
    exact ⟨s, hs, (storable_iff_of_stored hid).mpr hfinite, rfl⟩

theorem Held.exists_of_stored {saved : List Shape} (h : Held c d saved)
    (hread : d.vault.readFault = none) {id : String}
    (hid : id ∈ storedIds (d.vault.peek? c.storageKey)) : ∃ s ∈ saved, s.id = id := by
  unfold storedIds at hid
  rw [← opened_shapes_of_read hread] at hid
  obtain ⟨t, ht, rfl⟩ := List.mem_map.mp hid
  obtain ⟨s, hs, htag⟩ := List.mem_map.mp (h.grown.subset (List.mem_map_of_mem ht))
  exact ⟨s, hs, congrArg Tag.id htag⟩

theorem Held.mem_encode_iff_of_read {saved : List Shape} (h : Held c d saved)
    (hread : d.vault.readFault = none) {savedAt : Int} (hat : IsSignedWord savedAt) {id : String}
    (hid : id ∈ storedIds (d.vault.peek? c.storageKey)) :
    id ∈ storedIds (some (encode saved savedAt)) ↔
      ∀ s ∈ saved, s.id = id → s.geometry.finite = true := by
  rw [mem_encode_iff_of_stored h hat hid]
  constructor
  · rintro ⟨t, ht, htid, hfinite⟩ s hs hsid
    obtain rfl : t = s := List.inj_on_of_nodup_map h.distinct ht hs (htid.trans hsid.symm)
    exact hfinite
  · intro hfinite
    obtain ⟨s, hs, hsid⟩ := h.exists_of_stored hread hid
    exact ⟨s, hs, hsid, hfinite s hs hsid⟩

theorem Held.mem_encode_iff_of_refused {saved : List Shape} (h : Held c d saved)
    (hread : d.vault.readFault ≠ none) {savedAt : Int} (hat : IsSignedWord savedAt) {id : String}
    (hid : id ∈ storedIds (d.vault.peek? c.storageKey)) :
    id ∈ storedIds (some (encode saved savedAt)) ↔
      (∃ n, d.ids n = id) ∧ ∃ s ∈ saved, s.id = id ∧ s.geometry.finite = true := by
  rw [mem_encode_iff_of_stored h hat hid]
  refine ⟨fun hkept => ⟨?_, hkept⟩, And.right⟩
  obtain ⟨s, hs, hsid, -⟩ := hkept
  obtain ⟨n, hn⟩ := (h.given s.tag (List.mem_map_of_mem hs)).2 hread
  exact ⟨n, hn.trans hsid⟩

/-- Opened on any text and operated on without undo and clear, whatever is refused: all stored ids
stay as long as no write succeeds. After one, if the opening could read, an id is lost exactly if
its shape was dragged to an infinite end. If it was refused, an id is lost unless the desk handed it
out a second time, to a finite shape. -/
theorem stored_id_kept_iff (c : Config) (d : Desk) {ops : List Op}
    (hops : ∀ op ∈ ops, op.removes = false) :
    let after := (opened c d).after ops
    ∀ id ∈ storedIds (d.vault.peek? c.storageKey),
      (d.vault.readFault = none →
        (id ∈ storedIds (after.desk.vault.peek? c.storageKey) ↔
          ∀ saved, (opened c d).lastSaved? ops = some saved →
            ∀ s ∈ saved, s.id = id → s.geometry.finite = true)) ∧
      (d.vault.readFault ≠ none →
        (id ∈ storedIds (after.desk.vault.peek? c.storageKey) ↔
          ∀ saved, (opened c d).lastSaved? ops = some saved →
            (∃ n, d.ids n = id) ∧ ∃ s ∈ saved, s.id = id ∧ s.geometry.finite = true)) := by
  intro after id hid
  have hstored := (durable_after (durable_opened c d) hops).stored
  rw [Option.or_none] at hstored
  cases hsaved : (opened c d).lastSaved? ops with
  | none =>
    rw [hsaved] at hstored
    have htext : after.desk.vault.peek? c.storageKey = d.vault.peek? c.storageKey := hstored
    rw [htext]
    simp [hid]
  | some saved =>
    rw [hsaved] at hstored
    obtain ⟨hheld, savedAt, hat, htext⟩ := hstored
    have htext : after.desk.vault.peek? c.storageKey = some (encode saved savedAt) := htext
    rw [htext]
    simp only [Option.some.injEq, forall_eq']
    exact ⟨fun hread => hheld.mem_encode_iff_of_read hread hat hid,
      fun hread => hheld.mem_encode_iff_of_refused hread hat hid⟩

theorem stored_id_kept_of_addedLevel :
    let n := Double.ofNat
    let view : ChartView := ⟨n 0, n 100, n 0, n 100, n 100, n 100⟩
    let stored := encode [⟨"l", 1, none, .level (n 90)⟩] 5
    let refused (n : Nat) : Option String := if n = 0 then some "full" else none
    let vault : Vault := { entries := [(defaultStorageKey, stored)], writeFault := refused }
    let d : Desk := { clock := 0, vault := vault }
    let ops : List Op := [.event 7 (.viewport view), .event 7 (.tool .level),
      .event 8 (.down ⟨n 10, n 40⟩), .event 9 (.tool .select), .event 9 (.down ⟨n 10, n 10⟩),
      .event 9 (.move ⟨n 10, n 30⟩)]
    (∀ op ∈ ops, op.removes = false) ∧ "l" ∈ storedIds (some stored) ∧
      "l" ∈ storedIds (((opened {} d).after ops).desk.vault.peek? defaultStorageKey) := by
  intro n view stored refused vault d ops
  have hops : ∀ op ∈ ops, op.removes = false := by decide
  have hid : "l" ∈ storedIds (some stored) := by decide +kernel
  refine ⟨hops, hid, ((stored_id_kept_iff {} d hops "l" hid).1 rfl).mpr ?_⟩
  have hlast : (opened {} d).lastSaved? ops =
      some [⟨"l", 1, none, .level (n 70)⟩, ⟨"shape-1", 8, none, .level (n 60)⟩] := by
    decide +kernel
  intro saved hsaved s hs _
  obtain rfl := Option.some.inj (hlast.symm.trans hsaved)
  have hfinite : ∀ s ∈ [⟨"l", 1, none, .level (n 70)⟩, ⟨"shape-1", 8, none, .level (n 60)⟩],
      Geometry.finite (Shape.geometry s) = true := by
    decide +kernel
  exact hfinite s hs

/-- A level drawn after a refused read takes the place of all that was stored. -/
theorem refused_read_loses_stored_ids :
    ¬ ∀ (c : Config) (d : Desk) (ops : List Op), (∀ op ∈ ops, op.removes = false) →
      ∀ id ∈ storedIds (d.vault.peek? c.storageKey),
        id ∈ storedIds (((opened c d).after ops).desk.vault.peek? c.storageKey) := by
  intro h
  let n := Double.ofNat
  let view : ChartView := ⟨n 0, n 100, n 0, n 100, n 100, n 100⟩
  let stored := encode [⟨"a", 1, none, .level (n 50)⟩] 0
  let vault : Vault := { entries := [(defaultStorageKey, stored)], readFault := some "denied" }
  let d : Desk := { clock := 0, vault := vault }
  let ops : List Op := [.event 0 (.viewport view), .event 0 (.tool .level),
    .event 0 (.down ⟨n 10, n 10⟩)]
  have hlost := h {} d ops (by decide) "a" (by decide +kernel)
  exact absurd hlost (by decide +kernel)

end Bench

end MarketSketch
