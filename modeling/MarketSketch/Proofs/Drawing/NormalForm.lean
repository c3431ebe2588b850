import MarketSketch.Proofs.Board.Bench
import MarketSketch.Proofs.Drawing.RoundTrip

/-! Loading as a normal form. What a text is read as can be written and read again without change,
and these are all the lists of shapes for which that is so: their ids are distinct and show, their
coordinates are finite. -/

namespace MarketSketch

namespace Archive

open MarketSketch.Json

/-- A list of shapes that a text can stand for. -/
structure Normal (shapes : List Shape) : Prop where
  distinct : (shapes.map (·.id)).Nodup
  storable : ∀ s ∈ shapes, storable s = true
  timed : ∀ s ∈ shapes, IsSignedWord s.createdAt

theorem normal_shapes (text : String) : Normal (shapes text) :=
  ⟨nodup_ids_shapes text, fun _ hs => (of_mem_shapes hs).1, fun _ hs => (of_mem_shapes hs).2⟩

variable {xs : List Shape} {savedAt : Int}

theorem Normal.verdicts (h : Normal xs) {seen : List String} (hseen : ∀ s ∈ xs, s.id ∉ seen)
    (index : Nat) :
    Archive.verdicts seen index (normalElements (xs.map shapeJson)) = xs.map .kept := by
  induction xs generalizing seen index with
  | nil => rfl
  | cons s rest ih =>
    obtain ⟨hnew, hdistinct⟩ := List.nodup_cons.mp h.distinct
    have hvalid : validShape? (shapeJson s).normal = some s := by
      rw [validShape?_normal (h.timed s List.mem_cons_self),
        if_pos (h.storable s List.mem_cons_self)]
    have hrest : Normal rest :=
      ⟨hdistinct, fun t ht => h.storable t (List.mem_cons_of_mem s ht),
        fun t ht => h.timed t (List.mem_cons_of_mem s ht)⟩
    have hfresh : ∀ t ∈ rest, t.id ∉ s.id :: seen := by
      intro t ht hmem
      rcases List.mem_cons.mp hmem with heq | hold
      · exact hnew (List.mem_map.mpr ⟨t, ht, heq⟩)
      · exact hseen t (List.mem_cons_of_mem s ht) hold
    rw [List.map_cons, normalElements, Archive.verdicts, hvalid]
    dsimp only
    rw [if_neg (hseen s List.mem_cons_self), ih hrest hfresh, List.map_cons]

theorem Normal.readVerdicts_encode (h : Normal xs) (hsaved : IsSignedWord savedAt) :
    readVerdicts (encode xs savedAt) = xs.map .kept := by
  rw [Archive.readVerdicts_encode h.timed hsaved, h.verdicts (by simp)]

theorem Normal.shapes_encode (h : Normal xs) (hsaved : IsSignedWord savedAt) :
    shapes (encode xs savedAt) = xs := by
  unfold shapes
  rw [h.readVerdicts_encode hsaved, List.filterMap_map]
  exact List.filterMap_some

theorem Normal.notes_encode (h : Normal xs) (hsaved : IsSignedWord savedAt) :
    notes (encode xs savedAt) = [] := by
  have hread := ofText?_text (fits_envelope h.timed hsaved)
  unfold notes
  rw [h.readVerdicts_encode hsaved, encode, hread, List.filterMap_map]
  exact List.filterMap_eq_nil_iff.mpr fun s _ => rfl

theorem exists_shapes_eq_iff : (∃ text, shapes text = xs) ↔ Normal xs := by
  constructor
  · rintro ⟨text, rfl⟩
    exact normal_shapes text
  · intro h
    have hzero : IsSignedWord 0 := by decide
    exact ⟨encode xs 0, h.shapes_encode hzero⟩

/-- What any text is read as has ids that differ and that show, and finite coordinates. Written at
any time it is read as itself, and nothing is dropped any more: a store that was opened on the text
asks for one write, and from what any write of it stores the same store is opened. -/
theorem shapes_encode_shapes (text key : String) (hsaved : IsSignedWord savedAt) :
    let loaded := shapes text
    let store := (Store.opened key (.ok (some text))).state
    (loaded.map (·.id)).Nodup ∧
      (∀ s ∈ loaded, Text.trim s.id ≠ "" ∧ s.geometry.finite = true) ∧
      shapes (encode loaded savedAt) = loaded ∧
      store.saving = [.write key loaded] ∧
      Store.opened key (.ok (some (encode loaded savedAt))) = ⟨store, (), []⟩ ∧
      ∀ d : Desk, d.vault.writeFault d.vault.writes = none →
        Store.opened key (.ok ((d.performAll store.saving).vault.peek? key)) =
          ⟨store, (), []⟩ := by
  intro loaded store
  have hnormal : Normal loaded := normal_shapes text
  have hopened {now : Int} (hnow : IsSignedWord now) :
      Store.opened key (.ok (some (encode loaded now))) = ⟨store, (), []⟩ := by
    have hshapes : shapes (encode loaded now) = loaded := hnormal.shapes_encode hnow
    have hnotes : notes (encode loaded now) = [] := hnormal.notes_encode hnow
    unfold Store.opened Store.loaded
    dsimp only
    rw [hshapes, hnotes]
    rfl
  refine ⟨hnormal.distinct, fun s hs => storable_iff.mp (hnormal.storable s hs),
    hnormal.shapes_encode hsaved, rfl, hopened hsaved, fun d hmet => ?_⟩
  have hstored : (d.performAll store.saving).vault.peek? key = some (d.envelope loaded) := by
    show (d.perform (.write key loaded)).vault.peek? key = _
    rw [Desk.perform_write_vault, Vault.peek?_write_of_met hmet]
  rw [hstored]
  exact hopened (isSignedWord_signedWord _)

theorem shapes_encode_shapes_of_handEdited :
    let text := "\x7b\"shapes\":[[\"level\",\"a\",1,null,5E0]," ++
      "\x7b\"price\":7,\"kind\":\"level\",\"id\":\"\\u0061\",\"createdAt\":2\x7d," ++
      "\x7b\"createdAt\":-3,\"b\":[1e1,2],\"a\":\x7b\"time\":0.50,\"price\":-0.0,\"z\":[]\x7d," ++
      "\"kind\":\"zone\",\"id\":\"z\\n\",\"label\":\"q\"\x7d,7],\"version\":1\x7d"
    let level : Shape := ⟨"a", 1, none, .level (Double.ofNat 5)⟩
    let zone : Shape := ⟨"z\n", -3, some "q", .zone ⟨Float.ofBits 0x3FE0000000000000,
      Float.ofBits 0x8000000000000000⟩ ⟨Double.ofNat 10, Double.ofNat 2⟩⟩
    let store : Store := ⟨[level, zone], some "k"⟩
    let desk : Desk := { clock := 7 }
    IsSignedWord 9 ∧ shapes text = [level, zone] ∧
      Store.opened "k" (.ok (some (encode [level, zone] 9))) = ⟨store, (), []⟩ ∧
      Store.opened "k" (.ok ((desk.performAll store.saving).vault.peek? "k")) =
        ⟨store, (), []⟩ := by
  intro text level zone store desk
  have hsaved : IsSignedWord 9 := by decide
  have hread : shapes text = [level, zone] := by decide +kernel
  obtain ⟨-, -, -, -, hopened, hwritten⟩ := shapes_encode_shapes text "k" hsaved
  have hstore : (Store.opened "k" (.ok (some text))).state = store :=
    congrArg (Store.mk · (some "k")) hread
  rw [hread, hstore] at hopened
  rw [hstore] at hwritten
  exact ⟨hsaved, hread, hopened, hwritten desk rfl⟩

end Archive

end MarketSketch
