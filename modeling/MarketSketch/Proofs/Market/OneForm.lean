import MarketSketch.Market.Wire
import MarketSketch.Proofs.Json.Told
import MarketSketch.Proofs.Market.WireForm

/-! History and stream read one form of a bar. An entry of a history response is the bar that its
text is as a message, or none, so the response is read entry by entry as the stream would be. -/

namespace MarketSketch

open MarketSketch.Json

section Told

variable {l : Literal} {v : Value}

theorem RawTime.ofDocument?_eq {δ : Type} [Document δ] (d : δ) :
    RawTime.ofDocument? d = ((real? d).map .number).or ((text? d).map .text) := by
  unfold RawTime.ofDocument? real? text?
  split <;> simp_all

theorem RawTime.ofDocument?_told (h : l.Tells v) :
    RawTime.ofDocument? l = RawTime.ofDocument? v := by
  rw [RawTime.ofDocument?_eq, RawTime.ofDocument?_eq, h.real, h.text]

theorem required?_told {α : Type} {read : Literal → Option α} {read' : Value → Option α}
    (h : ∀ {l v}, Literal.Tells l v → read l = read' v) {l? : Option Literal} {v? : Option Value}
    (htold : Option.Rel Literal.Tells l? v?) : required? read l? = required? read' v? := by
  cases htold with
  | none => rfl
  | some htold => exact h htold

theorem WireCandle.ofDocument?_told (h : ToldFields (fields? fieldNames l) (fields? fieldNames v)) :
    ofDocument? l = ofDocument? v := by
  unfold ofDocument?
  generalize fields? fieldNames l = ls at h
  generalize fields? fieldNames v = vs at h
  cases h with
  | none => rfl
  | some h =>
    match h with
    | .cons htime (.cons hopening (.cons hhigh (.cons hlow (.cons hclosing .nil)))) =>
      have hreal {l : Literal} {v : Value} (h : l.Tells v) : real? l = real? v := h.real
      simp only [Option.bind_eq_bind, Option.bind_some,
        required?_told RawTime.ofDocument?_told htime, required?_told hreal hopening,
        required?_told hreal hhigh, required?_told hreal hlow, required?_told hreal hclosing]
    | .nil | .cons _ .nil | .cons _ (.cons _ .nil) | .cons _ (.cons _ (.cons _ .nil))
    | .cons _ (.cons _ (.cons _ (.cons _ .nil)))
    | .cons _ (.cons _ (.cons _ (.cons _ (.cons _ (.cons _ _))))) => rfl

end Told

theorem candleOfEntry?_eq {e : Value} (h : e.Proper) :
    candleOfEntry? e = (candleOfMessage e.text).toOption := by
  obtain ⟨l, hread, htold⟩ := told_text h WireCandle.fieldNames
  have hsame := WireCandle.ofDocument?_told htold
  unfold candleOfEntry? candleOfMessage
  rw [hread, Option.bind_some, hsame]
  cases WireCandle.ofDocument? e <;> rfl

/-- The document is these entries, or an object with them as its `candles`. -/
def CarriesBars (document : Value) (es : List Value) : Prop :=
  document = .array es ∨ document.get? "candles" = some (.array es)

theorem historyEntries?_eq_some_iff {document : Value} {es : List Value} :
    historyEntries? document = some es ↔ CarriesBars document es := by
  have hbind : (document.get? "candles").bind (·.asArray?) = some es ↔
      document.get? "candles" = some (.array es) := by
    simp [Option.bind_eq_some_iff, Value.asArray?_eq_some_iff]
  unfold historyEntries? CarriesBars
  rw [Option.or_eq_some_iff, Value.asArray?_eq_some_iff, hbind]
  refine or_congr_right (and_iff_right_of_imp fun h => ?_)
  cases document with
  | object => rfl
  | _ => cases h

theorem proper_of_carriesBars {text : String} {document : Value} {es : List Value}
    (h : Value.ofText? text = some document) (hes : CarriesBars document es) :
    ∀ e ∈ es, e.Proper := by
  have hdocument := proper_of_ofText? h
  rcases hes with rfl | hes
  · exact elementsProper_iff.mp hdocument
  · exact elementsProper_iff.mp (hdocument.of_get? hes)

/-- Whatever document carries the entries, the answer has for each entry in turn the bar that its
text is as a message. A document without a list of entries is refused. -/
theorem history_reads_as_stream (es : List Value) (hes : ∀ e ∈ es, e.Proper) :
    (∀ document, CarriesBars document es → candlesOfHistory document =
      .ok (es.filterMap fun e => (candleOfMessage e.text).toOption)) ∧
    ∀ document, (∀ es, ¬ CarriesBars document es) →
      candlesOfHistory document = .error (.parse .history) := by
  refine ⟨fun document h => ?_, fun document h => ?_⟩
  · have hentries := historyEntries?_eq_some_iff.mpr h
    have hbars : es.filterMap candleOfEntry? =
        es.filterMap fun e => (candleOfMessage e.text).toOption :=
      List.filterMap_congr fun e he => candleOfEntry?_eq (hes e he)
    rw [candlesOfHistory, hentries, ← hbars]
  · have hnone : historyEntries? document = none :=
      Option.eq_none_iff_forall_ne_some.mpr fun es hes => h es (historyEntries?_eq_some_iff.mp hes)
    rw [candlesOfHistory, hnone]

def mixedEntries : List Value :=
  [.object [("close", .int 1), ("high", .int 1), ("low", .int 1), ("open", .int 1),
      ("time", .int 300000000000), ("volume", .null)],
    .null,
    .object [("close", .int 1), ("high", .int 1), ("low", .int 1), ("open", .int 1)],
    .array [.string "600", .int 1, .int 1, .int 1, .int 1],
    .array [.int 900, .int 1, .int 1, .string "1", .int 1]]

theorem history_reads_as_stream_of_mixed :
    (∀ e ∈ mixedEntries, e.Proper) ∧
      candlesOfHistory (.object [("candles", .array mixedEntries), ("ok", .bool true)]) =
        .ok [unitBar 300000000, unitBar 600] ∧
      candlesOfHistory (.object [("ok", .bool false)]) = .error (.parse .history) := by
  have hproper : ∀ e ∈ mixedEntries, e.Proper := by
    simp [mixedEntries, Value.int, Value.Proper, ElementsProper, MembersProper]
  have hmessages : (mixedEntries.filterMap fun e => (candleOfMessage e.text).toOption) =
      [unitBar 300000000, unitBar 600] := by decide +kernel
  have hnone (es : List Value) : ¬ CarriesBars (.object [("ok", .bool false)]) es := by
    simp [CarriesBars, Value.get?, List.lookup]
  obtain ⟨hcarried, hrefused⟩ := history_reads_as_stream mixedEntries hproper
  exact ⟨hproper, hmessages ▸ hcarried _ (.inr rfl), hrefused _ hnone⟩

end MarketSketch
