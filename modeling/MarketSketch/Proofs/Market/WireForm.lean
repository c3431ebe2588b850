import MarketSketch.Market.Wire
import MarketSketch.Proofs.Json.Written
import MarketSketch.Proofs.Number.Whole

/-! Candles sent and read back. The prices come back as they were; the time is sent as a number of
seconds, and one beyond the threshold of milliseconds is taken for milliseconds. -/

namespace MarketSketch

namespace Timestamp

variable {t : Int}

theorem saturated_eq_self (h : t.natAbs ≤ 2 ^ 53) : saturated t = t := by
  unfold saturated leastWord greatestWord
  omega

theorem millisecondsFrom_lt_iff (h : t.natAbs ≤ 2 ^ 53) :
    millisecondsFrom < toFloat t ↔ 2000000000 < t := by
  have hthreshold : millisecondsFrom = Double.ofInt 2000000000 :=
    (Double.ofInt_natCast 2000000000).symm
  have hsmall : (2000000000 : Int).natAbs ≤ 2 ^ 53 := by decide
  rw [hthreshold, toFloat, Double.lt_iff_value (Double.isFinite_ofInt hsmall)
    (Double.isFinite_ofInt h), Double.value_ofInt hsmall, Double.value_ofInt h, Int.cast_lt]

theorem floor_milliseconds (h : t.natAbs ≤ 2 ^ 53) (hpos : 0 < t) :
    Double.floor (toFloat t / Double.ofNat 1000) = t / 1000 := by
  obtain ⟨n, rfl⟩ := Int.eq_ofNat_of_zero_le hpos.le
  rw [Int.natAbs_natCast] at h
  have hpower : (2 : Nat) ^ 53 < 1000 * 2 ^ (53 - 9) := by norm_num
  rw [toFloat, Double.ofInt_natCast, Double.floor_div (by omega) (by decide) h (by decide)
    (by decide) (h.trans_lt hpower), Int.natCast_ediv]
  rfl

theorem ofNumber?_toFloat (h : t.natAbs ≤ 2 ^ 53) :
    ofNumber? (toFloat t) = some (if 2000000000 < t then t / 1000 else t) := by
  have hfinite : (toFloat t).isFinite = true := Double.isFinite_ofInt h
  rw [ofNumber?, if_pos hfinite]
  simp only [millisecondsFrom_lt_iff h]
  split
  · rename_i hlate
    rw [floor_milliseconds h (by omega), saturated_eq_self (by omega)]
  · rw [toFloat, Double.floor_ofInt h, saturated_eq_self h]

end Timestamp

theorem RawTime.ofDocument?_of_wide {l : Json.Literal} {depth : Nat} {x : Float}
    (h : l.toValue? depth = some (.number (.wide x))) :
    RawTime.ofDocument? l = some (.number x) := by
  obtain ⟨n, rfl, hn⟩ := Json.exists_numeral_of_wide h
  exact congrArg (Option.map RawTime.number) hn

namespace WireCandle

open MarketSketch.Json

theorem ofDocument?_text {x : Float} {c : Candle} (hx : x.isFinite = true) (hc : c.finite = true) :
    (Literal.ofText? (toJson ⟨.number x, c.opening, c.high, c.low, c.closing⟩).text).bind
        ofDocument? =
      some ⟨.number x, c.opening, c.high, c.low, c.closing⟩ := by
  have hprices : c.opening.isFinite = true ∧ c.high.isFinite = true ∧ c.low.isFinite = true ∧
      c.closing.isFinite = true := by
    simpa [Candle.finite, Candle.prices] using hc
  obtain ⟨ho, hh, hl, hcl⟩ := hprices
  have hfits : MembersFit [("time", .real x), ("open", .real c.opening), ("high", .real c.high),
      ("low", .real c.low), ("close", .real c.closing)] 0 := by
    simp [MembersFit, Value.Fits, Value.real]
  have hnames : fieldNames.Nodup := by decide
  obtain ⟨l, fs, hread, hfs, hfields⟩ := fields?_written hfits hnames fieldNames
  have hlooked : fs.map (·.map (·.toValue? 0)) =
      [x, c.opening, c.high, c.low, c.closing].map fun y => some (some (.real y)) := by
    rw [hfields]
    simp [fieldNames, List.lookup, Value.real, Value.normal, hx, ho, hh, hl, hcl]
  simp only [List.map_cons, List.map_nil, List.map_eq_cons_iff, List.map_eq_nil_iff,
    Option.map_eq_some_iff] at hlooked
  obtain ⟨_, _, rfl, ⟨time, rfl, htime⟩, _, _, rfl, ⟨opening, rfl, hopening⟩, _, _, rfl,
    ⟨high, rfl, hhigh⟩, _, _, rfl, ⟨low, rfl, hlow⟩, _, _, rfl, ⟨closing, rfl, hclosing⟩, rfl⟩ :=
    hlooked
  have hdocument : ofDocument? l = some ⟨.number x, c.opening, c.high, c.low, c.closing⟩ := by
    unfold ofDocument?
    rw [hfs]
    simp [required?, RawTime.ofDocument?_of_wide htime, real?_of_wide hopening,
      real?_of_wide hhigh, real?_of_wide hlow, real?_of_wide hclosing]
  rw [← hdocument]
  exact congrArg (·.bind ofDocument?) hread

end WireCandle

theorem finite_of_candleOfMessage {text : String} {c : Candle} (h : candleOfMessage text = .ok c) :
    c.finite = true := by
  unfold candleOfMessage at h
  split at h
  · cases h
  · rename_i w _
    unfold WireCandle.candle at h
    split at h
    · cases h
    · dsimp only at h
      split at h
      · rename_i hfinite
        cases h
        exact hfinite
      · cases h

theorem candleOfMessage_text {c : Candle} (hc : c.finite = true) (ht : c.time.natAbs ≤ 2 ^ 53) :
    candleOfMessage (WireCandle.ofCandle c).toJson.text =
      .ok { c with time := if 2000000000 < c.time then c.time / 1000 else c.time } := by
  have hread := WireCandle.ofDocument?_text (Double.isFinite_ofInt ht) hc
  unfold candleOfMessage
  rw [WireCandle.ofCandle, Timestamp.toFloat, hread]
  simp only [WireCandle.candle, RawTime.timestamp?]
  have htime : Timestamp.ofNumber? (Double.ofInt c.time) = _ := Timestamp.ofNumber?_toFloat ht
  rw [htime]
  exact if_pos hc

/-- A candle that a message gave is read back as it is if its time is not beyond the threshold of
milliseconds. A later one is read back with a time that is too early a thousand times. -/
theorem candle_reads_back {text : String} {c : Candle} (h : candleOfMessage text = .ok c)
    (ht : c.time.natAbs ≤ 2 ^ 53) :
    (candleOfMessage (WireCandle.ofCandle c).toJson.text = .ok c ↔ c.time ≤ 2000000000) ∧
      (2000000000 < c.time → candleOfMessage (WireCandle.ofCandle c).toJson.text =
        .ok { c with time := c.time / 1000 }) := by
  have hread := candleOfMessage_text (finite_of_candleOfMessage h) ht
  rcases lt_or_ge (2000000000 : Int) c.time with hlate | hearly
  · rw [if_pos hlate] at hread
    refine ⟨?_, fun _ => hread⟩
    rw [hread]
    refine iff_of_false (fun heq => ?_) (Int.not_le.mpr hlate)
    have hother (t : Int) (h : 2000000000 < t) : t / 1000 ≠ t := by omega
    exact hother c.time hlate (congrArg Candle.time (Except.ok.inj heq))
  · rw [if_neg (Int.not_lt.mpr hearly)] at hread
    exact ⟨iff_of_true hread hearly, fun hlate => absurd hlate (Int.not_lt.mpr hearly)⟩

def barText (time : Nat) : String :=
  "\x7b\"time\":" ++ toString time ++ ",\"open\":1,\"high\":1,\"low\":1,\"close\":1\x7d"

def unitBar (time : Int) : Candle :=
  ⟨time, Double.ofNat 1, Double.ofNat 1, Double.ofNat 1, Double.ofNat 1⟩

theorem candle_reads_back_of_bars :
    candleOfMessage (WireCandle.ofCandle (unitBar 300)).toJson.text = .ok (unitBar 300) ∧
      candleOfMessage (WireCandle.ofCandle (unitBar 10000000000)).toJson.text =
        .ok (unitBar 10000000) := by
  have hearly : candleOfMessage (barText 300) = .ok (unitBar 300) := by decide +kernel
  have hlate : candleOfMessage (barText 10000000000000) = .ok (unitBar 10000000000) := by
    decide +kernel
  exact ⟨(candle_reads_back hearly (by decide)).1.mpr (by decide),
    (candle_reads_back hlate (by decide)).2 (by decide)⟩

/-- Not every candle that a message gives is read back. -/
theorem late_candle_misread :
    ¬ ∀ (text : String) (c : Candle), candleOfMessage text = .ok c → c.time.natAbs ≤ 2 ^ 53 →
      candleOfMessage (WireCandle.ofCandle c).toJson.text = .ok c := by
  intro h
  have hback := h (barText 10000000000000) (unitBar 10000000000) (by decide +kernel) (by decide)
  have hmisread : candleOfMessage (WireCandle.ofCandle (unitBar 10000000000)).toJson.text ≠
      .ok (unitBar 10000000000) := by decide +kernel
  exact hmisread hback

end MarketSketch
