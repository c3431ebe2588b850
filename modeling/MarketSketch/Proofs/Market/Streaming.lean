import MarketSketch.Proofs.Market.Candle

/-! Streaming into a loaded buffer. A streamed bar is refused, or the buffer becomes what it would
be if the bar had been loaded with the candles before it; so a stream ends where loading its history
and the bars that were taken begins. -/

namespace MarketSketch.CandleBuffer

section Step

variable {cs : List Candle} {c d : Candle} {n : Nat}

theorem load_zero (cs : List Candle) : load cs 0 = ⟨[]⟩ := by rw [load_eq, lastOf_zero]

theorem last?_load_succ (cs : List Candle) (n : Nat) :
    (load cs (n + 1)).last? = (byTime cs).getLast? := by
  rw [← getLast?_series]
  exact getLast?_lastOf_succ n (series cs)

theorem load_concat_of_first (hc : c.finite = true) (h : (byTime cs).getLast? = none) (n : Nat) :
    load (cs ++ [c]) n = ⟨lastOf n [c]⟩ := by
  have hnil : series cs = [] := by
    rw [series, List.getLast?_eq_none_iff.mp h, lastOfEachTime]
  rw [load_eq, series_concat hc (by simp [h]), hnil]
  rfl

theorem load_concat_of_same (hc : c.finite = true) (hd : (byTime cs).getLast? = some d)
    (ht : d.time = c.time) (n : Nat) :
    load (cs ++ [c]) (n + 1) = ⟨(load cs (n + 1)).candles.dropLast ++ [c]⟩ := by
  have hlast : (series cs).getLast? = some d := (getLast?_series cs).trans hd
  have hlate : ∀ e ∈ (byTime cs).getLast?, e.time ≤ c.time := by simp [hd, ht]
  obtain ⟨before, hbefore⟩ := List.getLast?_eq_some_iff.mp hlast
  rw [load_eq, load_eq, series_concat hc hlate, hlast, Option.any_some, if_pos (decide_eq_true ht),
    hbefore, List.dropLast_concat, lastOf_succ_concat, lastOf_succ_concat, List.dropLast_concat]

theorem load_concat_of_later (hc : c.finite = true) (hd : (byTime cs).getLast? = some d)
    (ht : d.time < c.time) (n : Nat) :
    load (cs ++ [c]) n = ⟨lastOf n ((load cs n).candles ++ [c])⟩ := by
  have hlast : (series cs).getLast? = some d := (getLast?_series cs).trans hd
  have hlate : ∀ e ∈ (byTime cs).getLast?, e.time ≤ c.time := by
    simpa [hd] using Int.le_of_lt ht
  have hother : ¬ decide (d.time = c.time) = true := by simp [Int.ne_of_lt ht]
  rw [load_eq, load_eq, series_concat hc hlate, hlast, Option.any_some, if_neg hother,
    lastOf_lastOf_append]

/-- An update of a loaded buffer refuses the bar and does nothing, or does what loading the bar
after the other candles does. -/
theorem update_load (cs : List Candle) (c : Candle) (limit : Nat) :
    ((load cs limit).update c limit = (load cs limit, .rejected) ∧
        (c.finite = false ∨ ∃ d ∈ (load cs limit).candles, c.time < d.time)) ∨
      (((load cs limit).update c limit).1 = load (cs ++ [c]) limit ∧
        ((load cs limit).update c limit).2.applied = true ∧
        c.finite = true ∧ ∀ d ∈ (load cs limit).candles, d.time ≤ c.time) := by
  cases hc : c.finite with
  | false => exact .inl ⟨by simp [update, hc], .inl rfl⟩
  | true =>
    cases limit with
    | zero =>
      have hupdate : (⟨[]⟩ : CandleBuffer).update c 0 = (⟨[]⟩, .appended) := by
        simp [update, hc, last?]
      rw [load_zero, load_zero, hupdate]
      exact .inr ⟨rfl, rfl, rfl, by simp⟩
    | succ n =>
      have hlast := last?_load_succ cs n
      cases hd : (byTime cs).getLast? with
      | none =>
        rw [hd] at hlast
        have hupdate : (load cs (n + 1)).update c (n + 1) = (⟨lastOf (n + 1) [c]⟩, .appended) := by
          simp [update, hc, hlast]
        have hnil : (load cs (n + 1)).candles = [] := List.getLast?_eq_none_iff.mp hlast
        rw [hupdate, load_concat_of_first hc hd, hnil]
        exact .inr ⟨rfl, rfl, rfl, by simp⟩
      | some d =>
        rw [hd] at hlast
        have hmem : d ∈ (load cs (n + 1)).candles := List.mem_of_getLast? hlast
        have hbound : ∀ e ∈ (load cs (n + 1)).candles, e.time ≤ d.time :=
          fun e he => time_le_last hd (mem_byTime_of_mem_load he)
        rcases Int.lt_trichotomy d.time c.time with ht | ht | ht
        · have hupdate : (load cs (n + 1)).update c (n + 1) =
              (⟨lastOf (n + 1) ((load cs (n + 1)).candles ++ [c])⟩, .appended) := by
            simp [update, hc, hlast, Int.ne_of_lt ht, Int.not_lt.mpr (Int.le_of_lt ht)]
          rw [hupdate, load_concat_of_later hc hd ht]
          exact .inr ⟨rfl, rfl, rfl, fun e he => Int.le_trans (hbound e he) (Int.le_of_lt ht)⟩
        · have hupdate : (load cs (n + 1)).update c (n + 1) =
              (⟨(load cs (n + 1)).candles.dropLast ++ [c]⟩, .replaced) := by
            simp [update, hc, hlast, ht]
          rw [hupdate, load_concat_of_same hc hd ht]
          exact .inr ⟨rfl, rfl, rfl, fun e he => ht ▸ hbound e he⟩
        · have hupdate : (load cs (n + 1)).update c (n + 1) = (load cs (n + 1), .rejected) := by
            simp [update, hc, hlast, (Int.ne_of_lt ht).symm, ht]
          exact .inl ⟨hupdate, .inr ⟨d, hmem, ht⟩⟩

end Step

section Stream

variable {limit : Nat}

structure Update where
  before : CandleBuffer
  bar : Candle
  after : CandleBuffer
  answer : FeedUpdate
deriving DecidableEq

def updates (b : CandleBuffer) (limit : Nat) : List Candle → List Update
  | [] => []
  | c :: bars =>
    let u := b.update c limit
    ⟨b, c, u.1, u.2⟩ :: updates u.1 limit bars

def streamed (b : CandleBuffer) (limit : Nat) (bars : List Candle) : CandleBuffer :=
  bars.foldl (fun b c => (b.update c limit).1) b

/-- The bars of a stream that overwrote the last one or were appended. -/
def accepted (b : CandleBuffer) (limit : Nat) (bars : List Candle) : List Candle :=
  ((b.updates limit bars).filter (·.answer.applied)).map (·.bar)

theorem accepted_cons (b : CandleBuffer) (c : Candle) (bars : List Candle) :
    b.accepted limit (c :: bars) =
      (if (b.update c limit).2.applied then [c] else []) ++
        (b.update c limit).1.accepted limit bars := by
  rw [accepted, updates, List.filter_cons]
  split <;> rfl

theorem streamed_load (history bars : List Candle) (limit : Nat) :
    (load history limit).streamed limit bars =
      load (history ++ (load history limit).accepted limit bars) limit := by
  induction bars generalizing history with
  | nil => simp [accepted, updates, streamed]
  | cons c bars ih =>
    have hstep : (load history limit).streamed limit (c :: bars) =
        ((load history limit).update c limit).1.streamed limit bars := rfl
    rw [hstep, accepted_cons]
    rcases update_load history c limit with ⟨hrefused, _⟩ | ⟨hstate, happlied, _⟩
    · rw [hrefused]
      exact ih history
    · rw [hstate, if_pos happlied, ← List.append_assoc]
      exact ih (history ++ [c])

theorem exists_load_of_mem_updates {history bars : List Candle} {u : Update}
    (h : u ∈ (load history limit).updates limit bars) :
    ∃ cs, u = ⟨load cs limit, u.bar, ((load cs limit).update u.bar limit).1,
      ((load cs limit).update u.bar limit).2⟩ := by
  induction bars generalizing history with
  | nil => simp [updates] at h
  | cons c bars ih =>
    rcases List.mem_cons.mp h with rfl | hrest
    · exact ⟨history, rfl⟩
    · rcases update_load history c limit with ⟨hrefused, _⟩ | ⟨hstate, _⟩
      · rw [hrefused] at hrest
        exact ih hrest
      · rw [hstate] at hrest
        exact ih hrest

end Stream

/-- Streaming agrees with loading: after a history and any stream the buffer holds what loading the
history and the accepted bars would leave, for every limit. A bar is rejected exactly if it is not
finite or earlier than one that is held, and then it changes nothing. -/
theorem streamed_eq_load_accepted (history bars : List Candle) (limit : Nat) :
    let start := load history limit
    start.streamed limit bars = load (history ++ start.accepted limit bars) limit ∧
      ∀ u ∈ start.updates limit bars,
        (u.answer = .rejected → u.after = u.before) ∧
        (u.answer = .rejected ↔
          u.bar.finite = false ∨ ∃ c ∈ u.before.candles, u.bar.time < c.time) := by
  intro start
  refine ⟨streamed_load history bars limit, ?_⟩
  intro u hu
  obtain ⟨cs, hu⟩ := exists_load_of_mem_updates hu
  rw [hu]
  rcases update_load cs u.bar limit with ⟨hrefused, hwhy⟩ | ⟨hstate, happlied, hfinite, hlate⟩
  · rw [hrefused]
    exact ⟨fun _ => rfl, fun _ => hwhy, fun _ => rfl⟩
  · have htaken : ((load cs limit).update u.bar limit).2 ≠ .rejected := by
      intro hrejected
      simp [hrejected, FeedUpdate.applied] at happlied
    refine ⟨fun h => absurd h htaken, fun h => absurd h htaken, ?_⟩
    rintro (hbroken | ⟨c, hc, hearly⟩)
    · simp [hfinite] at hbroken
    · exact absurd (hlate c hc) (Int.not_le.mpr hearly)

theorem streamed_eq_load_accepted_of_crowded :
    let n := Double.ofNat
    let bar (time : Int) (price : Nat) : Candle := ⟨time, n price, n price, n price, n price⟩
    let broken : Candle := ⟨6, n 1, n 0 / n 0, n 1, n 1⟩
    let history := [broken, bar 3 1]
    let bars := [bar 3 5, bar 1 9, broken, bar 5 6, bar 4 1, bar 5 7, bar 7 2]
    let start := load history 2
    start.accepted 2 bars = [bar 3 5, bar 5 6, bar 5 7, bar 7 2] ∧
      load (history ++ [bar 3 5, bar 5 6, bar 5 7, bar 7 2]) 2 = ⟨[bar 5 7, bar 7 2]⟩ ∧
      ∃ u ∈ start.updates 2 bars, u.bar = bar 4 1 ∧ u.answer = .rejected ∧ u.after = u.before := by
  intro n bar broken history bars start
  have haccepted : start.accepted 2 bars = [bar 3 5, bar 5 6, bar 5 7, bar 7 2] := by
    decide +kernel
  have hend : start.streamed 2 bars = ⟨[bar 5 7, bar 7 2]⟩ := by decide +kernel
  obtain ⟨hload, hupdates⟩ := streamed_eq_load_accepted history bars 2
  rw [haccepted] at hload
  refine ⟨haccepted, hload.symm.trans hend, ?_⟩
  let held : CandleBuffer := ⟨[bar 3 5, bar 5 6]⟩
  have hlate : ⟨held, bar 4 1, held, .rejected⟩ ∈ start.updates 2 bars := by decide +kernel
  exact ⟨_, hlate, rfl, rfl, (hupdates _ hlate).1 rfl⟩

end MarketSketch.CandleBuffer
