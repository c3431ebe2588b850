import MarketSketch.Feed.LiveFeed
import MarketSketch.Proofs.Market.Candle
import Mathlib.Data.Finset.Card
import Mathlib.Data.List.Sort

/-! What a loaded history is, said without sorting: what times are kept, and which candle stands for
each of them. There is exactly one such list, and loading makes it. -/

namespace MarketSketch

def finiteAt (cs : List Candle) (t : Timestamp) : List Candle :=
  (cs.filter Candle.finite).filter (·.time = t)

def finiteTimes (cs : List Candle) : Finset Timestamp :=
  ((cs.filter Candle.finite).map (·.time)).toFinset

theorem mem_finiteTimes {cs : List Candle} {t : Timestamp} :
    t ∈ finiteTimes cs ↔ ∃ c ∈ cs, c.finite = true ∧ c.time = t := by
  simp [finiteTimes, and_assoc]

/-- The list is the history of some candles: its times ascend, they are the latest of the times of
finite candles, as many as there may be, and each stands with the finite candle that came last. -/
structure IsHistory (cs : List Candle) (limit : Nat) (kept : List Candle) : Prop where
  ascending : (kept.map (·.time)).Pairwise (· < ·)
  length_eq : kept.length = min limit (finiteTimes cs).card
  latest : ∀ t ∈ finiteTimes cs, t ∉ kept.map (·.time) → ∀ c ∈ kept, t < c.time
  last : ∀ c ∈ kept, (finiteAt cs c.time).getLast? = some c

namespace IsHistory

variable {cs kept kept' : List Candle} {limit : Nat}

theorem mem_times (h : IsHistory cs limit kept) {t : Timestamp} (ht : t ∈ kept.map (·.time)) :
    t ∈ finiteTimes cs := by
  obtain ⟨c, hc, rfl⟩ := List.mem_map.mp ht
  have hmem := List.mem_of_mem_filter (List.mem_of_getLast? (h.last c hc))
  obtain ⟨hcs, hfinite⟩ := List.mem_filter.mp hmem
  exact mem_finiteTimes.mpr ⟨c, hcs, hfinite, rfl⟩

theorem card_times (h : IsHistory cs limit kept) :
    (kept.map (·.time)).toFinset.card = min limit (finiteTimes cs).card := by
  have hnodup : (kept.map (·.time)).Nodup := h.ascending.imp Int.ne_of_lt
  rw [List.toFinset_card_of_nodup hnodup, List.length_map, h.length_eq]

theorem times_subset (h : IsHistory cs limit kept) (h' : IsHistory cs limit kept') {t : Timestamp}
    (ht : t ∈ kept.map (·.time)) : t ∈ kept'.map (·.time) := by
  by_contra hnot
  obtain ⟨u, hu', hu⟩ : ∃ u ∈ kept'.map (·.time), u ∉ kept.map (·.time) := by
    by_contra hall
    push Not at hall
    have hsubset : (kept'.map (·.time)).toFinset ⊆ (kept.map (·.time)).toFinset :=
      fun u hu => List.mem_toFinset.mpr (hall u (List.mem_toFinset.mp hu))
    have heq := Finset.eq_of_subset_of_card_le hsubset (by rw [h.card_times, h'.card_times])
    exact hnot (List.mem_toFinset.mp (heq ▸ List.mem_toFinset.mpr ht))
  obtain ⟨c, hc, rfl⟩ := List.mem_map.mp ht
  obtain ⟨d, hd, rfl⟩ := List.mem_map.mp hu'
  have hbefore : c.time < d.time := h'.latest _ (h.mem_times ht) hnot d hd
  have hafter : d.time < c.time := h.latest _ (h'.mem_times hu') hu c hc
  exact absurd hbefore (Int.not_lt.mpr (Int.le_of_lt hafter))

theorem unique (h : IsHistory cs limit kept) (h' : IsHistory cs limit kept') : kept = kept' := by
  have htimes : kept.map (·.time) = kept'.map (·.time) :=
    h.ascending.eq_of_mem_iff h'.ascending fun _ => ⟨h.times_subset h', h'.times_subset h⟩
  -- the candle of a time is the same on both sides
  have hcandles {l : List Candle} (hl : IsHistory cs limit l) :
      l.map some = (l.map (·.time)).map fun t => (finiteAt cs t).getLast? := by
    rw [List.map_map]
    exact List.map_congr_left fun c hc => (hl.last c hc).symm
  have hsome : kept.map some = kept'.map some := by
    rw [hcandles h, hcandles h', htimes]
  exact List.map_injective_iff.mpr (Option.some_injective _) hsome

end IsHistory

section Last

variable {cs : List Candle}

theorem exists_mem_lastOfEachTime {c : Candle} (h : c ∈ cs) :
    ∃ d ∈ lastOfEachTime cs, d.time = c.time := by
  fun_induction lastOfEachTime cs generalizing c with
  | case1 => simp at h
  | case2 d => exact ⟨d, List.mem_singleton_self d, by rw [List.mem_singleton.mp h]⟩
  | case3 d e rest heq ih =>
    rcases List.mem_cons.mp h with rfl | h
    · obtain ⟨f, hf, htime⟩ := ih List.mem_cons_self
      exact ⟨f, hf, htime.trans heq.symm⟩
    · exact ih h
  | case4 d e rest _ ih =>
    rcases List.mem_cons.mp h with rfl | h
    · exact ⟨c, List.mem_cons_self, rfl⟩
    · obtain ⟨f, hf, htime⟩ := ih h
      exact ⟨f, List.mem_cons_of_mem d hf, htime⟩

theorem ascending_lastOfEachTime (h : cs.Pairwise (·.time ≤ ·.time)) :
    (lastOfEachTime cs).Pairwise (·.time < ·.time) := by
  fun_induction lastOfEachTime cs with
  | case1 => exact List.Pairwise.nil
  | case2 c => exact List.pairwise_singleton _ c
  | case3 c d rest _ ih => exact ih h.of_cons
  | case4 c d rest hne ih =>
    rw [List.pairwise_cons]
    refine ⟨fun e he => ?_, ih h.of_cons⟩
    have hcd : c.time ≤ d.time := List.rel_of_pairwise_cons h List.mem_cons_self
    have hde : d.time ≤ e.time := by
      rcases List.mem_cons.mp (mem_of_mem_lastOfEachTime he) with rfl | hrest
      · exact Int.le_refl _
      · exact List.rel_of_pairwise_cons h.of_cons hrest
    exact Int.lt_of_lt_of_le (lt_of_le_of_ne hcd hne) hde

theorem getLast?_of_mem_lastOfEachTime (h : cs.Pairwise (·.time ≤ ·.time)) {c : Candle}
    (hc : c ∈ lastOfEachTime cs) : (cs.filter (·.time = c.time)).getLast? = some c := by
  fun_induction lastOfEachTime cs with
  | case1 => simp at hc
  | case2 d =>
    obtain rfl := List.mem_singleton.mp hc
    simp
  | case3 d e rest heq ih =>
    have ih := ih h.of_cons hc
    rw [List.filter_cons]
    split
    · rw [List.getLast?_cons, ih]
      rfl
    · exact ih
  | case4 d e rest hne ih =>
    have hlate : ∀ f ∈ e :: rest, d.time < f.time := by
      have hde : d.time < e.time :=
        lt_of_le_of_ne (List.rel_of_pairwise_cons h List.mem_cons_self) hne
      intro f hf
      rcases List.mem_cons.mp hf with rfl | hrest
      · exact hde
      · exact Int.lt_of_lt_of_le hde (List.rel_of_pairwise_cons h.of_cons hrest)
    rcases List.mem_cons.mp hc with rfl | hc
    · have hnone : (e :: rest).filter (·.time = c.time) = [] := by
        rw [List.filter_eq_nil_iff]
        intro f hf
        simpa using (Int.ne_of_lt (hlate f hf)).symm
      rw [List.filter_cons_of_pos (by simp), hnone]
      rfl
    · have hother : d.time ≠ c.time := Int.ne_of_lt (hlate c (mem_of_mem_lastOfEachTime hc))
      rw [List.filter_cons_of_neg (by simpa using hother)]
      exact ih h.of_cons hc

end Last

namespace CandleBuffer

variable (cs : List Candle) (limit : Nat)

theorem mem_byTime {cs : List Candle} {c : Candle} : c ∈ byTime cs ↔ c ∈ cs ∧ c.finite = true := by
  rw [byTime, List.mem_mergeSort, List.mem_filter]

theorem sorted_byTime : (byTime cs).Pairwise (·.time ≤ ·.time) :=
  (List.pairwise_mergeSort time_trans time_total (cs.filter Candle.finite)).imp of_decide_eq_true

theorem filter_byTime (t : Timestamp) : (byTime cs).filter (·.time = t) = finiteAt cs t := by
  have hequal : (finiteAt cs t).Pairwise fun c d => decide (c.time ≤ d.time) = true := by
    refine List.pairwise_of_forall_mem_list fun c hc d hd => ?_
    have hct : c.time = t := by simpa using (List.mem_filter.mp hc).2
    have hdt : d.time = t := by simpa using (List.mem_filter.mp hd).2
    rw [hct, hdt]
    exact decide_eq_true (Int.le_refl t)
  have hsublist : (finiteAt cs t).Sublist (byTime cs) :=
    List.sublist_mergeSort time_trans time_total hequal List.filter_sublist
  have hfixed : (finiteAt cs t).filter (·.time = t) = finiteAt cs t := by
    simp [finiteAt, List.filter_filter]
  have hlength : ((byTime cs).filter (·.time = t)).length = (finiteAt cs t).length :=
    ((List.mergeSort_perm _ _).filter _).length_eq
  have hkept := hsublist.filter (·.time = t)
  rw [hfixed] at hkept
  exact (hkept.eq_of_length hlength.symm).symm

theorem ascending_series : (series cs).Pairwise (·.time < ·.time) :=
  ascending_lastOfEachTime (sorted_byTime cs)

theorem times_series : ((series cs).map (·.time)).toFinset = finiteTimes cs := by
  ext t
  rw [List.mem_toFinset, List.mem_map, mem_finiteTimes]
  constructor
  · rintro ⟨c, hc, rfl⟩
    obtain ⟨hcs, hfinite⟩ := mem_byTime.mp (mem_of_mem_lastOfEachTime hc)
    exact ⟨c, hcs, hfinite, rfl⟩
  · rintro ⟨c, hcs, hfinite, rfl⟩
    exact exists_mem_lastOfEachTime (mem_byTime.mpr ⟨hcs, hfinite⟩)

theorem length_series : (series cs).length = (finiteTimes cs).card := by
  have hnodup : ((series cs).map (·.time)).Nodup :=
    List.pairwise_map.mpr ((ascending_series cs).imp Int.ne_of_lt)
  rw [← times_series, List.toFinset_card_of_nodup hnodup, List.length_map]

theorem isHistory_load : IsHistory cs limit (load cs limit).candles := by
  rw [load_eq]
  show IsHistory cs limit ((series cs).drop ((series cs).length - limit))
  have hascending := ascending_series cs
  have hsplit := List.take_append_drop ((series cs).length - limit) (series cs)
  have hparts := hascending
  rw [← hsplit, List.pairwise_append] at hparts
  refine ⟨List.pairwise_map.mpr (hascending.drop), ?_, ?_, ?_⟩
  · rw [List.length_drop, length_series]
    omega
  · intro t ht hnot c hc
    rw [← times_series, List.mem_toFinset, ← hsplit, List.map_append, List.mem_append] at ht
    obtain ⟨d, hd, rfl⟩ := List.mem_map.mp (ht.resolve_right hnot)
    exact hparts.2.2 d hd c hc
  · intro c hc
    rw [← filter_byTime]
    exact getLast?_of_mem_lastOfEachTime (sorted_byTime cs) (List.mem_of_mem_drop hc)

theorem candles_load_iff (kept : List Candle) :
    (load cs limit).candles = kept ↔ IsHistory cs limit kept :=
  ⟨fun h => h ▸ isHistory_load cs limit, (isHistory_load cs limit).unique⟩

end CandleBuffer

/-- Loading leaves the history of the candles that came in and no other list; so does a feed,
whatever it held before. -/
theorem LiveFeed.holds_history_iff (cs kept : List Candle) (limit : Nat) :
    ((CandleBuffer.load cs limit).candles = kept ↔ IsHistory cs limit kept) ∧
      ∀ (f : LiveFeed) (g : Guard) (t : Ticket), f.limit = limit → g.isCurrent t = true →
        ((f.load g t cs).state.candles = kept ↔ IsHistory cs limit kept) := by
  refine ⟨CandleBuffer.candles_load_iff cs limit kept, ?_⟩
  rintro f g t rfl ht
  rw [LiveFeed.load, if_pos ht]
  exact CandleBuffer.candles_load_iff cs f.limit kept

theorem LiveFeed.holds_history_of_crowded :
    let n := Double.ofNat
    let bar (time : Int) (price : Nat) : Candle := ⟨time, n price, n price, n price, n price⟩
    let broken : Candle := ⟨9, n 1, n 0 / n 0, n 1, n 1⟩
    let cs := [bar 5 1, broken, bar 3 2, bar 5 4, bar 1 3, bar 3 6]
    let f : LiveFeed := ⟨⟨[bar 7 7]⟩, none, 2⟩
    IsHistory cs 2 [bar 3 6, bar 5 4] ∧
      (CandleBuffer.load cs 2).candles = [bar 3 6, bar 5 4] ∧
      (f.load ⟨1⟩ ⟨1, ⟨"EURUSD"⟩⟩ cs).state.candles = [bar 3 6, bar 5 4] := by
  intro n bar broken cs f
  have hhistory : IsHistory cs 2 [bar 3 6, bar 5 4] :=
    ⟨by decide, by decide +kernel, by decide +kernel, by decide +kernel⟩
  obtain ⟨hbuffer, hfeed⟩ := LiveFeed.holds_history_iff cs [bar 3 6, bar 5 4] 2
  exact ⟨hhistory, hbuffer.mpr hhistory, (hfeed f ⟨1⟩ _ rfl rfl).mpr hhistory⟩

end MarketSketch
