import MarketSketch.Market.Candle
import Mathlib.Data.List.Basic

/-! The series behind a loaded buffer: all finite candles by time, the last of each time. The buffer
is the end of the series, and a bar that nothing is after changes only the end. -/

namespace MarketSketch

section Last

variable {α : Type}

theorem mem_of_mem_lastOf {n : Nat} {xs : List α} {x : α} (h : x ∈ lastOf n xs) : x ∈ xs :=
  List.mem_of_mem_drop h

@[simp] theorem lastOf_zero (xs : List α) : lastOf 0 xs = [] := by simp [lastOf]

theorem lastOf_succ_concat (n : Nat) (xs : List α) (x : α) :
    lastOf (n + 1) (xs ++ [x]) = lastOf n xs ++ [x] := by
  have hlength : (xs ++ [x]).length - (n + 1) = xs.length - n := by simp
  unfold lastOf
  rw [hlength, List.drop_append_of_le_length (Nat.sub_le xs.length n)]

theorem lastOf_lastOf_append (n : Nat) (xs ys : List α) :
    lastOf n (lastOf n xs ++ ys) = lastOf n (xs ++ ys) := by
  have hlength : (xs ++ ys).length - n = (xs.length - n) + ((lastOf n xs ++ ys).length - n) := by
    simp only [lastOf, List.length_append, List.length_drop]
    omega
  unfold lastOf at hlength ⊢
  rw [hlength, ← List.drop_drop, List.drop_append_of_le_length (Nat.sub_le xs.length n)]

theorem getLast?_lastOf_succ (n : Nat) (xs : List α) :
    (lastOf (n + 1) xs).getLast? = xs.getLast? := by
  rcases List.eq_nil_or_concat xs with rfl | ⟨ys, y, rfl⟩
  · simp [lastOf]
  · rw [List.concat_eq_append, lastOf_succ_concat, List.getLast?_concat, List.getLast?_concat]

end Last

section Sorting

variable {α : Type} {le : α → α → Bool}

theorem mergeSort_cons_eq (trans : ∀ a b c, le a b = true → le b c = true → le a c = true)
    (total : ∀ a b, (le a b || le b a) = true) (a : α) (l : List α) :
    (a :: l).mergeSort le = (l.mergeSort le).takeWhile (fun b => !le a b) ++
      a :: (l.mergeSort le).dropWhile fun b => !le a b := by
  obtain ⟨before, after, hnew, hold, hbefore⟩ := List.mergeSort_cons trans total a l
  have hsorted := List.pairwise_mergeSort trans total (a :: l)
  rw [hnew, List.pairwise_append, List.pairwise_cons] at hsorted
  have hafter : ∀ b ∈ after, le a b = true := hsorted.2.1.1
  rw [hnew, hold, List.takeWhile_append_of_pos hbefore, List.dropWhile_append_of_pos hbefore]
  cases after with
  | nil => simp
  | cons b after => simp [hafter b List.mem_cons_self]

theorem takeWhile_concat_of_neg {p : α → Bool} {a : α} (h : p a = false) (l : List α) :
    (l ++ [a]).takeWhile p = l.takeWhile p := by
  induction l with
  | nil => simp [h]
  | cons b l ih => rw [List.cons_append, List.takeWhile_cons, List.takeWhile_cons, ih]

theorem dropWhile_concat_of_neg {p : α → Bool} {a : α} (h : p a = false) (l : List α) :
    (l ++ [a]).dropWhile p = l.dropWhile p ++ [a] := by
  induction l with
  | nil => simp [h]
  | cons b l ih =>
    rw [List.cons_append, List.dropWhile_cons, List.dropWhile_cons, ih]
    split <;> rfl

theorem mergeSort_concat (trans : ∀ a b c, le a b = true → le b c = true → le a c = true)
    (total : ∀ a b, (le a b || le b a) = true) {l : List α} {a : α}
    (h : ∀ b ∈ l, le b a = true) : (l ++ [a]).mergeSort le = l.mergeSort le ++ [a] := by
  induction l with
  | nil => simp
  | cons b l ih =>
    have hrest := ih fun c hc => h c (List.mem_cons_of_mem b hc)
    let p (c : α) : Bool := !le b c
    have hstop : p a = false := by simp [p, h b List.mem_cons_self]
    have hbefore := takeWhile_concat_of_neg hstop (l.mergeSort le)
    have hafter := dropWhile_concat_of_neg hstop (l.mergeSort le)
    rw [List.cons_append, mergeSort_cons_eq trans total, mergeSort_cons_eq trans total, hrest,
      hbefore, hafter, List.append_assoc, List.cons_append]

end Sorting

theorem mem_of_mem_lastOfEachTime {cs : List Candle} {c : Candle} (h : c ∈ lastOfEachTime cs) :
    c ∈ cs := by
  fun_induction lastOfEachTime cs with
  | case1 => exact h
  | case2 d => exact h
  | case3 d e rest _ ih => exact List.mem_cons_of_mem d (ih h)
  | case4 d e rest _ ih =>
    rcases List.mem_cons.mp h with rfl | h
    · exact List.mem_cons_self
    · exact List.mem_cons_of_mem d (ih h)

theorem lastOfEachTime_ne_nil (c : Candle) (cs : List Candle) : lastOfEachTime (c :: cs) ≠ [] := by
  induction cs generalizing c with
  | nil => exact List.cons_ne_nil c []
  | cons d cs ih =>
    rw [lastOfEachTime]
    split
    · exact ih d
    · exact List.cons_ne_nil c _

theorem getLast?_lastOfEachTime (cs : List Candle) :
    (lastOfEachTime cs).getLast? = cs.getLast? := by
  fun_induction lastOfEachTime cs with
  | case1 => rfl
  | case2 c => rfl
  | case3 c d rest _ ih => rw [ih, List.getLast?_cons_cons]
  | case4 c d rest _ ih =>
    rw [List.getLast?_cons, ih, List.getLast?_cons_cons, List.getLast?_cons]
    rfl

theorem lastOfEachTime_concat (cs : List Candle) (c : Candle) :
    lastOfEachTime (cs ++ [c]) =
      if cs.getLast?.any (·.time = c.time) then (lastOfEachTime cs).dropLast ++ [c]
      else lastOfEachTime cs ++ [c] := by
  fun_induction lastOfEachTime cs with
  | case1 => rfl
  | case2 d =>
    simp only [List.cons_append, List.nil_append, lastOfEachTime]
    split <;> simp_all
  | case3 d e rest h ih =>
    rw [List.getLast?_cons_cons, List.cons_append, List.cons_append, lastOfEachTime, if_pos h]
    exact ih
  | case4 d e rest h ih =>
    rw [List.getLast?_cons_cons, List.cons_append, List.cons_append, lastOfEachTime, if_neg h]
    rw [List.cons_append] at ih
    rw [ih, List.dropLast_cons_of_ne_nil (lastOfEachTime_ne_nil e rest)]
    split <;> rfl

namespace CandleBuffer

def byTime (cs : List Candle) : List Candle :=
  (cs.filter Candle.finite).mergeSort fun c d => c.time ≤ d.time

/-- All that a buffer without a limit holds after loading. -/
def series (cs : List Candle) : List Candle := lastOfEachTime (byTime cs)

theorem load_eq (cs : List Candle) (limit : Nat) : load cs limit = ⟨lastOf limit (series cs)⟩ := rfl

theorem time_trans (a b c : Candle) (hab : decide (a.time ≤ b.time) = true)
    (hbc : decide (b.time ≤ c.time) = true) : decide (a.time ≤ c.time) = true := by
  simp only [decide_eq_true_eq] at hab hbc ⊢
  exact Int.le_trans hab hbc

theorem time_total (a b : Candle) :
    (decide (a.time ≤ b.time) || decide (b.time ≤ a.time)) = true := by
  simpa using Int.le_total a.time b.time

theorem time_le_last {cs : List Candle} {c d : Candle} (hlast : (byTime cs).getLast? = some d)
    (hmem : c ∈ byTime cs) : c.time ≤ d.time := by
  have hsorted := List.pairwise_mergeSort time_trans time_total (cs.filter Candle.finite)
  obtain ⟨before, hbefore⟩ := List.getLast?_eq_some_iff.mp hlast
  rw [← byTime, hbefore, List.pairwise_append] at hsorted
  rw [hbefore, List.mem_append, List.mem_singleton] at hmem
  rcases hmem with hin | rfl
  · simpa using hsorted.2.2 c hin d (List.mem_singleton_self d)
  · exact Int.le_refl c.time

theorem getLast?_series (cs : List Candle) : (series cs).getLast? = (byTime cs).getLast? :=
  getLast?_lastOfEachTime (byTime cs)

theorem mem_byTime_of_mem_load {cs : List Candle} {limit : Nat} {c : Candle}
    (h : c ∈ (load cs limit).candles) : c ∈ byTime cs :=
  mem_of_mem_lastOfEachTime (mem_of_mem_lastOf h)

theorem mem_of_mem_load {cs : List Candle} {limit : Nat} {c : Candle}
    (h : c ∈ (load cs limit).candles) : c ∈ cs :=
  List.mem_of_mem_filter (List.mem_mergeSort.mp (mem_byTime_of_mem_load h))

theorem mem_of_mem_update {b : CandleBuffer} {new : Candle} {limit : Nat} {c : Candle}
    (h : c ∈ (b.update new limit).1.candles) : c ∈ b.candles ∨ c = new := by
  unfold update at h
  split at h
  · exact .inl h
  · split at h
    · split at h
      · rcases List.mem_append.mp h with hold | hnew
        · exact .inl ((List.dropLast_sublist _).subset hold)
        · exact .inr (List.mem_singleton.mp hnew)
      · split at h
        · exact .inl h
        · rcases List.mem_append.mp (mem_of_mem_lastOf h) with hold | hnew
          · exact .inl hold
          · exact .inr (List.mem_singleton.mp hnew)
    · exact .inr (List.mem_singleton.mp (mem_of_mem_lastOf h))

theorem byTime_concat {cs : List Candle} {c : Candle} (hc : c.finite = true)
    (hlate : ∀ d ∈ (byTime cs).getLast?, d.time ≤ c.time) :
    byTime (cs ++ [c]) = byTime cs ++ [c] := by
  have hle : ∀ d ∈ cs.filter Candle.finite, decide (d.time ≤ c.time) = true := by
    intro d hd
    have hmem : d ∈ byTime cs := List.mem_mergeSort.mpr hd
    have hlast := List.getLast?_eq_some_getLast (List.ne_nil_of_mem hmem)
    exact decide_eq_true (Int.le_trans (time_le_last hlast hmem) (hlate _ hlast))
  have hfilter : (cs ++ [c]).filter Candle.finite = cs.filter Candle.finite ++ [c] := by
    simp [List.filter_append, hc]
  unfold byTime
  rw [hfilter]
  exact mergeSort_concat time_trans time_total hle

theorem series_concat {cs : List Candle} {c : Candle} (hc : c.finite = true)
    (hlate : ∀ d ∈ (byTime cs).getLast?, d.time ≤ c.time) :
    series (cs ++ [c]) =
      if (series cs).getLast?.any (·.time = c.time) then (series cs).dropLast ++ [c]
      else series cs ++ [c] := by
  unfold series
  rw [byTime_concat hc hlate, lastOfEachTime_concat, getLast?_lastOfEachTime]

end CandleBuffer

end MarketSketch
