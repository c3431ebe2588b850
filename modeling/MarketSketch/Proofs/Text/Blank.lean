import MarketSketch.Text.Blank
import Mathlib.Data.List.TakeWhile

/-! White space around a text. A text is its trimmed part with white space on both sides, and
a part without white space at its ends is what trimming leaves of it, whatever stands around. -/

namespace MarketSketch.Text

def Blanks (cs : List Char) : Prop := ∀ c ∈ cs, isBlank c = true

theorem blanks_of_all {cs : List Char} (h : cs.all isBlank = true) : Blanks cs :=
  List.all_eq_true.mp h

structure Bare (cs : List Char) : Prop where
  ne_nil : cs ≠ []
  begins : ∀ c ∈ cs.head?, isBlank c = false
  ends : ∀ c ∈ cs.getLast?, isBlank c = false

theorem bare_of_forall {cs : List Char} (hne : cs ≠ []) (h : ∀ c ∈ cs, isBlank c = false) :
    Bare cs :=
  ⟨hne, fun c hc => h c (List.mem_of_head? hc), fun c hc => h c (List.mem_of_getLast? hc)⟩

theorem Bare.append_left {front cs : List Char} (h : Bare cs)
    (hfront : ∀ c ∈ front.head?, isBlank c = false) : Bare (front ++ cs) := by
  refine ⟨List.append_ne_nil_of_right_ne_nil front h.ne_nil, fun c hc => ?_, fun c hc => ?_⟩
  · cases front with
    | nil => exact h.begins c hc
    | cons d front => exact hfront c hc
  · rw [List.getLast?_append, List.getLast?_eq_some_getLast h.ne_nil] at hc
    exact h.ends c (List.getLast?_eq_some_getLast h.ne_nil ▸ hc)

theorem isBlank_of_visible {c : Char} (hlow : 0x20 < c.toNat) (hhigh : c.toNat < 0x7F) :
    isBlank c = false := by
  simp only [isBlank, Bool.or_eq_false_iff, Bool.and_eq_false_iff, beq_eq_false_iff_ne,
    decide_eq_false_iff_not]
  omega

theorem trimStart_of_head {cs : List Char} (h : ∀ c ∈ cs.head?, isBlank c = false) :
    trimStart cs = cs := by
  cases cs with
  | nil => rfl
  | cons c cs => exact List.dropWhile_cons_of_neg (by rw [h c rfl]; decide)

theorem trimStart_blanks_append {blanks cs : List Char} (hblanks : Blanks blanks)
    (h : ∀ c ∈ cs.head?, isBlank c = false) : trimStart (blanks ++ cs) = cs :=
  (List.dropWhile_append_of_pos hblanks).trans (trimStart_of_head h)

theorem trimChars_between {before cs after : List Char} (hbefore : Blanks before)
    (hafter : Blanks after) (h : Bare cs) : trimChars (before ++ (cs ++ after)) = cs := by
  have hbegins : ∀ c ∈ (cs ++ after).head?, isBlank c = false := by
    obtain ⟨c, rest, rfl⟩ := List.exists_cons_of_ne_nil h.ne_nil
    exact h.begins
  have hends : ∀ c ∈ cs.reverse.head?, isBlank c = false := by
    rw [List.head?_reverse]
    exact h.ends
  have hblanks : Blanks after.reverse := fun c hc => hafter c (List.mem_reverse.mp hc)
  rw [trimChars, trimStart_blanks_append hbefore hbegins, List.reverse_append,
    trimStart_blanks_append hblanks hends, List.reverse_reverse]

theorem blanks_takeWhile (cs : List Char) : Blanks (cs.takeWhile isBlank) :=
  fun _ hc => List.mem_takeWhile_imp hc

theorem exists_blanks_trimChars (cs : List Char) : ∃ before after : List Char,
    Blanks before ∧ Blanks after ∧ cs = before ++ (trimChars cs ++ after) := by
  have hends : trimStart cs =
      trimChars cs ++ ((trimStart cs).reverse.takeWhile isBlank).reverse := by
    rw [trimChars, ← List.reverse_append]
    exact (List.reverse_eq_iff.mp List.takeWhile_append_dropWhile.symm)
  refine ⟨cs.takeWhile isBlank, ((trimStart cs).reverse.takeWhile isBlank).reverse,
    blanks_takeWhile cs, fun c hc => ?_, ?_⟩
  · exact blanks_takeWhile _ c (List.mem_reverse.mp hc)
  · rw [← hends]
    exact List.takeWhile_append_dropWhile.symm

theorem trimChars_eq_nil {cs : List Char} : trimChars cs = [] ↔ Blanks cs := by
  constructor
  · intro h
    obtain ⟨before, after, hbefore, hafter, heq⟩ := exists_blanks_trimChars cs
    rw [heq, h, List.nil_append]
    exact fun c hc => (List.mem_append.mp hc).elim (hbefore c) (hafter c)
  · intro h
    have hstart : trimStart cs = [] := List.dropWhile_eq_nil_iff.mpr h
    rw [trimChars, hstart]
    rfl

theorem isBlankText_iff_trim {s : String} : isBlankText s = true ↔ trim s = "" := by
  unfold isBlankText trim
  rw [String.ofList_eq_empty_iff, trimChars_eq_nil]
  exact List.all_eq_true

end MarketSketch.Text
