import MarketSketch.Json.Literal
import MarketSketch.Json.Text
import MarketSketch.Proofs.Number.Double

/-! Numbers in documents. A number is written as a sign, whole digits, a fraction and an exponent;
`Parts` are such texts, and any of them is read as the decimal it spells, up to the first character
that cannot go on with it. -/

namespace MarketSketch.Json

/-- What may follow a number: nothing that could belong to it. -/
def Closed (rest : List Char) : Prop :=
  ∀ c ∈ rest.head?, isDigit c = false ∧ c ≠ '.' ∧ c ≠ 'e' ∧ c ≠ 'E'

/-- A number in parts, as the grammar has it. -/
structure Parts where
  negative : Bool
  whole : List Char
  fraction : List Char
  exponent? : Option Int
  whole_digits : ∀ c ∈ whole, isDigit c = true
  fraction_digits : ∀ c ∈ fraction, isDigit c = true
  whole_ne_nil : whole ≠ []
  no_leading_zero : whole.head? = some '0' → whole.length ≤ 1

namespace Parts

def fractionChars : List Char → List Char
  | [] => []
  | fraction => '.' :: fraction

theorem fractionChars_of_ne_nil {fraction : List Char} (h : fraction ≠ []) :
    fractionChars fraction = '.' :: fraction := by
  unfold fractionChars
  split
  · exact absurd rfl h
  · rfl

def exponentChars : Option Int → List Char
  | none => []
  | some e => 'e' :: (if e < 0 then '-' else '+') :: Nat.toDigits 10 e.natAbs

def body (p : Parts) : List Char :=
  p.whole ++ (fractionChars p.fraction ++ exponentChars p.exponent?)

def chars (p : Parts) : List Char := if p.negative then '-' :: p.body else p.body

def numeral (p : Parts) : Numeral :=
  ⟨p.negative, p.fraction.isEmpty && p.exponent?.isNone,
    decimalOf p.whole p.fraction (p.exponent?.getD 0)⟩

end Parts

theorem signRun_exponent (e : Int) (cs : List Char) :
    signRun ((if e < 0 then '-' else '+') :: cs) = (decide (e < 0), cs) := by
  by_cases h : e < 0 <;> simp [h, signRun]

theorem closed_append_digits {n : Nat} {rest : List Char} (h : Closed rest) :
    digitRun (Nat.toDigits 10 n ++ rest) = (Nat.toDigits 10 n, rest) :=
  digitRun_append (fun _ => isDigit_of_mem_toDigits) (fun c hc => (h c hc).1)

theorem exponentRun?_chars (e? : Option Int) {rest : List Char} (h : Closed rest) :
    exponentRun? (Parts.exponentChars e? ++ rest) = some (e?, rest) := by
  cases e? with
  | none =>
    cases rest with
    | nil => rfl
    | cons c rest =>
      obtain ⟨-, -, he, hE⟩ := h c rfl
      simp [Parts.exponentChars, exponentRun?, he, hE]
  | some e =>
    obtain ⟨d, ds, hd⟩ := List.exists_cons_of_ne_nil (Nat.toDigits_ne_nil (n := e.natAbs) (b := 10))
    have hspelled : spelled (d :: ds) = e.natAbs := hd ▸ spelled_toDigits _
    have hrun : digitRun (d :: ds ++ rest) = (d :: ds, rest) := hd ▸ closed_append_digits h
    show exponentRun?
      ('e' :: (if e < 0 then '-' else '+') :: (Nat.toDigits 10 e.natAbs ++ rest)) = _
    simp only [exponentRun?, true_or, if_true, signRun_exponent, hd, hrun, hspelled]
    by_cases hneg : e < 0
    · have habs : -|e| = e := by rw [abs_of_neg hneg, neg_neg]
      simp [hneg, habs]
    · have habs : |e| = e := abs_of_nonneg (not_lt.mp hneg)
      simp [hneg, habs]

theorem fractionRun?_chars {fraction : List Char} (hf : ∀ c ∈ fraction, isDigit c = true)
    {rest : List Char} (h : ∀ c ∈ rest.head?, isDigit c = false ∧ c ≠ '.') :
    fractionRun? (Parts.fractionChars fraction ++ rest) = some (fraction, rest) := by
  cases fraction with
  | nil =>
    cases rest with
    | nil => rfl
    | cons c rest =>
      have hc := (h c rfl).2
      simp only [Parts.fractionChars, List.nil_append]
      unfold fractionRun?
      split
      · simp_all
      · rfl
  | cons c cs =>
    have hrun := digitRun_append hf (fun c hc => (h c hc).1)
    show fractionRun? ('.' :: (c :: cs ++ rest)) = _
    simp only [fractionRun?, hrun]

theorem closed_exponentChars (e? : Option Int) {rest : List Char} (h : Closed rest) :
    ∀ c ∈ (Parts.exponentChars e? ++ rest).head?, isDigit c = false ∧ c ≠ '.' := by
  cases e? with
  | none => exact fun c hc => ⟨(h c hc).1, (h c hc).2.1⟩
  | some e => simp [Parts.exponentChars, isDigit]

theorem closed_fractionChars (fraction : List Char) {rest : List Char}
    (h : ∀ c ∈ rest.head?, isDigit c = false) :
    ∀ c ∈ (Parts.fractionChars fraction ++ rest).head?, isDigit c = false := by
  cases fraction with
  | nil => exact h
  | cons c cs => simp [Parts.fractionChars, isDigit]

theorem Parts.exists_head (p : Parts) : ∃ c cs, p.body = c :: cs ∧ isDigit c = true := by
  obtain ⟨c, cs, hc⟩ := List.exists_cons_of_ne_nil p.whole_ne_nil
  refine ⟨c, cs ++ (fractionChars p.fraction ++ exponentChars p.exponent?), ?_, ?_⟩
  · rw [body, hc, List.cons_append]
  · exact p.whole_digits c (by simp [hc])

def unsigned? (negative : Bool) (cs : List Char) : Option (Numeral × List Char) := do
  let (whole, cs) := digitRun cs
  if whole.isEmpty || (whole.head? == some '0' && 1 < whole.length) then none
  let (fraction, cs') ← fractionRun? cs
  let (exponent, cs'') ← exponentRun? cs'
  let plain := fraction.isEmpty && exponent.isNone
  pure (⟨negative, plain, decimalOf whole fraction (exponent.getD 0)⟩, cs'')

theorem numeral?_minus (cs : List Char) : numeral? ('-' :: cs) = unsigned? true cs := rfl

theorem numeral?_of_ne_minus {c : Char} (h : c ≠ '-') (cs : List Char) :
    numeral? (c :: cs) = unsigned? false (c :: cs) := by
  unfold numeral?
  split
  · rename_i heq
    split at heq
    · rename_i heq'
      exact absurd (List.cons.inj heq').1 h
    · cases heq
      rfl

theorem unsigned?_body (p : Parts) {rest : List Char} (h : Closed rest) :
    unsigned? p.negative (p.body ++ rest) = some (p.numeral, rest) := by
  have hexponent := closed_exponentChars p.exponent? h
  have hwhole : digitRun (p.body ++ rest) =
      (p.whole, Parts.fractionChars p.fraction ++ (Parts.exponentChars p.exponent? ++ rest)) := by
    rw [Parts.body, List.append_assoc, List.append_assoc]
    exact digitRun_append p.whole_digits
      (closed_fractionChars p.fraction fun c hc => (hexponent c hc).1)
  have hlead : ¬ (p.whole.isEmpty || (p.whole.head? == some '0' && 1 < p.whole.length)) = true := by
    have hzero := p.no_leading_zero
    simp only [Bool.or_eq_true, Bool.and_eq_true, List.isEmpty_iff, beq_iff_eq, decide_eq_true_eq,
      p.whole_ne_nil, false_or, not_and, not_lt]
    exact hzero
  unfold unsigned?
  simp only [hwhole, if_neg hlead, fractionRun?_chars p.fraction_digits hexponent,
    Option.bind_eq_bind, Option.bind_some, exponentRun?_chars p.exponent? h]
  rfl

theorem numeral?_chars (p : Parts) {rest : List Char} (h : Closed rest) :
    numeral? (p.chars ++ rest) = some (p.numeral, rest) := by
  have hread := unsigned?_body p h
  unfold Parts.chars
  split
  · rename_i hneg
    rw [List.cons_append, numeral?_minus, ← hread, hneg]
  · rename_i hneg
    obtain ⟨c, cs, hbody, hc⟩ := p.exists_head
    have hne : c ≠ '-' := by
      rintro rfl
      exact absurd hc (by decide)
    rw [← hread, hbody, List.cons_append, numeral?_of_ne_minus hne,
      Bool.eq_false_of_not_eq_true hneg]

section Written

def intParts (n : Int) : Parts where
  negative := n < 0
  whole := Nat.toDigits 10 n.natAbs
  fraction := []
  exponent? := none
  whole_digits := fun _ => isDigit_of_mem_toDigits
  fraction_digits := by simp
  whole_ne_nil := Nat.toDigits_ne_nil
  no_leading_zero := length_toDigits_le_one

theorem intChars_eq (n : Int) : intChars n = (intParts n).chars := by
  by_cases h : n < 0 <;>
    simp [intChars, Parts.chars, Parts.body, Parts.fractionChars, Parts.exponentChars, intParts, h]

theorem le_exponent_trim (n : Nat) (e : Int) : e ≤ (Decimal.trim n e).exponent := by
  fun_induction Decimal.trim n e with
  | case1 n e h ih => omega
  | case2 n e h => exact le_rfl

theorem toNumber?_intParts {n : Int} (hlow : -2 ^ 63 ≤ n) (hhigh : n < 2 ^ 64) :
    (intParts n).numeral.toNumber? = some (.whole n) := by
  have hdecimal : (intParts n).numeral.decimal = (Decimal.mk n.natAbs 0).trimmed := by
    simp [Parts.numeral, intParts, decimalOf, spelled_toDigits]
  have hnonneg : 0 ≤ (intParts n).numeral.decimal.exponent := by
    rw [hdecimal, Decimal.trimmed]
    split
    · exact le_rfl
    · exact le_exponent_trim _ _
  have hvalue : (intParts n).numeral.decimal.value = n.natAbs := by
    rw [hdecimal, Decimal.value_trimmed]
    simp [Decimal.value]
  have hwhole : (intParts n).numeral.wholeNat = n.natAbs := by
    obtain ⟨k, hk⟩ := Int.eq_ofNat_of_zero_le hnonneg
    rw [Decimal.value, hk, zpow_natCast] at hvalue
    rw [Numeral.wholeNat, hk, Int.toNat_natCast]
    exact_mod_cast hvalue
  -- reading gives up a whole number of more than 21 digits, and none of 64 bits has so many
  have hleading : (intParts n).numeral.decimal.leading ≤ 20 := by
    by_cases hzero : (intParts n).numeral.decimal.coefficient = 0
    · have hcanonical := (Decimal.mk n.natAbs 0).trimmed_eq_zero_or
      rw [← hdecimal] at hcanonical
      rcases hcanonical with heq | hmod
      · rw [heq]
        decide
      · simp [hzero] at hmod
    · have hlt : (10 : ℚ) ^ (intParts n).numeral.decimal.leading < 10 ^ (20 : Int) := by
        have hbound : ((n.natAbs : Nat) : ℚ) < 2 ^ 64 := by
          have : n.natAbs < 2 ^ 64 := by omega
          exact_mod_cast this
        calc (10 : ℚ) ^ (intParts n).numeral.decimal.leading
            ≤ n.natAbs := hvalue ▸ (Decimal.leading_spec hzero).1
          _ < 2 ^ 64 := hbound
          _ < 10 ^ (20 : Int) := by norm_num
      exact ((zpow_lt_zpow_iff_right₀ (by norm_num)).mp hlt).le
  have hplain : (intParts n).numeral.whole = true := rfl
  have hnegative : (intParts n).numeral.negative = decide (n < 0) := rfl
  have hint : (intParts n).numeral.toInt? = some n := by
    unfold Numeral.toInt?
    rw [hplain, hnegative, hwhole]
    simp only [Bool.not_true, Bool.false_or, decide_eq_true_eq, not_lt.mpr hleading, if_false]
    by_cases hneg : n < 0
    · rw [if_pos hneg, if_pos ⟨by omega, by omega⟩]
      congr 1
      omega
    · rw [if_neg hneg, if_pos (by omega)]
      congr 1
      omega
  unfold Numeral.toNumber?
  rw [hint]

theorem toNumber?_of_not_whole {m : Numeral} (h : m.whole = false) :
    m.toNumber? = m.toFloat?.map .wide := by
  unfold Numeral.toNumber? Numeral.toInt?
  simp [h]

section Spell

variable {d : Decimal} (negative : Bool)

theorem leading_eq (d : Decimal) : d.leading = d.digits.length - 1 + d.exponent := rfl

theorem spelled_digits (d : Decimal) : spelled d.digits = d.coefficient := spelled_toDigits _

theorem isDigit_of_mem_digits {c : Char} (h : c ∈ d.digits) : isDigit c = true :=
  isDigit_of_mem_toDigits h

theorem digits_ne_nil (d : Decimal) : d.digits ≠ [] := Nat.toDigits_ne_nil

theorem isDigit_of_mem_zeros {c : Char} {k : Nat} (h : c ∈ List.replicate k '0') :
    isDigit c = true := by
  rw [List.eq_of_mem_replicate h]
  decide

theorem eq_zero_of_head?_digits (hd : d.trimmed = d) (h : d.digits.head? = some '0') :
    d = Decimal.zero := by
  have hzero : d.coefficient = 0 := eq_zero_of_head?_toDigits h
  rw [← hd, Decimal.trimmed, if_pos hzero]

theorem exists_parts_below (hd : d.trimmed = d) (hneg : d.leading < 0) :
    ∃ p : Parts, p.negative = negative ∧
      p.body = '0' :: '.' :: (List.replicate (-d.leading - 1).toNat '0' ++ d.digits) ∧
      p.numeral = ⟨negative, false, d⟩ := by
  have hne : List.replicate (-d.leading - 1).toNat '0' ++ d.digits ≠ [] :=
    List.append_ne_nil_of_right_ne_nil _ (digits_ne_nil d)
  have hread : decimalOf ['0'] (List.replicate (-d.leading - 1).toNat '0' ++ d.digits) 0 = d := by
    have hleading := leading_eq d
    refine decimalOf_eq (k := 0) hd ?_ ?_
    · rw [← List.append_assoc, show ['0'] = List.replicate 1 '0' by rfl,
        List.replicate_append_replicate, spelled_zeros_append, spelled_digits, pow_zero, mul_one]
    · simp only [List.length_append, List.length_replicate]
      omega
  -- zeros stand between the point and the digits
  let p : Parts := {
    negative := negative
    whole := ['0']
    fraction := List.replicate (-d.leading - 1).toNat '0' ++ d.digits
    exponent? := none
    whole_digits := by simp [isDigit]
    fraction_digits := fun c hc =>
      (List.mem_append.mp hc).elim isDigit_of_mem_zeros isDigit_of_mem_digits
    whole_ne_nil := by simp
    no_leading_zero := by simp }
  refine ⟨p, rfl, ?_, ?_⟩
  · simp only [p, Parts.body, Parts.exponentChars, Parts.fractionChars_of_ne_nil hne,
      List.append_nil, List.singleton_append]
  · simp only [p, Parts.numeral, hread, List.isEmpty_eq_false_iff.mpr hne, Bool.false_and,
      Option.getD_none]

theorem exists_parts_whole (hd : d.trimmed = d) (hneg : ¬ d.leading < 0)
    (hlen : d.digits.length ≤ d.leading.toNat + 1) :
    ∃ p : Parts, p.negative = negative ∧
      p.body =
        d.digits ++ List.replicate (d.leading.toNat + 1 - d.digits.length) '0' ++ ['.', '0'] ∧
      p.numeral = ⟨negative, false, d⟩ := by
  have hread : decimalOf (d.digits ++ List.replicate (d.leading.toNat + 1 - d.digits.length) '0')
      ['0'] 0 = d := by
    have hleading := leading_eq d
    refine decimalOf_eq (k := d.leading.toNat + 1 - d.digits.length + 1) hd ?_ ?_
    · rw [List.append_assoc, show ['0'] = List.replicate 1 '0' by rfl,
        List.replicate_append_replicate, spelled_append_zeros, spelled_digits]
    · simp only [List.length_singleton]
      omega
  -- the style keeps one zero after the point
  let p : Parts := {
    negative := negative
    whole := d.digits ++ List.replicate (d.leading.toNat + 1 - d.digits.length) '0'
    fraction := ['0']
    exponent? := none
    whole_digits := fun c hc =>
      (List.mem_append.mp hc).elim isDigit_of_mem_digits isDigit_of_mem_zeros
    fraction_digits := by simp [isDigit]
    whole_ne_nil := List.append_ne_nil_of_left_ne_nil (digits_ne_nil d) _
    no_leading_zero := by
      intro hhead
      rw [List.head?_append_of_ne_nil _ (digits_ne_nil d)] at hhead
      rw [eq_zero_of_head?_digits hd hhead]
      decide }
  refine ⟨p, rfl, ?_, ?_⟩
  · simp [p, Parts.body, Parts.exponentChars, Parts.fractionChars]
  · simp [p, Parts.numeral, hread]

theorem exists_parts_between (hd : d.trimmed = d) (hneg : ¬ d.leading < 0)
    (hlen : d.leading.toNat + 1 < d.digits.length) :
    ∃ p : Parts, p.negative = negative ∧
      p.body = d.digits.take (d.leading.toNat + 1) ++ '.' :: d.digits.drop (d.leading.toNat + 1) ∧
      p.numeral = ⟨negative, false, d⟩ := by
  have hdrop : d.digits.drop (d.leading.toNat + 1) ≠ [] := by
    rw [Ne, List.drop_eq_nil_iff]
    omega
  have hread : decimalOf (d.digits.take (d.leading.toNat + 1))
      (d.digits.drop (d.leading.toNat + 1)) 0 = d := by
    have hleading := leading_eq d
    refine decimalOf_eq (k := 0) hd ?_ ?_
    · rw [List.take_append_drop, spelled_digits, pow_zero, mul_one]
    · rw [List.length_drop]
      omega
  obtain ⟨c, cs, hc⟩ := List.exists_cons_of_ne_nil (digits_ne_nil d)
  let p : Parts := {
    negative := negative
    whole := d.digits.take (d.leading.toNat + 1)
    fraction := d.digits.drop (d.leading.toNat + 1)
    exponent? := none
    whole_digits := fun c hc => isDigit_of_mem_digits (List.mem_of_mem_take hc)
    fraction_digits := fun c hc => isDigit_of_mem_digits (List.mem_of_mem_drop hc)
    whole_ne_nil := by simp [hc]
    no_leading_zero := by
      intro hhead
      have hzero : d.digits.head? = some '0' := by simpa [hc] using hhead
      have := length_toDigits_le_one hzero
      have : d.digits.length ≤ 1 := this
      omega }
  refine ⟨p, rfl, ?_, ?_⟩
  · simp only [p, Parts.body, Parts.exponentChars, Parts.fractionChars_of_ne_nil hdrop,
      List.append_nil]
  · simp only [p, Parts.numeral, hread, List.isEmpty_eq_false_iff.mpr hdrop, Bool.false_and,
      Option.getD_none]

theorem exists_parts_scientific (hd : d.trimmed = d) :
    ∃ p : Parts, p.negative = negative ∧ p.body = FigureStyle.scientific d.digits d.leading ∧
      p.numeral = ⟨negative, false, d⟩ := by
  obtain ⟨c, cs, hc⟩ := List.exists_cons_of_ne_nil (digits_ne_nil d)
  have hdigits : ∀ x ∈ c :: cs, isDigit x = true := hc ▸ fun x => isDigit_of_mem_digits
  have hread : decimalOf [c] cs d.leading = d := by
    have hleading := leading_eq d
    have hlength : d.digits.length = cs.length + 1 := by rw [hc, List.length_cons]
    refine decimalOf_eq (k := 0) hd ?_ ?_
    · rw [List.singleton_append, ← hc, spelled_digits, pow_zero, mul_one]
    · omega
  let p : Parts := {
    negative := negative
    whole := [c]
    fraction := cs
    exponent? := some d.leading
    whole_digits := fun x hx => hdigits x (by simp_all)
    fraction_digits := fun x hx => hdigits x (List.mem_cons_of_mem c hx)
    whole_ne_nil := by simp
    no_leading_zero := by simp }
  refine ⟨p, rfl, ?_, ?_⟩
  · rw [hc]
    cases cs <;>
      simp [p, Parts.body, Parts.exponentChars, Parts.fractionChars, FigureStyle.scientific]
  · simp [p, Parts.numeral, hread]

theorem exists_parts_of_spell {style : FigureStyle} (hpoint : style.point = true)
    (hd : d.trimmed = d) :
    ∃ p : Parts, style.spell negative d = p.chars ∧ p.numeral = ⟨negative, false, d⟩ := by
  have hbody : ∃ p : Parts, p.negative = negative ∧
      p.body = (if style.isPositional d.leading then style.positional d.digits d.leading
        else FigureStyle.scientific d.digits d.leading) ∧ p.numeral = ⟨negative, false, d⟩ := by
    split
    · by_cases hneg : d.leading < 0
      · unfold FigureStyle.positional
        rw [if_pos hneg]
        exact exists_parts_below negative hd hneg
      · by_cases hlen : d.digits.length ≤ d.leading.toNat + 1
        · have hdrop := List.drop_eq_nil_iff.mpr hlen
          simp only [FigureStyle.positional, hneg, hdrop, hpoint,
            List.take_of_length_le hlen, if_true, if_false]
          exact exists_parts_whole negative hd hneg hlen
        · have hnone : d.leading.toNat + 1 - d.digits.length = 0 := by omega
          obtain ⟨e, es, he⟩ := List.exists_cons_of_ne_nil
            (mt List.drop_eq_nil_iff.mp hlen)
          have := exists_parts_between negative hd hneg (not_le.mp hlen)
          simpa only [FigureStyle.positional, hneg, he, hnone, List.replicate_zero, List.append_nil,
            if_false] using this
    · exact exists_parts_scientific negative hd
  obtain ⟨p, hnegative, hchars, hnumeral⟩ := hbody
  refine ⟨p, ?_, hnumeral⟩
  unfold FigureStyle.spell Parts.chars
  rw [hnegative, hchars]

end Spell

theorem exists_parts_of_figures {x : Float} (h : x.isFinite = true) :
    ∃ p : Parts, Double.figures documentDouble x = p.chars ∧
      p.numeral.toNumber? = some (.wide x) := by
  have hpoint : documentDouble.point = true := rfl
  obtain ⟨p, hchars, hnumeral⟩ := exists_parts_of_spell (Double.isNegative x) hpoint
    (Binary.shortest_trimmed Binary.double false (Double.magnitude x))
  refine ⟨p, hchars, ?_⟩
  have hback := Double.ofDecimal_shortest h false
  rw [toNumber?_of_not_whole (by rw [hnumeral]), hnumeral, Numeral.toFloat?]
  simp [hback, h]

end Written

end MarketSketch.Json
