import MarketSketch.Paint.Style
import MarketSketch.Proofs.Text.Blank
import Mathlib.Algebra.Group.Nat.Defs

/-! Which texts are read as colours. The grammar allows white space, number signs, six or eight
hexadecimal digits and white space again. Beside these texts exactly those are read that have a
plus sign in the place of the first digit; it counts as a zero. -/

namespace MarketSketch

section Hex

def isHexDigit (c : Char) : Bool :=
  isDigit c || ('a' ≤ c && c ≤ 'f') || ('A' ≤ c && c ≤ 'F')

theorem isSome_hexValue? (c : Char) : (hexValue? c).isSome = isHexDigit c := by
  unfold hexValue? isHexDigit isDigit
  grind

theorem isHexDigit_iff_toNat {c : Char} : isHexDigit c = true ↔
    (48 ≤ c.toNat ∧ c.toNat ≤ 57) ∨ (97 ≤ c.toNat ∧ c.toNat ≤ 102) ∨
      (65 ≤ c.toNat ∧ c.toNat ≤ 70) := by
  simp only [isHexDigit, isDigit, Bool.or_eq_true, Bool.and_eq_true, decide_eq_true_eq, or_assoc]
  exact Iff.rfl

theorem hexValue?_lt {c : Char} {v : Nat} (h : hexValue? c = some v) : v < 16 := by
  have hle {a b : Char} : a ≤ b ↔ a.toNat ≤ b.toNat := Iff.rfl
  simp only [hexValue?, hle, Char.reduceToNat] at h
  grind

theorem utf8Size_of_isHexDigit {c : Char} (h : isHexDigit c = true) : c.utf8Size = 1 := by
  have hsmall : c.toNat ≤ 127 := by
    have := isHexDigit_iff_toNat.mp h
    omega
  exact Char.utf8Size_eq_one_iff.mpr hsmall

theorem isBlank_of_isHexDigit {c : Char} (h : isHexDigit c = true) : Text.isBlank c = false := by
  have := isHexDigit_iff_toNat.mp h
  exact Text.isBlank_of_visible (by omega) (by omega)

theorem isSome_mapM_hexValue? (cs : List Char) :
    (cs.mapM hexValue?).isSome = true ↔ ∀ c ∈ cs, isHexDigit c = true := by
  induction cs with
  | nil => simp
  | cons c cs ih =>
    rw [List.forall_mem_cons, ← ih, ← isSome_hexValue?, List.mapM_cons]
    cases hexValue? c <;> cases cs.mapM hexValue? <;> simp

theorem foldl_hex_lt {cs : List Char} {values : List Nat} (h : cs.mapM hexValue? = some values)
    {n bound : Nat} (hn : n < bound) :
    values.foldl (fun n v => 16 * n + v) n < bound * 16 ^ cs.length := by
  induction cs generalizing values n bound with
  | nil =>
    cases h
    simpa using hn
  | cons c cs ih =>
    obtain ⟨v, hv, rest, hrest, rfl⟩ : ∃ v, hexValue? c = some v ∧
        ∃ rest, cs.mapM hexValue? = some rest ∧ v :: rest = values := by
      simpa [List.mapM_cons, Option.bind_eq_some_iff] using h
    have hstep : 16 * n + v < bound * 16 := by
      have := hexValue?_lt hv
      omega
    simpa only [List.foldl_cons, List.length_cons, Nat.pow_succ', Nat.mul_assoc] using
      ih hrest hstep

theorem length_le_utf8ByteSize (cs : List Char) :
    cs.length ≤ (String.ofList cs).utf8ByteSize := by
  induction cs with
  | nil => exact le_rfl
  | cons c cs ih =>
    have := c.utf8Size_pos
    simp only [String.ofList_cons, String.utf8ByteSize_append, String.utf8ByteSize_singleton,
      List.length_cons]
    omega

theorem utf8ByteSize_of_bytes {cs : List Char} (h : ∀ c ∈ cs, c.utf8Size = 1) :
    (String.ofList cs).utf8ByteSize = cs.length := by
  induction cs with
  | nil => rfl
  | cons c cs ih =>
    obtain ⟨hc, hcs⟩ := List.forall_mem_cons.mp h
    simp only [String.ofList_cons, String.utf8ByteSize_append, String.utf8ByteSize_singleton,
      List.length_cons, hc, ih hcs]
    omega

end Hex

namespace Color

open Text

variable {text : String} {cs ds : List Char}

/-- Six or eight hexadecimal digits and nothing else. -/
def IsCode (ds : List Char) : Prop :=
  (ds.length = 6 ∨ ds.length = 8) ∧ ∀ c ∈ ds, isHexDigit c = true

theorem isCode_of_all (hlen : ds.length = 6 ∨ ds.length = 8) (h : ds.all isHexDigit = true) :
    IsCode ds :=
  ⟨hlen, List.all_eq_true.mp h⟩

/-- The text is white space, number signs, these characters and white space. -/
def Shows (text : String) (cs : List Char) : Prop :=
  ∃ before signs after : List Char, Blanks before ∧ (∀ c ∈ signs, c = '#') ∧ Blanks after ∧
    text.toList = before ++ (signs ++ cs ++ after)

def Grammatical (text : String) : Prop := ∃ ds, Shows text ds ∧ IsCode ds

/-- A text that would keep the grammar with a zero instead of its plus sign. -/
def Signed (text : String) : Prop := ∃ ds, Shows text ('+' :: ds) ∧ IsCode ('0' :: ds)

section Shows

theorem shows_bareDigits (text : String) : Shows text (bareDigits text) := by
  obtain ⟨before, after, hbefore, hafter, heq⟩ := exists_blanks_trimChars text.toList
  refine ⟨before, (trimChars text.toList).takeWhile (· = '#'), after, hbefore, fun c hc => ?_,
    hafter, ?_⟩
  · simpa using List.mem_takeWhile_imp hc
  · rw [bareDigits, List.takeWhile_append_dropWhile]
    exact heq

theorem shows_ofList (cs : List Char) : Shows (String.ofList cs) cs :=
  ⟨[], [], [], nofun, nofun, nofun, by simp⟩

theorem bareDigits_of_shows (h : Shows text cs) (hbare : Bare cs) (hsign : cs.head? ≠ some '#') :
    bareDigits text = cs := by
  obtain ⟨before, signs, after, hbefore, hsigns, hafter, heq⟩ := h
  have hall : Bare (signs ++ cs) := hbare.append_left fun c hc => by
    rw [hsigns c (List.mem_of_head? hc)]
    rfl
  rw [bareDigits, heq, trimChars_between hbefore hafter hall,
    List.dropWhile_append_of_pos fun c hc => decide_eq_true (hsigns c hc)]
  obtain ⟨c, rest, rfl⟩ := List.exists_cons_of_ne_nil hbare.ne_nil
  exact List.dropWhile_cons_of_neg fun hc => hsign (congrArg some (of_decide_eq_true hc))

theorem IsCode.ne_nil (h : IsCode ds) : ds ≠ [] := by
  rintro rfl
  simpa using h.1

theorem IsCode.isBlank (h : IsCode ds) {c : Char} (hc : c ∈ ds) : isBlank c = false :=
  isBlank_of_isHexDigit (h.2 c hc)

theorem IsCode.head_ne (h : IsCode ds) {c : Char} (hc : isHexDigit c = false) :
    ds.head? ≠ some c := by
  intro hhead
  rw [h.2 c (List.mem_of_head? hhead)] at hc
  cases hc

theorem bareDigits_of_code (h : Shows text ds) (hcode : IsCode ds) : bareDigits text = ds :=
  bareDigits_of_shows h (bare_of_forall hcode.ne_nil fun _ => hcode.isBlank)
    (hcode.head_ne (by decide))

theorem bareDigits_of_plus (h : Shows text ('+' :: ds)) (hcode : IsCode ('0' :: ds)) :
    bareDigits text = '+' :: ds := by
  have hbare : Bare ('+' :: ds) := bare_of_forall (List.cons_ne_nil _ _) <|
    List.forall_mem_cons.mpr ⟨rfl, fun _ hc => hcode.isBlank (List.mem_cons_of_mem _ hc)⟩
  exact bareDigits_of_shows h hbare (by simp)

theorem grammatical_iff : Grammatical text ↔ IsCode (bareDigits text) := by
  refine ⟨fun ⟨ds, hshows, hcode⟩ => ?_, fun h => ⟨_, shows_bareDigits text, h⟩⟩
  rwa [bareDigits_of_code hshows hcode]

theorem signed_iff : Signed text ↔ ∃ ds, bareDigits text = '+' :: ds ∧ IsCode ('0' :: ds) := by
  constructor
  · rintro ⟨ds, hshows, hcode⟩
    exact ⟨ds, bareDigits_of_plus hshows hcode, hcode⟩
  · rintro ⟨ds, heq, hcode⟩
    exact ⟨ds, heq ▸ shows_bareDigits text, hcode⟩

end Shows

section Read

def numberOf? (values : List Nat) : Option Nat :=
  let n := values.foldl (fun n v => 16 * n + v) 0
  if n < 0x100000000 then some n else none

theorem hexNumber?_of_unsigned (hsign : cs.head? ≠ some '+') (hne : cs ≠ []) :
    hexNumber? cs = (cs.mapM hexValue?).bind numberOf? := by
  unfold hexNumber?
  split
  · exact absurd rfl hsign
  · exact if_neg (by simpa using hne)

theorem hexNumber?_plus (hne : ds ≠ []) : hexNumber? ('+' :: ds) = hexNumber? ('0' :: ds) := by
  have hplus : hexNumber? ('+' :: ds) = (ds.mapM hexValue?).bind numberOf? :=
    if_neg (by simpa using hne)
  have hzero : hexValue? '0' = some 0 := rfl
  rw [hplus, hexNumber?_of_unsigned (by simp) (List.cons_ne_nil _ _), List.mapM_cons, hzero]
  cases ds.mapM hexValue? <;> rfl

theorem isSome_hexNumber? (hsign : cs.head? ≠ some '+') (hne : cs ≠ []) (hlen : cs.length ≤ 8) :
    (hexNumber? cs).isSome = true ↔ ∀ c ∈ cs, isHexDigit c = true := by
  rw [hexNumber?_of_unsigned hsign hne, ← isSome_mapM_hexValue?]
  cases hvalues : cs.mapM hexValue? with
  | none => rfl
  | some values =>
    have hlt := (foldl_hex_lt hvalues Nat.one_pos).trans_le
      (Nat.mul_le_mul_left 1 (Nat.pow_le_pow_right (by decide) hlen))
    have hnumber : numberOf? values = some _ := if_pos hlt
    rw [Option.bind_some, hnumber]
    rfl

def Suits (cs : List Char) : Prop :=
  ((String.ofList cs).utf8ByteSize = 6 ∨ (String.ofList cs).utf8ByteSize = 8) ∧
    (hexNumber? cs).isSome = true

theorem isSome_ofText? : (ofText? text).isSome = true ↔ Suits (bareDigits text) := by
  unfold ofText? Suits
  grind

theorem Suits.ne_nil (h : Suits cs) : cs ≠ [] := by
  rintro rfl
  exact absurd h.1 (by decide)

theorem suits_of_unsigned (hsign : cs.head? ≠ some '+') : Suits cs ↔ IsCode cs := by
  have hlen := length_le_utf8ByteSize cs
  constructor
  · intro h
    have hsize := h.1
    have hhex := (isSome_hexNumber? hsign h.ne_nil (by omega)).mp h.2
    rw [utf8ByteSize_of_bytes fun c hc => utf8Size_of_isHexDigit (hhex c hc)] at hsize
    exact ⟨hsize, hhex⟩
  · intro h
    have hsize := h.1
    refine ⟨?_, (isSome_hexNumber? hsign h.ne_nil (by omega)).mpr h.2⟩
    rwa [utf8ByteSize_of_bytes fun c hc => utf8Size_of_isHexDigit (h.2 c hc)]

theorem utf8ByteSize_plus (ds : List Char) :
    (String.ofList ('+' :: ds)).utf8ByteSize = (String.ofList ('0' :: ds)).utf8ByteSize := by
  simp only [String.ofList_cons, String.utf8ByteSize_append, String.utf8ByteSize_singleton]
  rfl

theorem suits_plus (ds : List Char) : Suits ('+' :: ds) ↔ IsCode ('0' :: ds) := by
  cases ds with
  | nil => exact iff_of_false (fun h => absurd h.1 (by decide)) fun h => absurd h.1 (by decide)
  | cons d ds =>
    rw [← suits_of_unsigned (by simp), Suits, Suits, utf8ByteSize_plus,
      hexNumber?_plus (List.cons_ne_nil d ds)]

theorem isSome_ofText?_iff : (ofText? text).isSome = true ↔ Grammatical text ∨ Signed text := by
  rw [isSome_ofText?, grammatical_iff, signed_iff]
  by_cases hsign : (bareDigits text).head? = some '+'
  · -- a sign is no digit, so such a text cannot keep the grammar
    obtain ⟨ds, hds⟩ := List.head?_eq_some_iff.mp hsign
    have hcode : ¬ IsCode ('+' :: ds) := fun h => h.head_ne (c := '+') (by decide) rfl
    simp only [hds, suits_plus, hcode, false_or, List.cons.injEq, true_and, exists_eq_left']
  · have hunsigned : ¬ ∃ ds, bareDigits text = '+' :: ds ∧ IsCode ('0' :: ds) := by
      rintro ⟨ds, hds, -⟩
      exact hsign (by rw [hds]; rfl)
    rw [or_iff_left hunsigned, suits_of_unsigned hsign]

theorem not_grammatical_of_signed (h : Signed text) : ¬ Grammatical text := by
  obtain ⟨ds, hds, -⟩ := signed_iff.mp h
  rw [grammatical_iff, hds]
  exact fun hcode => hcode.head_ne (c := '+') (by decide) rfl

theorem ofText?_of_plus (h : Shows text ('+' :: ds)) (hcode : IsCode ('0' :: ds)) :
    ofText? text = ofText? (String.ofList ('0' :: ds)) := by
  have hplus := bareDigits_of_plus h hcode
  have hzero := bareDigits_of_code (shows_ofList ('0' :: ds)) hcode
  have hne : ds ≠ [] := by
    rintro rfl
    exact absurd hcode.1 (by decide)
  simp only [ofText?, hplus, hzero, utf8ByteSize_plus, hexNumber?_plus hne]

end Read

/-- A text is read as a colour exactly if it keeps the grammar or is signed; so the grammar decides
for every text that is not signed and for no other. A signed text has the colour that it would have
with a zero for its sign, and a document is read exactly if it is a text that is. -/
theorem read_iff_grammatical_or_signed {δ : Type} [Json.Document δ] :
    (∀ text : String, ((ofText? text).isSome = true ↔ Grammatical text ∨ Signed text) ∧
      (((ofText? text).isSome = true ↔ Grammatical text) ↔ ¬ Signed text) ∧
      ∀ ds, Shows text ('+' :: ds) → IsCode ('0' :: ds) →
        ofText? text = ofText? (String.ofList ('0' :: ds))) ∧
    ∀ d : δ, (ofDocument? d).isSome = true ↔
      ∃ text, Json.text? d = some text ∧ (Grammatical text ∨ Signed text) := by
  refine ⟨fun text => ⟨isSome_ofText?_iff, ?_, fun _ => ofText?_of_plus⟩, fun d => ?_⟩
  · rw [isSome_ofText?_iff, or_iff_left_iff_imp]
    exact ⟨fun h hsigned => not_grammatical_of_signed hsigned (h hsigned),
      fun h hsigned => absurd hsigned h⟩
  · simp only [ofDocument?, Option.isSome_bind, Option.any_eq_true, isSome_ofText?_iff]

theorem read_of_digits_and_of_plus : (ofText? " ##FFd70080\n").isSome = true ∧
    ofText? "#+fffff" = ofText? "0fffff" := by
  have hread := (@read_iff_grammatical_or_signed Json.Value _).1
  have hdigits : Shows " ##FFd70080\n" "FFd70080".toList :=
    ⟨[' '], ['#', '#'], ['\n'], blanks_of_all rfl, by simp, blanks_of_all rfl, by decide⟩
  have hplus : Shows "#+fffff" ('+' :: "fffff".toList) :=
    ⟨[], ['#'], [], nofun, by simp, nofun, by decide⟩
  exact ⟨(hread _).1.mpr (.inl ⟨_, hdigits, isCode_of_all (by decide) rfl⟩),
    (hread _).2.2 _ hplus (isCode_of_all (by decide) rfl)⟩

/-- Not only what keeps the grammar is read: a plus sign stands for a digit. -/
theorem plus_read_as_digit :
    ¬ ∀ text : String, (ofText? text).isSome = true ↔ Grammatical text := by
  intro h
  have hcode := grammatical_iff.mp ((h "#+fffff").mp (by decide))
  exact absurd (hcode.2 '+' (by decide)) (by decide)

end Color

end MarketSketch
