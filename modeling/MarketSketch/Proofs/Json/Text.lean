import MarketSketch.Proofs.Json.Numeral

/-! The text of a value is read as that value again, with members in the order of their keys and
null for numbers that are not finite. -/

namespace MarketSketch.Json

section Strings

variable (acc : List Char) (sound : Bool) (rest : List Char)

theorem stringTail?_quote : stringTail? acc true ('"' :: rest) =
    some (some (String.ofList acc.reverse), rest) := by
  rw [stringTail?]
  rfl

theorem stringTail?_simple {c e : Char} (hc : c ≠ 'u') (he : simpleEscape? c = some e) :
    stringTail? acc sound ('\\' :: c :: rest) = stringTail? (e :: acc) sound rest := by
  rw [stringTail?.eq_def]
  split <;> grind

theorem stringTail?_plain {c : Char} (hquote : c ≠ '"') (hslash : c ≠ '\\')
    (hcontrol : ¬ c.toNat < 0x20) :
    stringTail? acc sound (c :: rest) = stringTail? (c :: acc) sound rest := by
  rw [stringTail?.eq_def]
  split <;> grind

theorem stringTail?_unicode {a b c d : Char} {n : Nat} (hn : hexQuad? a b c d = some n)
    (hlow : isLowHalf n = false) (hhigh : isHighHalf n = false) :
    stringTail? acc sound ('\\' :: 'u' :: a :: b :: c :: d :: rest) =
      stringTail? (Char.ofNat n :: acc) sound rest := by
  rw [stringTail?.eq_def]
  split <;> grind

theorem hexQuad?_hexPair {n : Nat} (h : n < 0x20) :
    hexQuad? '0' '0' (Nat.digitChar (n / 16 % 16)) (Nat.digitChar (n % 16)) = some n := by
  revert n
  decide

theorem stringTail?_escapedChar (c : Char) :
    stringTail? acc sound (escapedChar c ++ rest) = stringTail? (c :: acc) sound rest := by
  have named {k : Nat} (hk : c.toNat = k) : c = Char.ofNat k := by rw [← hk, Char.ofNat_toNat]
  unfold escapedChar
  split_ifs with hquote hslash hcontrol h8 h9 h10 h12 h13
  · subst hquote
    exact stringTail?_simple acc sound rest (by decide) rfl
  · subst hslash
    exact stringTail?_simple acc sound rest (by decide) rfl
  · exact stringTail?_simple acc sound rest (by decide) (named h8 ▸ rfl)
  · exact stringTail?_simple acc sound rest (by decide) (named h9 ▸ rfl)
  · exact stringTail?_simple acc sound rest (by decide) (named h10 ▸ rfl)
  · exact stringTail?_simple acc sound rest (by decide) (named h12 ▸ rfl)
  · exact stringTail?_simple acc sound rest (by decide) (named h13 ▸ rfl)
  · have hread := stringTail?_unicode acc sound rest (hexQuad?_hexPair hcontrol)
      (by simp [isLowHalf]; omega) (by simp [isHighHalf]; omega)
    rw [Char.ofNat_toNat] at hread
    exact hread
  · exact stringTail?_plain acc sound rest hquote hslash hcontrol

theorem stringTail?_flatMap (cs : List Char) :
    stringTail? acc sound (cs.flatMap escapedChar ++ rest) =
      stringTail? (cs.reverse ++ acc) sound rest := by
  induction cs generalizing acc with
  | nil => rfl
  | cons c cs ih =>
    rw [List.flatMap_cons, List.append_assoc, stringTail?_escapedChar, ih, List.reverse_cons,
      List.append_assoc, List.singleton_append]

theorem stringTail?_stringChars (s : String) :
    stringTail? [] true (s.toList.flatMap escapedChar ++ '"' :: rest) = some (some s, rest) := by
  rw [stringTail?_flatMap, stringTail?_quote, List.append_nil, List.reverse_reverse,
    String.ofList_toList]

end Strings

mutual

/-- A value whose text can be read again: whole numbers have 64 bits, and containers nest at most
so deep. -/
def Value.Fits : Value → Nat → Prop
  | .number (.whole n), _ => -2 ^ 63 ≤ n ∧ n < 2 ^ 64
  | .number (.narrow _), _ => False
  | .array _, 0 | .object _, 0 => False
  | .array xs, depth + 1 => ElementsFit xs depth
  | .object ms, depth + 1 => MembersFit ms depth
  | _, _ => True

def ElementsFit : List Value → Nat → Prop
  | [], _ => True
  | x :: xs, depth => x.Fits depth ∧ ElementsFit xs depth

def MembersFit : List (String × Value) → Nat → Prop
  | [], _ => True
  | (_, v) :: ms, depth => v.Fits depth ∧ MembersFit ms depth

end

mutual

/-- What a value is after it was written and read. -/
def Value.normal : Value → Value
  | .number (.wide x) => if x.isFinite then .number (.wide x) else .null
  | .array xs => .array (normalElements xs)
  | .object ms => .object (sortedMembers (normalMembers ms))
  | v => v

def normalElements : List Value → List Value
  | [] => []
  | x :: xs => x.normal :: normalElements xs

def normalMembers : List (String × Value) → List (String × Value)
  | [] => []
  | (k, v) :: ms => (k, v.normal) :: normalMembers ms

end

section Reading

variable {rest : List Char} (fuel : Nat)

theorem closed_nil : Closed [] := by simp [Closed]

theorem closed_cons {c : Char} (h : c = ',' ∨ c = ']' ∨ c = Char.ofNat 0x7D) (cs : List Char) :
    Closed (c :: cs) := by
  rcases h with rfl | rfl | rfl <;> simp [Closed, isDigit]

theorem literal?_null : literal? (fuel + 1) ("null".toList ++ rest) = some (.null, rest) := by
  simp [literal?, skipSpace, isSpace, word?]

theorem literal?_bool (b : Bool) :
    literal? (fuel + 1) ((Value.bool b).chars ++ rest) = some (.bool b, rest) := by
  cases b <;> simp [Value.chars, literal?, skipSpace, isSpace, word?]

theorem literal?_string (s : String) :
    literal? (fuel + 1) (stringChars s ++ rest) = some (.string (some s), rest) := by
  have hread := stringTail?_stringChars rest s
  simp [stringChars, literal?, skipSpace, isSpace, hread]

theorem Parts.exists_first (p : Parts) :
    ∃ c cs, p.chars = c :: cs ∧ (c = '-' ∨ isDigit c = true) := by
  unfold chars
  split
  · exact ⟨'-', p.body, rfl, .inl rfl⟩
  · obtain ⟨c, cs, hbody, hc⟩ := p.exists_head
    exact ⟨c, cs, hbody, .inr hc⟩

theorem starts_number {c : Char} (h : c = '-' ∨ isDigit c = true) :
    isSpace c = false ∧ c ≠ '"' ∧ c ≠ '[' ∧ c ≠ ']' ∧ c.toNat ≠ 0x7B ∧ c ≠ 'n' ∧ c ≠ 't' ∧
      c ≠ 'f' := by
  rcases h with rfl | h
  · decide
  · obtain ⟨hlow, hhigh⟩ : 48 ≤ c.toNat ∧ c.toNat ≤ 57 := Char.isDigit_iff_toNat.mp h
    have hc := Char.ofNat_toNat c
    generalize c.toNat = k at hc hlow hhigh
    subst hc
    interval_cases k <;> decide

theorem literal?_parts (p : Parts) (h : Closed rest) :
    literal? (fuel + 1) (p.chars ++ rest) = some (.number p.numeral, rest) := by
  obtain ⟨c, cs, hchars, hc⟩ := p.exists_first
  have hread := numeral?_chars p h
  rw [hchars, List.cons_append] at hread ⊢
  obtain ⟨hspace, h1, h2, -, h3, h4, h5, h6⟩ := starts_number hc
  have hskip : skipSpace (c :: (cs ++ rest)) = c :: (cs ++ rest) := by
    simp [skipSpace, hspace]
  simp only [literal?, hskip, h1, h2, h3, h4, h5, h6, if_false, hread, Option.map_some]

theorem exists_first {v : Value} {depth : Nat} (h : v.Fits depth) :
    ∃ c cs, v.chars = c :: cs ∧ isSpace c = false ∧ c ≠ ']' := by
  have number (p : Parts) : ∃ c cs, p.chars = c :: cs ∧ isSpace c = false ∧ c ≠ ']' := by
    obtain ⟨c, cs, hchars, hc⟩ := p.exists_first
    obtain ⟨hspace, -, -, hclose, -⟩ := starts_number hc
    exact ⟨c, cs, hchars, hspace, hclose⟩
  cases v with
  | null => exact ⟨'n', _, rfl, by decide, by decide⟩
  | bool b => cases b <;> exact ⟨_, _, rfl, by decide, by decide⟩
  | string s => exact ⟨'"', _, rfl, by decide, by decide⟩
  | number n =>
    cases n with
    | whole n =>
      rw [Value.chars, Number.chars, intChars_eq]
      exact number (intParts n)
    | narrow x => simp [Value.Fits] at h
    | wide x =>
      show ∃ c cs,
        (if x.isFinite then Double.figures documentDouble x else "null".toList) = c :: cs ∧ _
      split
      · rename_i hfinite
        obtain ⟨p, hp, -⟩ := exists_parts_of_figures hfinite
        exact hp ▸ number p
      · exact ⟨'n', _, rfl, by decide, by decide⟩
  | array xs => cases xs <;> exact ⟨'[', _, rfl, by decide, by decide⟩
  | object ms =>
    cases ms with
    | nil => exact ⟨_, _, rfl, by decide, by decide⟩
    | cons m ms => exact ⟨_, _, rfl, by decide, by decide⟩

theorem literal?_number {n : Number} {depth : Nat} (h : (Value.number n).Fits depth)
    (hrest : Closed rest) :
    ∃ l, literal? (fuel + 1) (n.chars ++ rest) = some (l, rest) ∧
      l.toValue? depth = some (Value.number n).normal := by
  cases n with
  | whole n =>
    refine ⟨.number (intParts n).numeral, ?_, ?_⟩
    · rw [Number.chars, intChars_eq]
      exact literal?_parts fuel _ hrest
    · simp only [Value.Fits] at h
      simp [Literal.toValue?, toNumber?_intParts h.1 h.2, Value.normal]
  | narrow x => simp [Value.Fits] at h
  | wide x =>
    by_cases hfinite : x.isFinite = true
    · obtain ⟨p, hp, hread⟩ := exists_parts_of_figures hfinite
      refine ⟨.number p.numeral, ?_, ?_⟩
      · rw [Number.chars, if_pos hfinite, hp]
        exact literal?_parts fuel _ hrest
      · simp [Literal.toValue?, hread, Value.normal, hfinite]
    · refine ⟨.null, ?_, ?_⟩
      · rw [Number.chars, if_neg hfinite]
        exact literal?_null fuel
      · simp [Literal.toValue?, Value.normal, hfinite]

theorem literal?_array {c : Char} (hspace : isSpace c = false) (hc : c ≠ ']') (cs : List Char) :
    literal? (fuel + 1) ('[' :: c :: cs) =
      (elements? fuel (c :: cs)).map fun (xs, rest) => (.array xs, rest) := by
  have hskip : skipSpace (c :: cs) = c :: cs := by simp [skipSpace, hspace]
  have hopen : skipSpace ('[' :: c :: cs) = '[' :: c :: cs := rfl
  simp only [literal?, hopen, hskip]
  grind

theorem literal?_object (cs : List Char) :
    literal? (fuel + 1) (Char.ofNat 0x7B :: '"' :: cs) =
      (members? fuel ('"' :: cs)).map fun (ms, rest) => (.object ms, rest) := by
  have hskip : skipSpace ('"' :: cs) = '"' :: cs := rfl
  have hopen : skipSpace (Char.ofNat 0x7B :: '"' :: cs) = Char.ofNat 0x7B :: '"' :: cs := rfl
  simp only [literal?, hopen, hskip]
  simp

theorem elements?_last {cs : List Char} {x : Literal}
    (h : literal? fuel cs = some (x, ']' :: rest)) :
    elements? (fuel + 1) cs = some ([x], rest) := by
  have hskip : skipSpace (']' :: rest) = ']' :: rest := rfl
  simp only [elements?, h, hskip]

theorem elements?_more {cs : List Char} {x : Literal}
    (h : literal? fuel cs = some (x, ',' :: rest)) :
    elements? (fuel + 1) cs = (elements? fuel rest).map fun (xs, rest) => (x :: xs, rest) := by
  have hskip : skipSpace (',' :: rest) = ',' :: rest := rfl
  simp only [elements?, h, hskip]

theorem members?_last (k : String) {cs : List Char} {v : Literal}
    (h : literal? fuel cs = some (v, Char.ofNat 0x7D :: rest)) :
    members? (fuel + 1) (stringChars k ++ ':' :: cs) = some ([(some k, v)], rest) := by
  have hkey := stringTail?_stringChars (':' :: cs) k
  have hquote (cs : List Char) : skipSpace ('"' :: cs) = '"' :: cs := rfl
  have hcolon : skipSpace (':' :: cs) = ':' :: cs := rfl
  have hclose : skipSpace (Char.ofNat 0x7D :: rest) = Char.ofNat 0x7D :: rest := rfl
  simp only [stringChars, List.cons_append, List.append_assoc, List.nil_append, members?, hquote,
    hkey, hcolon, h, hclose]
  simp

theorem members?_more (k : String) {cs : List Char} {v : Literal}
    (h : literal? fuel cs = some (v, ',' :: rest)) :
    members? (fuel + 1) (stringChars k ++ ':' :: cs) =
      (members? fuel rest).map fun (ms, rest) => ((some k, v) :: ms, rest) := by
  have hkey := stringTail?_stringChars (':' :: cs) k
  have hquote (cs : List Char) : skipSpace ('"' :: cs) = '"' :: cs := rfl
  have hcolon : skipSpace (':' :: cs) = ':' :: cs := rfl
  have hcomma : skipSpace (',' :: rest) = ',' :: rest := rfl
  simp only [stringChars, List.cons_append, List.append_assoc, List.nil_append, members?, hquote,
    hkey, hcolon, h, hcomma, if_true]

end Reading

def openElements (x : Value) (xs : List Value) : List Char := x.chars ++ elementChars xs

def openMembers (k : String) (v : Value) (ms : List (String × Value)) : List Char :=
  stringChars k ++ ':' :: (v.chars ++ memberChars ms)

def ReadsValues (fuel : Nat) : Prop :=
  ∀ (v : Value) (depth : Nat) (rest : List Char), v.Fits depth → v.chars.length ≤ fuel →
    Closed rest → ∃ l, literal? fuel (v.chars ++ rest) = some (l, rest) ∧
      l.toValue? depth = some v.normal

def ReadsElements (fuel : Nat) : Prop :=
  ∀ (x : Value) (xs : List Value) (depth : Nat) (rest : List Char), ElementsFit (x :: xs) depth →
    (openElements x xs).length ≤ fuel →
    ∃ ls, elements? fuel (openElements x xs ++ rest) = some (ls, rest) ∧
      Literal.elementValues? ls depth = some (normalElements (x :: xs))

def ReadsMembers (fuel : Nat) : Prop :=
  ∀ (k : String) (v : Value) (ms : List (String × Value)) (depth : Nat) (rest : List Char),
    MembersFit ((k, v) :: ms) depth → (openMembers k v ms).length ≤ fuel →
    ∃ ls, members? fuel (openMembers k v ms ++ rest) = some (ls, rest) ∧
      Literal.memberValues? ls depth = some (normalMembers ((k, v) :: ms))

theorem readsValues_succ {fuel : Nat} (helements : ReadsElements fuel)
    (hmembers : ReadsMembers fuel) : ReadsValues (fuel + 1) := by
  intro v depth rest hv hfuel hrest
  cases v with
  | null => exact ⟨_, literal?_null fuel, by simp [Literal.toValue?, Value.normal]⟩
  | bool b => exact ⟨_, literal?_bool fuel b, by simp [Literal.toValue?, Value.normal]⟩
  | string s => exact ⟨_, literal?_string fuel s, by simp [Literal.toValue?, Value.normal]⟩
  | number n => exact literal?_number fuel hv hrest
  | array xs =>
    cases depth with
    | zero => simp [Value.Fits] at hv
    | succ depth =>
      cases xs with
      | nil =>
        refine ⟨.array [], by simp [Value.chars, literal?, skipSpace, isSpace], ?_⟩
        simp [Literal.toValue?, Literal.elementValues?, Value.normal, normalElements]
      | cons x xs =>
        obtain ⟨d, ds, hd, hspace, hclose⟩ := exists_first hv.1
        have hlen : (openElements x xs).length ≤ fuel := Nat.le_of_succ_le_succ hfuel
        obtain ⟨ls, hread, hvalues⟩ := helements x xs depth rest hv hlen
        refine ⟨.array ls, ?_, by simp [Literal.toValue?, hvalues, Value.normal]⟩
        have htext : (Value.array (x :: xs)).chars ++ rest =
            '[' :: (openElements x xs ++ rest) := rfl
        have hopen : openElements x xs ++ rest = d :: (ds ++ (elementChars xs ++ rest)) := by
          simp [openElements, hd]
        rw [htext, hopen, literal?_array fuel hspace hclose, ← hopen, hread]
        rfl
  | object ms =>
    cases depth with
    | zero => simp [Value.Fits] at hv
    | succ depth =>
      cases ms with
      | nil =>
        refine ⟨.object [], by simp [Value.chars, literal?, skipSpace, isSpace], ?_⟩
        simp [Literal.toValue?, Literal.memberValues?, Value.normal, normalMembers]
      | cons m ms =>
        obtain ⟨k, v⟩ := m
        have hlen : (openMembers k v ms).length ≤ fuel := Nat.le_of_succ_le_succ hfuel
        obtain ⟨ls, hread, hvalues⟩ := hmembers k v ms depth rest hv hlen
        refine ⟨.object ls, ?_, by simp [Literal.toValue?, hvalues, Value.normal]⟩
        have htext : (Value.object ((k, v) :: ms)).chars ++ rest =
            Char.ofNat 0x7B :: (openMembers k v ms ++ rest) := rfl
        have hopen : openMembers k v ms ++ rest = '"' :: ((openMembers k v ms).tail ++ rest) := rfl
        rw [htext, hopen, literal?_object, ← hopen, hread]
        rfl

theorem readsElements_succ {fuel : Nat} (hvalues : ReadsValues fuel)
    (helements : ReadsElements fuel) : ReadsElements (fuel + 1) := by
  intro x xs depth rest ⟨hx, hxs⟩ hfuel
  rw [openElements, List.length_append] at hfuel
  rw [openElements, List.append_assoc]
  cases xs with
  | nil =>
    have hlen : x.chars.length ≤ fuel := Nat.le_of_succ_le_succ hfuel
    obtain ⟨l, hread, hvalue⟩ := hvalues x depth _ hx hlen (closed_cons (.inr (.inl rfl)) rest)
    refine ⟨[l], elements?_last fuel hread, ?_⟩
    simp [Literal.elementValues?, hvalue, normalElements]
  | cons y ys =>
    have hnext : elementChars (y :: ys) = ',' :: openElements y ys := rfl
    rw [hnext, List.length_cons] at hfuel
    obtain ⟨c, cs, hfirst, -⟩ := exists_first hx
    have hpos : 0 < x.chars.length := by simp [hfirst]
    obtain ⟨l, hread, hvalue⟩ := hvalues x depth _ hx (by omega)
      (closed_cons (.inl rfl) (openElements y ys ++ rest))
    obtain ⟨ls, hreads, hall⟩ := helements y ys depth rest hxs (by omega)
    refine ⟨l :: ls, ?_, by simp [Literal.elementValues?, hvalue, hall, normalElements]⟩
    rw [hnext, List.cons_append, elements?_more fuel hread, hreads]
    rfl

theorem readsMembers_succ {fuel : Nat} (hvalues : ReadsValues fuel)
    (hmembers : ReadsMembers fuel) : ReadsMembers (fuel + 1) := by
  intro k v ms depth rest ⟨hv, hms⟩ hfuel
  have htext : openMembers k v ms ++ rest =
      stringChars k ++ ':' :: (v.chars ++ (memberChars ms ++ rest)) := by simp [openMembers]
  rw [openMembers, List.length_append, List.length_cons, List.length_append] at hfuel
  rw [htext]
  cases ms with
  | nil =>
    obtain ⟨l, hread, hvalue⟩ := hvalues v depth _ hv (by omega)
      (closed_cons (.inr (.inr rfl)) rest)
    refine ⟨[(some k, l)], members?_last fuel k hread, ?_⟩
    simp [Literal.memberValues?, hvalue, normalMembers]
  | cons m ms =>
    obtain ⟨k', v'⟩ := m
    have hnext : memberChars ((k', v') :: ms) = ',' :: openMembers k' v' ms := rfl
    rw [hnext, List.length_cons] at hfuel
    obtain ⟨l, hread, hvalue⟩ := hvalues v depth _ hv (by omega)
      (closed_cons (.inl rfl) (openMembers k' v' ms ++ rest))
    obtain ⟨ls, hreads, hall⟩ := hmembers k' v' ms depth rest hms (by omega)
    refine ⟨(some k, l) :: ls, ?_, by simp [Literal.memberValues?, hvalue, hall, normalMembers]⟩
    rw [hnext, List.cons_append, members?_more fuel k hread, hreads]
    rfl

theorem reads (fuel : Nat) : ReadsValues fuel ∧ ReadsElements fuel ∧ ReadsMembers fuel := by
  -- fuel as long as the text is enough: each step down or along takes one unit and a character
  induction fuel with
  | zero =>
    refine ⟨?_, ?_, ?_⟩
    · intro v depth rest hv hfuel _
      obtain ⟨c, cs, hfirst, -⟩ := exists_first hv
      simp [hfirst] at hfuel
    · intro x xs depth rest hx hfuel
      obtain ⟨c, cs, hfirst, -⟩ := exists_first hx.1
      simp [openElements, hfirst] at hfuel
    · intro k v ms depth rest hv hfuel
      simp [openMembers] at hfuel
  | succ fuel ih =>
    obtain ⟨hvalues, helements, hmembers⟩ := ih
    exact ⟨readsValues_succ helements hmembers, readsElements_succ hvalues helements,
      readsMembers_succ hvalues hmembers⟩

theorem literalOfText?_text {v : Value} {depth : Nat} (h : v.Fits depth) :
    ∃ l, Literal.ofText? v.text = some l ∧ l.toValue? depth = some v.normal := by
  have htext : v.text.toList = v.chars := String.toList_ofList
  obtain ⟨l, hread, hvalue⟩ :=
    (reads (v.chars.length + 1)).1 v depth [] h (Nat.le_succ _) closed_nil
  rw [List.append_nil] at hread
  refine ⟨l, ?_, hvalue⟩
  unfold Literal.ofText?
  simp only [htext, hread]
  rfl

theorem ofText?_text {v : Value} (h : v.Fits nestingLimit) :
    Value.ofText? v.text = some v.normal := by
  obtain ⟨l, hread, hvalue⟩ := literalOfText?_text h
  rw [Value.ofText?, hread]
  exact hvalue

end MarketSketch.Json
