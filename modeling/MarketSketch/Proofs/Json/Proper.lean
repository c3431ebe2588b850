import MarketSketch.Proofs.Json.Written
import MarketSketch.Proofs.Number.Whole

/-! What reading a text gives. In a literal a whole number has nothing after the point; in a value
whole numbers have 64 bits, other numbers are finite, and no key of an object stands twice. -/

namespace MarketSketch

namespace Json

namespace Numeral

/-- A run of digits does not end in a fraction. -/
def Plain (n : Numeral) : Prop := n.whole = true → 0 ≤ n.decimal.exponent

theorem exponent_trimmed_nonneg {d : Decimal} (h : 0 ≤ d.exponent) : 0 ≤ d.trimmed.exponent := by
  unfold Decimal.trimmed
  split
  · exact le_rfl
  · exact h.trans (le_exponent_trim _ _)

theorem plain_of_unsigned? {negative : Bool} {cs rest : List Char} {n : Numeral}
    (h : unsigned? negative cs = some (n, rest)) : n.Plain := by
  unfold unsigned? at h
  dsimp only at h
  split at h
  · cases h
  obtain ⟨⟨fraction, cs'⟩, -, h⟩ := Option.bind_eq_some_iff.mp h
  obtain ⟨⟨exponent, cs''⟩, -, h⟩ := Option.bind_eq_some_iff.mp h
  obtain ⟨rfl, -⟩ := Prod.mk.inj (Option.some.inj h)
  intro hwhole
  obtain ⟨hfraction, hexponent⟩ := Bool.and_eq_true_iff.mp hwhole
  rw [List.isEmpty_iff] at hfraction
  rw [Option.isNone_iff_eq_none] at hexponent
  subst hfraction hexponent
  exact exponent_trimmed_nonneg (by simp)

theorem plain_of_numeral? {cs rest : List Char} {n : Numeral}
    (h : numeral? cs = some (n, rest)) : n.Plain := by
  cases cs with
  | nil => cases h
  | cons c cs =>
    by_cases hc : c = '-'
    · rw [hc, numeral?_minus] at h
      exact plain_of_unsigned? h
    · rw [numeral?_of_ne_minus hc] at h
      exact plain_of_unsigned? h

theorem toInt?_range {n : Numeral} {k : Int} (h : n.toInt? = some k) :
    -2 ^ 63 ≤ k ∧ k < 2 ^ 64 := by
  unfold toInt? at h
  split_ifs at h with _ _ hbound hbound
  · cases h
    omega
  · cases h
    omega

theorem toFloat?_of_toInt? {n : Numeral} (hplain : n.Plain) {k : Int} (h : n.toInt? = some k) :
    n.toFloat? = some (Double.ofInt k) := by
  have hrange := toInt?_range h
  unfold toInt? at h
  split at h
  · cases h
  · rename_i hguard
    simp only [Bool.or_eq_true, Bool.not_eq_true', decide_eq_true_eq, not_or, not_lt,
      Bool.not_eq_false] at hguard
    obtain ⟨hwhole, hleading⟩ := hguard
    have hexponent := hplain hwhole
    have hnearest :
        Binary.double.nearestDecimal n.decimal = Binary.double.nearest n.wholeNat 1 := by
      unfold Binary.nearestDecimal
      by_cases hzero : n.decimal.coefficient = 0
      · rw [if_pos hzero, wholeNat, hzero, Nat.zero_mul]
        rfl
      · have hlow : ¬ n.decimal.leading < -400 := by
          unfold Decimal.leading
          omega
        have hhigh : ¬ 400 < n.decimal.leading := by omega
        rw [if_neg hzero, if_neg hhigh, if_neg hlow, Decimal.ratio, if_pos hexponent]
        rfl
    have hvalue : n.negative = decide (k < 0) ∧ n.wholeNat = k.natAbs := by
      split at h
      · rename_i hnegative
        obtain ⟨hbound, h⟩ := Option.ite_none_right_eq_some.mp h
        cases h
        exact ⟨by rw [hnegative, decide_eq_true (by omega)], by omega⟩
      · rename_i hpositive
        obtain ⟨hbound, h⟩ := Option.ite_none_right_eq_some.mp h
        cases h
        exact ⟨by rw [Bool.eq_false_of_not_eq_true hpositive, decide_eq_false (by omega)], by omega⟩
    have hread : Double.ofDecimal n.negative n.decimal = Double.ofInt k := by
      rw [Double.ofDecimal, hnearest, hvalue.1, hvalue.2]
      rfl
    have hfinite : (Double.ofInt k).isFinite = true :=
      Double.isFinite_ofInt_of_word (by omega)
    unfold toFloat?
    rw [hread]
    exact if_pos hfinite

end Numeral

section Literals

mutual

def Literal.Sound : Literal → Prop
  | .number n => n.Plain
  | .array xs => ElementsSound xs
  | .object ms => MembersSound ms
  | _ => True

def ElementsSound : List Literal → Prop
  | [] => True
  | x :: xs => x.Sound ∧ ElementsSound xs

def MembersSound : List (Option String × Literal) → Prop
  | [] => True
  | (_, x) :: ms => x.Sound ∧ MembersSound ms

end

theorem membersSound_iff {ms : List (Option String × Literal)} :
    MembersSound ms ↔ ∀ m ∈ ms, m.2.Sound := by
  induction ms with
  | nil => simp [MembersSound]
  | cons m ms ih => simp [MembersSound, ih]

def SoundLiterals (fuel : Nat) : Prop :=
  ∀ cs l rest, literal? fuel cs = some (l, rest) → l.Sound

def SoundElements (fuel : Nat) : Prop :=
  ∀ cs xs rest, elements? fuel cs = some (xs, rest) → ElementsSound xs

def SoundMembers (fuel : Nat) : Prop :=
  ∀ cs ms rest, members? fuel cs = some (ms, rest) → MembersSound ms

theorem exists_of_map_fst {α β : Type} {f : α → β} {o : Option (α × List Char)} {b : β}
    {rest : List Char} (h : o.map (fun (a, rest) => (f a, rest)) = some (b, rest)) :
    ∃ a, o = some (a, rest) ∧ f a = b := by
  obtain ⟨⟨a, rest'⟩, hread, h⟩ := Option.map_eq_some_iff.mp h
  obtain ⟨hf, rfl⟩ := Prod.mk.inj h
  exact ⟨a, hread, hf⟩

theorem soundLiterals_succ {fuel : Nat} (helements : SoundElements fuel)
    (hmembers : SoundMembers fuel) : SoundLiterals (fuel + 1) := by
  intro cs l rest h
  have word {o : Option (List Char)} {w : Literal} (hw : w.Sound)
      (h : o.map (w, ·) = some (l, rest)) : l.Sound := by
    obtain ⟨_, -, h⟩ := Option.map_eq_some_iff.mp h
    exact (Prod.mk.inj h).1 ▸ hw
  rw [literal?] at h
  split at h
  · cases h
  · rename_i c after _
    split_ifs at h with hstring harray hobject hnull htrue hfalse
    · obtain ⟨s, -, rfl⟩ := exists_of_map_fst h
      exact trivial
    · split at h
      · cases h
        exact trivial
      · obtain ⟨xs, hread, rfl⟩ := exists_of_map_fst h
        exact helements _ _ _ hread
    · split at h
      · cases h
      · split_ifs at h
        · cases h
          exact trivial
        · obtain ⟨ms, hread, rfl⟩ := exists_of_map_fst h
          exact hmembers _ _ _ hread
    · exact word (w := .null) trivial h
    · exact word (w := .bool true) trivial h
    · exact word (w := .bool false) trivial h
    · obtain ⟨n, hread, rfl⟩ := exists_of_map_fst h
      exact Numeral.plain_of_numeral? hread

theorem soundElements_succ {fuel : Nat} (hliterals : SoundLiterals fuel)
    (helements : SoundElements fuel) : SoundElements (fuel + 1) := by
  intro cs xs rest h
  rw [elements?] at h
  split at h
  · cases h
  · rename_i x after hread
    have hx := hliterals _ _ _ hread
    split at h
    · obtain ⟨ys, hrest, rfl⟩ := exists_of_map_fst h
      exact ⟨hx, helements _ _ _ hrest⟩
    · cases h
      exact ⟨hx, trivial⟩
    · cases h

theorem soundMembers_succ {fuel : Nat} (hliterals : SoundLiterals fuel)
    (hmembers : SoundMembers fuel) : SoundMembers (fuel + 1) := by
  intro cs ms rest h
  rw [members?] at h
  split at h
  · split at h
    · cases h
    · split at h
      · split at h
        · cases h
        · rename_i v after hread
          have hv := hliterals _ _ _ hread
          split at h
          · cases h
          · split_ifs at h
            · obtain ⟨ns, hrest, rfl⟩ := exists_of_map_fst h
              exact ⟨hv, hmembers _ _ _ hrest⟩
            · cases h
              exact ⟨hv, trivial⟩
      · cases h
  · cases h

theorem sound_of_read (fuel : Nat) :
    SoundLiterals fuel ∧ SoundElements fuel ∧ SoundMembers fuel := by
  induction fuel with
  | zero => refine ⟨?_, ?_, ?_⟩ <;> intro _ _ _ h <;> cases h
  | succ fuel ih =>
    obtain ⟨hliterals, helements, hmembers⟩ := ih
    exact ⟨soundLiterals_succ helements hmembers, soundElements_succ hliterals helements,
      soundMembers_succ hliterals hmembers⟩

theorem sound_of_ofText? {text : String} {l : Literal} (h : Literal.ofText? text = some l) :
    l.Sound := by
  unfold Literal.ofText? at h
  dsimp only at h
  split at h
  · rename_i hread
    obtain ⟨-, h⟩ := Option.ite_none_right_eq_some.mp h
    cases h
    exact (sound_of_read _).1 _ _ _ hread
  · cases h

end Literals

section Values

mutual

/-- A value as it is read: whole numbers have 64 bits, other numbers are finite doubles, and no key
of an object stands twice. -/
def Value.Proper : Value → Prop
  | .number (.whole n) => -2 ^ 63 ≤ n ∧ n < 2 ^ 64
  | .number (.wide x) => x.isFinite = true
  | .number (.narrow _) => False
  | .array xs => ElementsProper xs
  | .object ms => (ms.map (·.1)).Nodup ∧ MembersProper ms
  | _ => True

def ElementsProper : List Value → Prop
  | [] => True
  | x :: xs => x.Proper ∧ ElementsProper xs

def MembersProper : List (String × Value) → Prop
  | [] => True
  | (_, v) :: ms => v.Proper ∧ MembersProper ms

end

theorem elementsProper_iff {xs : List Value} : ElementsProper xs ↔ ∀ x ∈ xs, x.Proper := by
  induction xs with
  | nil => simp [ElementsProper]
  | cons x xs ih => simp [ElementsProper, ih]

theorem membersProper_iff {ms : List (String × Value)} :
    MembersProper ms ↔ ∀ m ∈ ms, m.2.Proper := by
  induction ms with
  | nil => simp [MembersProper]
  | cons m ms ih => simp [MembersProper, ih]

theorem Value.Proper.of_get? {v w : Value} (h : v.Proper) {k : String} (hw : v.get? k = some w) :
    w.Proper := by
  cases v with
  | object ms => exact membersProper_iff.mp h.2 _ ((mem_iff_lookup h.1).mpr hw)
  | _ => cases hw

theorem Value.Proper.isFinite {n : Number} (h : (Value.number n).Proper) :
    n.toFloat.isFinite = true := by
  cases n with
  | whole n =>
    obtain ⟨hlow, hhigh⟩ : -2 ^ 63 ≤ n ∧ n < 2 ^ 64 := h
    exact Double.isFinite_ofInt_of_word (by omega)
  | wide x => exact h
  | narrow x => exact h.elim

section Insert

variable {ms : List (String × Value)}

theorem mem_of_mem_insertMember {k : String} {v : Value} {m : String × Value}
    (h : m ∈ insertMember k v ms) : m = (k, v) ∨ m ∈ ms := by
  induction ms with
  | nil => exact .inl (List.mem_singleton.mp h)
  | cons n ms ih =>
    obtain ⟨j, w⟩ := n
    unfold insertMember at h
    split_ifs at h with hlt heq
    · exact (List.mem_cons.mp h).imp_right id
    · exact (List.mem_cons.mp h).imp_right (List.mem_cons_of_mem _)
    · rcases List.mem_cons.mp h with rfl | h
      · exact .inr List.mem_cons_self
      · exact (ih h).imp_right (List.mem_cons_of_mem _)

theorem ascending_insertMember (h : (ms.map (·.1)).Pairwise (· < ·)) (k : String) (v : Value) :
    ((insertMember k v ms).map (·.1)).Pairwise (· < ·) := by
  induction ms with
  | nil => exact List.pairwise_singleton _ k
  | cons m ms ih =>
    obtain ⟨j, w⟩ := m
    rw [List.map_cons, List.pairwise_cons] at h
    unfold insertMember
    split_ifs with hlt heq
    · rw [List.map_cons, List.map_cons, List.pairwise_cons, List.pairwise_cons]
      refine ⟨fun i hi => ?_, h⟩
      rcases List.mem_cons.mp hi with rfl | hi
      · exact hlt
      · exact hlt.trans (h.1 i hi)
    · subst heq
      exact List.pairwise_cons.mpr h
    · have hjk : j < k := lt_of_le_of_ne (not_lt.mp hlt) (Ne.symm heq)
      rw [List.map_cons, List.pairwise_cons]
      refine ⟨fun i hi => ?_, ih h.2⟩
      obtain ⟨n, hn, rfl⟩ := List.mem_map.mp hi
      rcases mem_of_mem_insertMember hn with rfl | hn
      · exact hjk
      · exact h.1 _ (List.mem_map_of_mem hn)

theorem of_sortedMembers (ms : List (String × Value)) :
    ((sortedMembers ms).map (·.1)).Pairwise (· < ·) ∧ ∀ m ∈ sortedMembers ms, m ∈ ms := by
  have fold (done : List (String × Value)) (hd : (done.map (·.1)).Pairwise (· < ·)) :
      ((ms.foldl (fun sorted m => insertMember m.1 m.2 sorted) done).map (·.1)).Pairwise (· < ·) ∧
        ∀ m ∈ ms.foldl (fun sorted m => insertMember m.1 m.2 sorted) done, m ∈ done ∨ m ∈ ms := by
    induction ms generalizing done with
    | nil => exact ⟨hd, fun _ hm => .inl hm⟩
    | cons n ms ih =>
      obtain ⟨hkeys, hmem⟩ := ih _ (ascending_insertMember hd n.1 n.2)
      refine ⟨hkeys, fun m hm => ?_⟩
      rcases hmem m hm with hold | hnew
      · rcases mem_of_mem_insertMember hold with rfl | hold
        · exact .inr List.mem_cons_self
        · exact .inl hold
      · exact .inr (List.mem_cons_of_mem _ hnew)
  obtain ⟨hkeys, hmem⟩ := fold [] List.Pairwise.nil
  exact ⟨hkeys, fun m hm => (hmem m hm).resolve_left List.not_mem_nil⟩

end Insert

mutual

theorem proper_of_toValue? : ∀ {l : Literal} {depth : Nat} {v : Value},
    l.toValue? depth = some v → v.Proper
  | .null, _, _, h | .bool _, _, _, h => by cases h; trivial
  | .string _, _, _, h => by
    obtain ⟨_, -, rfl⟩ := Option.map_eq_some_iff.mp h
    trivial
  | .number n, _, _, h => by
    obtain ⟨k, hk, rfl⟩ := Option.map_eq_some_iff.mp h
    unfold Numeral.toNumber? at hk
    split at hk
    · rename_i hint
      cases hk
      exact Numeral.toInt?_range hint
    · obtain ⟨x, hx, rfl⟩ := Option.map_eq_some_iff.mp hk
      obtain ⟨hfinite, hx⟩ := Option.ite_none_right_eq_some.mp hx
      cases hx
      exact hfinite
  | .array _, 0, _, h | .object _, 0, _, h => by cases h
  | .array xs, depth + 1, _, h => by
    obtain ⟨vs, hvs, rfl⟩ := Option.map_eq_some_iff.mp h
    exact proper_of_elementValues? hvs
  | .object ms, depth + 1, _, h => by
    obtain ⟨vs, hvs, rfl⟩ := Option.map_eq_some_iff.mp h
    obtain ⟨hkeys, hmem⟩ := of_sortedMembers vs
    have hproper := membersProper_iff.mp (proper_of_memberValues? hvs)
    exact ⟨hkeys.imp ne_of_lt, membersProper_iff.mpr fun m hm => hproper m (hmem m hm)⟩

theorem proper_of_elementValues? : ∀ {ls : List Literal} {depth : Nat} {vs : List Value},
    Literal.elementValues? ls depth = some vs → ElementsProper vs
  | [], _, _, h => by cases h; trivial
  | l :: ls, depth, _, h => by
    obtain ⟨v, hv, h⟩ := Option.bind_eq_some_iff.mp h
    obtain ⟨vs, hvs, h⟩ := Option.bind_eq_some_iff.mp h
    cases h
    exact ⟨proper_of_toValue? hv, proper_of_elementValues? hvs⟩

theorem proper_of_memberValues? : ∀ {ls : List (Option String × Literal)} {depth : Nat}
    {vs : List (String × Value)}, Literal.memberValues? ls depth = some vs → MembersProper vs
  | [], _, _, h => by cases h; trivial
  | (k?, l) :: ls, depth, _, h => by
    obtain ⟨k, v, ws, -, hv, hws, rfl⟩ := memberValues?_cons h
    exact ⟨proper_of_toValue? hv, proper_of_memberValues? hws⟩

end

theorem proper_of_ofText? {text : String} {v : Value} (h : Value.ofText? text = some v) :
    v.Proper := by
  obtain ⟨l, -, hl⟩ := Option.bind_eq_some_iff.mp h
  exact proper_of_toValue? hl

end Values

end Json

end MarketSketch
