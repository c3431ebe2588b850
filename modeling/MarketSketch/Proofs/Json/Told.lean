import MarketSketch.Proofs.Json.Proper

/-! A value told by its text. A record is read from the text of a proper value as from the value
itself: each field stands in both or in neither, with the same number or the same string. -/

namespace MarketSketch.Json

section Height

mutual

def Value.height : Value → Nat
  | .array xs => elementsHeight xs + 1
  | .object ms => membersHeight ms + 1
  | _ => 0

def elementsHeight : List Value → Nat
  | [] => 0
  | x :: xs => max x.height (elementsHeight xs)

def membersHeight : List (String × Value) → Nat
  | [] => 0
  | (_, v) :: ms => max v.height (membersHeight ms)

end

mutual

theorem fits_of_height_le : ∀ {v : Value} {depth : Nat}, v.Proper → v.height ≤ depth → v.Fits depth
  | .null, _, _, _ | .bool _, _, _, _ | .string _, _, _, _ | .number (.wide _), _, _, _ => trivial
  | .number (.whole _), _, h, _ => h
  | .number (.narrow _), _, h, _ => h.elim
  | .array _, 0, _, hle | .object _, 0, _, hle => absurd hle (Nat.not_succ_le_zero _)
  | .array _, _ + 1, h, hle => elementsFit_of_height_le h (Nat.le_of_succ_le_succ hle)
  | .object _, _ + 1, h, hle => membersFit_of_height_le h.2 (Nat.le_of_succ_le_succ hle)

theorem elementsFit_of_height_le : ∀ {xs : List Value} {depth : Nat}, ElementsProper xs →
    elementsHeight xs ≤ depth → ElementsFit xs depth
  | [], _, _, _ => trivial
  | _ :: _, _, h, hle =>
    ⟨fits_of_height_le h.1 ((le_max_left _ _).trans hle),
      elementsFit_of_height_le h.2 ((le_max_right _ _).trans hle)⟩

theorem membersFit_of_height_le : ∀ {ms : List (String × Value)} {depth : Nat}, MembersProper ms →
    membersHeight ms ≤ depth → MembersFit ms depth
  | [], _, _, _ => trivial
  | _ :: _, _, h, hle =>
    ⟨fits_of_height_le h.1 ((le_max_left _ _).trans hle),
      membersFit_of_height_le h.2 ((le_max_right _ _).trans hle)⟩

end

end Height

/-- The number or the string of the literal, if it is one, is that of the value. -/
structure Literal.Tells (l : Literal) (v : Value) : Prop where
  real : real? l = real? v
  text : text? l = text? v

section Leaves

variable {l : Literal} {v w : Value} {depth : Nat}

theorem text?_of_toValue? (h : l.toValue? depth = some w) : text? l = text? w := by
  cases l with
  | null | bool => cases h; rfl
  | number n =>
    obtain ⟨_, -, rfl⟩ := Option.map_eq_some_iff.mp h
    rfl
  | string s =>
    obtain ⟨_, rfl, rfl⟩ := Option.map_eq_some_iff.mp h
    rfl
  | array ls | object ms =>
    cases depth with
    | zero => cases h
    | succ depth =>
      obtain ⟨_, -, rfl⟩ := Option.map_eq_some_iff.mp h
      rfl

theorem real?_of_toValue? (hl : l.Sound) (h : l.toValue? depth = some w) :
    real? l = real? w := by
  cases l with
  | null | bool => cases h; rfl
  | number n =>
    obtain ⟨k, hk, rfl⟩ := Option.map_eq_some_iff.mp h
    have hreal : n.toFloat? = some k.toFloat := by
      unfold Numeral.toNumber? at hk
      split at hk
      · rename_i hint
        cases hk
        exact Numeral.toFloat?_of_toInt? hl hint
      · obtain ⟨x, hx, rfl⟩ := Option.map_eq_some_iff.mp hk
        exact hx
    exact hreal
  | string s =>
    obtain ⟨_, -, rfl⟩ := Option.map_eq_some_iff.mp h
    rfl
  | array ls | object ms =>
    cases depth with
    | zero => cases h
    | succ depth =>
      obtain ⟨_, -, rfl⟩ := Option.map_eq_some_iff.mp h
      rfl

theorem normal_number {n : Number} (h : (Value.number n).Proper) :
    (Value.number n).normal = .number n := by
  cases n with
  | whole n => rfl
  | wide x => exact if_pos h
  | narrow x => exact h.elim

theorem tells_of_toValue? (hl : l.Sound) (hv : v.Proper) (h : l.toValue? depth = some v.normal) :
    l.Tells v := by
  have hsame : real? v.normal = real? v ∧ text? v.normal = text? v := by
    cases v with
    | number n => rw [normal_number hv]; exact ⟨rfl, rfl⟩
    | _ => exact ⟨rfl, rfl⟩
  exact ⟨(real?_of_toValue? hl h).trans hsame.1, (text?_of_toValue? h).trans hsame.2⟩

theorem fields?_eq_none (h : l.toValue? depth = some w) (harray : w.asArray? = none)
    (hobject : w.isObject = false) (names : List String) : fields? names l = none := by
  cases l with
  | null | bool | number | string => rfl
  | array ls =>
    cases depth with
    | zero => cases h
    | succ depth =>
      obtain ⟨_, -, rfl⟩ := Option.map_eq_some_iff.mp h
      cases harray
  | object ms =>
    cases depth with
    | zero => cases h
    | succ depth =>
      obtain ⟨_, -, rfl⟩ := Option.map_eq_some_iff.mp h
      cases hobject

end Leaves

abbrev ToldFields : Option (List (Option Literal)) → Option (List (Option Value)) → Prop :=
  Option.Rel (List.Forall₂ (Option.Rel Literal.Tells))

section Records

variable {l : Literal} {v : Value} {depth : Nat}

theorem tells_of_elementValues? {ls : List Literal} {xs : List Value} (hls : ElementsSound ls)
    (hxs : ElementsProper xs) (h : Literal.elementValues? ls depth = some (normalElements xs)) :
    List.Forall₂ Literal.Tells ls xs := by
  induction ls generalizing xs with
  | nil =>
    cases xs with
    | nil => exact .nil
    | cons x xs => cases h
  | cons l ls ih =>
    obtain ⟨w, hw, h⟩ := Option.bind_eq_some_iff.mp h
    obtain ⟨ws, hws, h⟩ := Option.bind_eq_some_iff.mp h
    cases xs with
    | nil => cases h
    | cons x xs =>
      obtain ⟨rfl, rfl⟩ := List.cons.inj (Option.some.inj h)
      exact .cons (tells_of_toValue? hls.1 hxs.1 hw) (ih hls.2 hxs.2 hws)

theorem array_of_toValue? {ws : List Value} (h : l.toValue? (depth + 1) = some (.array ws)) :
    ∃ ls, l = .array ls ∧ Literal.elementValues? ls depth = some ws := by
  cases l with
  | null | bool => cases h
  | array ls =>
    obtain ⟨vs, hvs, hws⟩ := Option.map_eq_some_iff.mp h
    exact ⟨ls, rfl, Value.array.inj hws ▸ hvs⟩
  | number | string | object =>
    obtain ⟨_, -, hother⟩ := Option.map_eq_some_iff.mp h
    cases hother

theorem told_array {ls : List Literal} {xs : List Value} (h : List.Forall₂ Literal.Tells ls xs)
    (names : List String) :
    ToldFields (fields? names (Literal.array ls)) (fields? names (Value.array xs)) := by
  have hmissing (n : Nat) :
      List.Forall₂ (Option.Rel Literal.Tells) (List.replicate n none) (List.replicate n none) := by
    induction n with
    | zero => exact .nil
    | succ n ih => exact .cons .none ih
  have hviews : Document.view (Literal.array ls) = .array ls ∧
      Document.view (Value.array xs) = .array xs := ⟨rfl, rfl⟩
  unfold fields?
  rw [hviews.1, hviews.2]
  dsimp only
  rw [h.length_eq]
  split
  · exact .none
  · refine .some (List.rel_append ?_ (hmissing _))
    rw [List.forall₂_map_left_iff, List.forall₂_map_right_iff]
    exact h.imp fun _ _ => .some

section Members

variable {ls : List (Option String × Literal)} {ms : List (String × Value)}

theorem mem_of_member? {name : String} (h : member? ls name = some (some l)) :
    ∃ m ∈ ls, m.2 = l := by
  unfold member? at h
  split at h
  · cases h
  · rename_i k _ hfilter
    cases h
    exact ⟨(k, l), (List.mem_filter.mp (hfilter ▸ List.mem_cons_self)).1, rfl⟩
  · cases h

theorem told_member (hls : MembersSound ls) (hms : (Value.object ms).Proper)
    (h : Literal.memberValues? ls depth = some (normalMembers ms)) (name : String) :
    ∃ l?, member? ls name = some l? ∧ Option.Rel Literal.Tells l? (ms.lookup name) := by
  obtain ⟨l?, hl, hvalue⟩ :=
    member?_of_memberValues? h (by rw [map_fst_normalMembers]; exact hms.1) name
  rw [lookup_normalMembers] at hvalue
  refine ⟨l?, hl, ?_⟩
  cases hv : ms.lookup name with
  | none =>
    rw [hv] at hvalue
    rw [Option.map_eq_none_iff.mp hvalue]
    exact .none
  | some v =>
    rw [hv] at hvalue
    obtain ⟨l, rfl, htold⟩ := Option.map_eq_some_iff.mp hvalue
    obtain ⟨m, hm, rfl⟩ := mem_of_member? hl
    have hproper := membersProper_iff.mp hms.2 _ ((mem_iff_lookup hms.1).mpr hv)
    exact .some (tells_of_toValue? (membersSound_iff.mp hls m hm) hproper htold)

theorem told_object (hls : MembersSound ls) (hms : (Value.object ms).Proper)
    (h : Literal.memberValues? ls depth = some (normalMembers ms)) (names : List String) :
    ToldFields (fields? names (Literal.object ls)) (fields? names (Value.object ms)) := by
  have hview : Document.view (Literal.object ls) = .object ls := rfl
  rw [fields?_object hms.1]
  unfold fields?
  rw [hview]
  simp only [any_isNone_of_memberValues? h, Bool.false_eq_true, if_false]
  have hfields : ∃ fs, names.mapM (member? ls) = some fs ∧
      List.Forall₂ (Option.Rel Literal.Tells) fs (names.map fun k => ms.lookup k) := by
    induction names with
    | nil => exact ⟨[], rfl, .nil⟩
    | cons name names ih =>
      obtain ⟨l?, hl, htold⟩ := told_member hls hms h name
      obtain ⟨fs, hfs, hrest⟩ := ih
      exact ⟨l? :: fs, by simp [List.mapM_cons, hl, hfs], .cons htold hrest⟩
  obtain ⟨fs, hfs, htold⟩ := hfields
  rw [hfs]
  exact .some htold

end Members

theorem told_text (h : v.Proper) (names : List String) :
    ∃ l, Literal.ofText? v.text = some l ∧ ToldFields (fields? names l) (fields? names v) := by
  have hfits : v.Fits v.height := fits_of_height_le h le_rfl
  obtain ⟨l, hread, hvalue⟩ := literalOfText?_text hfits
  have hsound := sound_of_ofText? hread
  refine ⟨l, hread, ?_⟩
  cases v with
  | array xs =>
    obtain ⟨ls, rfl, hls⟩ := array_of_toValue? hvalue
    exact told_array (tells_of_elementValues? hsound h hls) names
  | object ms =>
    -- a value does not show whether a key was repeated, so the members are taken as written
    obtain ⟨ls, hobject, hls⟩ : ∃ ls, Literal.ofText? (Value.object ms).text = some (.object ls) ∧
        Literal.memberValues? ls (membersHeight ms) = some (normalMembers ms) := by
      cases ms with
      | nil => exact ⟨[], rfl, rfl⟩
      | cons m ms => exact literalOfText?_object hfits
    obtain rfl : l = .object ls := Option.some.inj (hread.symm.trans hobject)
    exact told_object hsound h hls names
  | number n =>
    rw [normal_number h] at hvalue
    rw [fields?_eq_none hvalue rfl rfl]
    exact .none
  | null | bool | string =>
    rw [fields?_eq_none hvalue rfl rfl]
    exact .none

end Records

end MarketSketch.Json
