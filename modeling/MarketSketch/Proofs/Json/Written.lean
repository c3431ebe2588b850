import MarketSketch.Proofs.Json.Members

/-! A record that was written, read from its text without going through a value. The text is an
object as written, and each field that is asked for is there with what was put under its name. -/

namespace MarketSketch.Json

section Members

variable {ls : List (Option String × Literal)} {vs : List (String × Value)} {depth : Nat}

theorem memberValues?_cons {k? : Option String} {l : Literal}
    (h : Literal.memberValues? ((k?, l) :: ls) depth = some vs) :
    ∃ k v ws, k? = some k ∧ l.toValue? depth = some v ∧
      Literal.memberValues? ls depth = some ws ∧ vs = (k, v) :: ws := by
  rw [Literal.memberValues?] at h
  obtain ⟨k, hk, h⟩ := Option.bind_eq_some_iff.mp h
  obtain ⟨v, hv, h⟩ := Option.bind_eq_some_iff.mp h
  obtain ⟨ws, hws, h⟩ := Option.bind_eq_some_iff.mp h
  exact ⟨k, v, ws, hk, hv, hws, (Option.some.inj h).symm⟩

theorem any_isNone_of_memberValues? (h : Literal.memberValues? ls depth = some vs) :
    ls.any (·.1.isNone) = false := by
  induction ls generalizing vs with
  | nil => rfl
  | cons m ls ih =>
    obtain ⟨k?, l⟩ := m
    obtain ⟨k, v, ws, rfl, -, hws, -⟩ := memberValues?_cons h
    rw [List.any_cons, ih hws]
    rfl

theorem filter_of_memberValues? (h : Literal.memberValues? ls depth = some vs) {name : String}
    (hname : name ∉ vs.map (·.1)) : ls.filter (·.1 = some name) = [] := by
  induction ls generalizing vs with
  | nil => rfl
  | cons m ls ih =>
    obtain ⟨k?, l⟩ := m
    obtain ⟨k, v, ws, rfl, -, hws, rfl⟩ := memberValues?_cons h
    rw [List.map_cons, List.mem_cons, not_or] at hname
    have hk : some k ≠ some name := fun heq => hname.1 (Option.some.inj heq).symm
    rw [List.filter_cons_of_neg (by simpa using hk), ih hws hname.2]

theorem member?_of_memberValues? (h : Literal.memberValues? ls depth = some vs)
    (hd : (vs.map (·.1)).Nodup) (name : String) :
    ∃ l?, member? ls name = some l? ∧
      l?.map (·.toValue? depth) = (vs.lookup name).map some := by
  unfold member?
  induction ls generalizing vs with
  | nil =>
    have hvs : vs = [] := (Option.some.inj h).symm
    exact ⟨none, rfl, by rw [hvs]; rfl⟩
  | cons m ls ih =>
    obtain ⟨k?, l⟩ := m
    obtain ⟨k, v, ws, rfl, hv, hws, rfl⟩ := memberValues?_cons h
    rw [List.map_cons, List.nodup_cons] at hd
    rw [List.lookup_cons]
    by_cases hk : name = k
    · subst hk
      have hnone := filter_of_memberValues? hws hd.1
      rw [List.filter_cons_of_pos (by simp), hnone]
      exact ⟨some l, rfl, by simp [hv]⟩
    · have hbeq : (name == k) = false := beq_false_of_ne hk
      rw [List.filter_cons_of_neg (by simpa [eq_comm] using hk), hbeq]
      exact ih hws hd.2

theorem fields?_of_memberValues? (h : Literal.memberValues? ls depth = some vs)
    (hd : (vs.map (·.1)).Nodup) (names : List String) :
    ∃ fs, fields? names (Literal.object ls) = some fs ∧
      fs.map (·.map (·.toValue? depth)) = names.map fun k => (vs.lookup k).map some := by
  have hview : Document.view (Literal.object ls) = .object ls := rfl
  unfold fields?
  rw [hview]
  simp only [any_isNone_of_memberValues? h, Bool.false_eq_true, if_false]
  induction names with
  | nil => exact ⟨[], rfl, rfl⟩
  | cons name names ih =>
    obtain ⟨l?, hl, hvalue⟩ := member?_of_memberValues? h hd name
    obtain ⟨fs, hfs, hvalues⟩ := ih
    exact ⟨l? :: fs, by simp [List.mapM_cons, hl, hfs], by rw [List.map_cons, hvalue, hvalues]; rfl⟩

end Members

theorem literalOfText?_object {k : String} {v : Value} {ms : List (String × Value)} {depth : Nat}
    (h : MembersFit ((k, v) :: ms) depth) :
    ∃ ls, Literal.ofText? (Value.object ((k, v) :: ms)).text = some (.object ls) ∧
      Literal.memberValues? ls depth = some (normalMembers ((k, v) :: ms)) := by
  have htext : (Value.object ((k, v) :: ms)).text.toList =
      Char.ofNat 0x7B :: openMembers k v ms := String.toList_ofList
  have hopen : openMembers k v ms = '"' :: (openMembers k v ms).tail := rfl
  obtain ⟨ls, hread, hvalues⟩ := (reads ((openMembers k v ms).length + 1)).2.2 k v ms depth [] h
    (Nat.le_succ _)
  rw [List.append_nil] at hread
  have hliteral : literal? ((openMembers k v ms).length + 1 + 1)
      (Char.ofNat 0x7B :: openMembers k v ms) = some (.object ls, []) := by
    rw [hopen, literal?_object, ← hopen, hread]
    rfl
  refine ⟨ls, ?_, hvalues⟩
  unfold Literal.ofText?
  simp only [htext, List.length_cons, hliteral]
  rfl

theorem fields?_written {k : String} {v : Value} {ms : List (String × Value)} {depth : Nat}
    (h : MembersFit ((k, v) :: ms) depth) (hd : (((k, v) :: ms).map (·.1)).Nodup)
    (names : List String) :
    ∃ l fs, Literal.ofText? (Value.object ((k, v) :: ms)).text = some l ∧
      fields? names l = some fs ∧
      fs.map (·.map (·.toValue? depth)) =
        names.map fun name => (((k, v) :: ms).lookup name).map (some ·.normal) := by
  obtain ⟨ls, hread, hvalues⟩ := literalOfText?_object h
  obtain ⟨fs, hfs, hfields⟩ :=
    fields?_of_memberValues? hvalues (by rwa [map_fst_normalMembers]) names
  refine ⟨.object ls, fs, hread, hfs, ?_⟩
  simp only [hfields, lookup_normalMembers, Option.map_map]
  rfl

theorem exists_numeral_of_wide {l : Literal} {depth : Nat} {x : Float}
    (h : l.toValue? depth = some (.number (.wide x))) :
    ∃ n, l = .number n ∧ n.toFloat? = some x := by
  cases l with
  | number n =>
    rw [Literal.toValue?, Option.map_eq_some_iff] at h
    obtain ⟨y, hy, hnumber⟩ := h
    rw [Value.number.injEq] at hnumber
    rw [hnumber, Numeral.toNumber?] at hy
    split at hy
    · simp at hy
    · obtain ⟨z, hz, hwide⟩ := Option.map_eq_some_iff.mp hy
      exact ⟨n, rfl, hz.trans (congrArg some (Number.wide.inj hwide))⟩
  | null | bool b => simp [Literal.toValue?] at h
  | string s => simp [Literal.toValue?] at h
  | array xs | object ms => cases depth <;> simp [Literal.toValue?] at h

theorem real?_of_wide {l : Literal} {depth : Nat} {x : Float}
    (h : l.toValue? depth = some (.number (.wide x))) : real? l = some x := by
  obtain ⟨n, rfl, hn⟩ := exists_numeral_of_wide h
  exact hn

end MarketSketch.Json
