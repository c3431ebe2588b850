import MarketSketch.Json.Record
import MarketSketch.Proofs.Json.Text

/-! Members by their keys. Sorting the members of an object with distinct keys changes none of what
can be asked of it, so a record that was written is read field by field as it was. -/

namespace MarketSketch.Json

theorem Value.asArray?_eq_some_iff {v : Value} {xs : List Value} :
    v.asArray? = some xs ↔ v = .array xs := by
  cases v <;> simp [asArray?]

theorem Value.asInt?_eq_some_iff {v : Value} {n : Int} : v.asInt? = some n ↔ v = .int n := by
  cases v with
  | number k => cases k <;> simp [asInt?, Number.toInt?, Value.int]
  | _ => simp [asInt?, Value.int]

section Sorting

variable {ms ns : List (String × Value)}

theorem mem_iff_lookup (h : (ms.map (·.1)).Nodup) {k : String} {v : Value} :
    (k, v) ∈ ms ↔ ms.lookup k = some v := by
  induction ms with
  | nil => simp
  | cons m ms ih =>
    obtain ⟨j, w⟩ := m
    rw [List.map_cons, List.nodup_cons] at h
    rw [List.lookup_cons]
    by_cases hk : k = j
    · have hnot : (j, v) ∉ ms := fun hmem => h.1 (List.mem_map.mpr ⟨_, hmem, rfl⟩)
      subst hk
      simp [hnot, eq_comm]
    · have hbeq : (k == j) = false := beq_false_of_ne hk
      simp [hk, hbeq, ih h.2]

theorem lookup_of_perm (h : ms.Perm ns) (hd : (ms.map (·.1)).Nodup) (k : String) :
    ms.lookup k = ns.lookup k := by
  have hd' : (ns.map (·.1)).Nodup := (h.map _).nodup hd
  ext v
  rw [← mem_iff_lookup hd, ← mem_iff_lookup hd', h.mem_iff]

theorem insertMember_perm {k : String} (hk : k ∉ ms.map (·.1)) (v : Value) :
    (insertMember k v ms).Perm ((k, v) :: ms) := by
  induction ms with
  | nil => exact List.Perm.refl _
  | cons m ms ih =>
    obtain ⟨j, w⟩ := m
    rw [List.map_cons, List.mem_cons, not_or] at hk
    unfold insertMember
    split_ifs with hlt heq
    · exact List.Perm.refl _
    · exact absurd heq hk.1
    · exact ((ih hk.2).cons (j, w)).trans (List.Perm.swap _ _ _)

theorem sortedMembers_perm (h : (ms.map (·.1)).Nodup) : (sortedMembers ms).Perm ms := by
  -- the members already sorted have keys that are none of those to come
  have fold (done : List (String × Value)) (hd : ((done ++ ms).map (·.1)).Nodup) :
      (ms.foldl (fun sorted m => insertMember m.1 m.2 sorted) done).Perm (done ++ ms) := by
    clear h
    induction ms generalizing done with
    | nil => simp
    | cons m ms ih =>
      obtain ⟨k, v⟩ := m
      have hk : k ∉ done.map (·.1) := by
        rw [List.map_append, List.map_cons] at hd
        intro hmem
        exact (List.nodup_append.mp hd).2.2 k hmem k List.mem_cons_self rfl
      have hinsert : (insertMember k v done ++ ms).Perm (done ++ (k, v) :: ms) :=
        ((insertMember_perm hk v).append_right ms).trans List.perm_middle.symm
      exact (ih (insertMember k v done) ((hinsert.symm.map _).nodup hd)).trans hinsert
  exact fold [] h

theorem member?_eq_lookup (h : (ms.map (·.1)).Nodup) (k : String) :
    member? (ms.map fun (k, v) => (some k, v)) k = some (ms.lookup k) := by
  have hfilter : (ms.map fun (k, v) => (some k, v)).filter (·.1 = some k) =
      match ms.lookup k with
      | none => []
      | some v => [(some k, v)] := by
    induction ms with
    | nil => rfl
    | cons m ms ih =>
      obtain ⟨j, w⟩ := m
      rw [List.map_cons, List.nodup_cons] at h
      have ih := ih h.2
      by_cases hk : j = k
      · subst hk
        have hnone : ms.lookup j = none := by
          rw [List.lookup_eq_none_iff]
          intro m hm
          have : j ≠ m.1 := fun heq => h.1 (List.mem_map.mpr ⟨m, hm, heq.symm⟩)
          simpa using this
        rw [hnone] at ih
        simp [ih]
      · have hbeq : (k == j) = false := beq_false_of_ne (Ne.symm hk)
        simp [hk, hbeq, ih, List.lookup_cons]
  unfold member?
  rw [hfilter]
  cases ms.lookup k <;> rfl

theorem fields?_object (h : (ms.map (·.1)).Nodup) (names : List String) :
    fields? names (Value.object ms) = some (names.map fun k => ms.lookup k) := by
  have hview : Document.view (Value.object ms) = .object (ms.map fun (k, v) => (some k, v)) := rfl
  have hnamed : (ms.map fun (k, v) => (some k, v)).any (fun m => m.1.isNone) = false := by simp
  unfold fields?
  rw [hview]
  simp only [hnamed, Bool.false_eq_true, if_false]
  induction names with
  | nil => rfl
  | cons name names ih => simp [List.mapM_cons, member?_eq_lookup h, ih]

end Sorting

section Normal

variable {ms : List (String × Value)}

theorem normalMembers_eq_map (ms : List (String × Value)) :
    normalMembers ms = ms.map fun (k, v) => (k, v.normal) := by
  induction ms with
  | nil => rfl
  | cons m ms ih => rw [normalMembers, ih, List.map_cons]

theorem map_fst_normalMembers (ms : List (String × Value)) :
    (normalMembers ms).map (·.1) = ms.map (·.1) := by
  rw [normalMembers_eq_map, List.map_map]
  rfl

theorem lookup_normalMembers (ms : List (String × Value)) (k : String) :
    (normalMembers ms).lookup k = (ms.lookup k).map Value.normal := by
  induction ms with
  | nil => rfl
  | cons m ms ih =>
    obtain ⟨j, w⟩ := m
    rw [normalMembers, List.lookup_cons, List.lookup_cons, ih]
    cases k == j <;> rfl

theorem get?_normal (h : (ms.map (·.1)).Nodup) (k : String) :
    (Value.object ms).normal.get? k = (ms.lookup k).map Value.normal := by
  have hd : ((normalMembers ms).map (·.1)).Nodup := by rwa [map_fst_normalMembers]
  have hperm := sortedMembers_perm hd
  rw [Value.normal, Value.get?, lookup_of_perm hperm ((hperm.symm.map _).nodup hd),
    lookup_normalMembers]

theorem fields?_normal (h : (ms.map (·.1)).Nodup) (names : List String) :
    fields? names (Value.object ms).normal =
      some (names.map fun k => (ms.lookup k).map Value.normal) := by
  have hd : ((normalMembers ms).map (·.1)).Nodup := by rwa [map_fst_normalMembers]
  have hperm := sortedMembers_perm hd
  have hsorted := (hperm.symm.map Prod.fst).nodup hd
  have hlookup (k : String) : (sortedMembers (normalMembers ms)).lookup k =
      (ms.lookup k).map Value.normal := by
    rw [lookup_of_perm hperm hsorted, lookup_normalMembers]
  rw [Value.normal, fields?_object hsorted]
  simp only [hlookup]

end Normal

end MarketSketch.Json
