import FeatureRun.OrderedMap

/-!
# Maps and the lists of their entries

An entry of a map is the value of its key. Inserting a list of entries changes the keys of that list
and no others; if entries with one key never differ, their order does not matter.
-/
set_option autoImplicit false

namespace FeatureRun.OrderedMap

variable {κ ν : Type} [DecidableEq κ] {m : OrderedMap κ ν} {a : κ} {v : ν}

omit [DecidableEq κ] in
/-- A map is determined by its entries. -/
theorem eq_of_entries {m m' : OrderedMap κ ν} (h : m.entries = m'.entries) : m = m' := by
  cases m
  cases m'
  congr

theorem find?_eq_none_iff {es : List (κ × ν)} : find? a es = none ↔ a ∉ es.map Prod.fst := by
  induction es with
  | nil => simp [find?]
  | cons e es ih =>
    obtain ⟨b, w⟩ := e
    by_cases h : b = a
    · simp [find?, h]
    · simp [find?, h, ih, Ne.symm h]

theorem find?_eq_some_iff {es : List (κ × ν)} (hes : (es.map Prod.fst).Nodup) :
    find? a es = some v ↔ (a, v) ∈ es := by
  induction es with
  | nil => simp [find?]
  | cons e es ih =>
    obtain ⟨b, w⟩ := e
    rw [List.map_cons, List.nodup_cons] at hes
    by_cases h : b = a
    · subst h
      have hout : (b, v) ∉ es := fun hv => hes.1 (List.mem_map.2 ⟨_, hv, rfl⟩)
      simp [find?, hout, eq_comm]
    · simp [find?, h, ih hes.2, Ne.symm h]

theorem mem_entries_iff : (a, v) ∈ m.entries ↔ m.get? a = some v :=
  (find?_eq_some_iff m.nodup_keys).symm

theorem mem_keys_iff : a ∈ m.keys ↔ (m.get? a).isSome = true := by
  rw [Option.isSome_iff_ne_none, ne_eq, get?, find?_eq_none_iff, Classical.not_not]
  rfl

theorem get?_filter (m : OrderedMap κ ν) (p : κ → ν → Bool) (a : κ) :
    (m.filter p).get? a = (m.get? a).filter (p a) := by
  refine Option.ext fun v => ?_
  rw [← mem_entries_iff, Option.filter_eq_some_iff, ← mem_entries_iff]
  exact List.mem_filter

theorem mem_values_iff : v ∈ m.values ↔ ∃ a, m.get? a = some v := by
  simp only [values, List.mem_map, ← mem_entries_iff]
  constructor
  · rintro ⟨⟨a, _⟩, h, rfl⟩
    exact ⟨a, h⟩
  · rintro ⟨a, h⟩
    exact ⟨(a, v), h, rfl⟩

/-! ## Inserting many entries -/

theorem insertAll_append (m : OrderedMap κ ν) (es fs : List (κ × ν)) :
    m.insertAll (es ++ fs) = (m.insertAll es).insertAll fs := List.foldl_append

theorem mem_keys_insertAll {es : List (κ × ν)} :
    a ∈ (m.insertAll es).keys ↔ a ∈ m.keys ∨ a ∈ es.map Prod.fst := by
  induction es generalizing m with
  | nil => simp [insertAll]
  | cons e es ih =>
    rw [show m.insertAll (e :: es) = (m.insert e.1 e.2).insertAll es from rfl, ih, mem_keys_iff,
      get?_insert, mem_keys_iff, List.map_cons, List.mem_cons]
    by_cases h : a = e.1 <;> simp [h]

/-- A value in the map afterwards was there before or has been inserted. -/
theorem mem_of_get?_insertAll {es : List (κ × ν)} (h : (m.insertAll es).get? a = some v) :
    (a, v) ∈ es ∨ a ∉ es.map Prod.fst ∧ m.get? a = some v := by
  induction es generalizing m with
  | nil => exact .inr ⟨by simp, h⟩
  | cons e es ih =>
    rcases ih h with h | ⟨hout, h⟩
    · exact .inl (List.mem_cons_of_mem _ h)
    · rw [get?_insert] at h
      by_cases ha : a = e.1
      · rw [if_pos ha] at h
        cases h
        exact .inl (ha ▸ List.mem_cons_self)
      · rw [if_neg ha] at h
        exact .inr ⟨by simp [ha, hout], h⟩

theorem get?_insertAll_of_not_mem {es : List (κ × ν)} (h : a ∉ es.map Prod.fst) :
    (m.insertAll es).get? a = m.get? a := by
  induction es generalizing m with
  | nil => rfl
  | cons e es ih =>
    rw [List.map_cons, List.mem_cons, not_or] at h
    rw [show m.insertAll (e :: es) = (m.insert e.1 e.2).insertAll es from rfl, ih h.2, get?_insert,
      if_neg h.1]

/-- Entries that do not contradict each other are all found, in whatever order they stand. -/
theorem get?_insertAll_of_mem {es : List (κ × ν)} (hes : ∀ w, (a, w) ∈ es → w = v)
    (h : (a, v) ∈ es) : (m.insertAll es).get? a = some v := by
  have hin : a ∈ es.map Prod.fst := List.mem_map_of_mem h
  have hkey : a ∈ (m.insertAll es).keys := mem_keys_insertAll.2 (.inr hin)
  obtain ⟨w, hw⟩ := Option.isSome_iff_exists.1 (mem_keys_iff.1 hkey)
  rcases mem_of_get?_insertAll hw with he | ⟨hout, -⟩
  · rw [hw, hes w he]
  · exact absurd hin hout

theorem put_of_not_mem {es : List (κ × ν)} (h : a ∉ es.map Prod.fst) :
    put a v es = es ++ [(a, v)] := by
  induction es with
  | nil => rfl
  | cons e es ih =>
    rw [List.map_cons, List.mem_cons, not_or] at h
    rw [put, if_neg (Ne.symm h.1), ih h.2]
    rfl

/-- New keys are put behind those that are there. -/
theorem entries_insertAll {es : List (κ × ν)} (h : (m.keys ++ es.map Prod.fst).Nodup) :
    (m.insertAll es).entries = m.entries ++ es := by
  induction es generalizing m with
  | nil => exact (List.append_nil _).symm
  | cons e es ih =>
    have hout : e.1 ∉ m.keys := fun he =>
      (List.nodup_append.1 h).2.2 e.1 he e.1 (List.mem_map_of_mem List.mem_cons_self) rfl
    have hkeys : (m.insert e.1 e.2).keys = m.keys ++ [e.1] := by
      rw [keys_insert, if_neg hout]
    have hentries : (m.insert e.1 e.2).entries = m.entries ++ [e] := put_of_not_mem hout
    rw [show m.insertAll (e :: es) = (m.insert e.1 e.2).insertAll es from rfl, ih, hentries,
      List.append_assoc]
    · rfl
    · rw [hkeys, List.append_assoc]
      exact h

theorem entries_ofList {es : List (κ × ν)} (h : (es.map Prod.fst).Nodup) :
    (ofList es).entries = es := entries_insertAll (m := empty) h

theorem ofList_entries (m : OrderedMap κ ν) : ofList m.entries = m :=
  eq_of_entries (entries_ofList m.nodup_keys)

/-- Mapping the entries of a map changes its values where they stand. -/
theorem get?_ofList_map {β : Type} (m : OrderedMap κ ν) (f : κ → ν → β) (a : κ) :
    (ofList (m.entries.map fun e => (e.1, f e.1 e.2))).get? a = (m.get? a).map (f a) := by
  have hkeys : ((m.entries.map fun e => (e.1, f e.1 e.2)).map Prod.fst).Nodup := by
    rw [List.map_map]
    exact m.nodup_keys
  refine Option.ext fun v => ?_
  rw [← mem_entries_iff, entries_ofList hkeys, List.mem_map, Option.map_eq_some_iff]
  constructor
  · rintro ⟨⟨b, w⟩, he, hv⟩
    cases hv
    exact ⟨w, mem_entries_iff.1 he, rfl⟩
  · rintro ⟨w, hw, rfl⟩
    exact ⟨(a, w), mem_entries_iff.2 hw, rfl⟩

/-! ## Keeping some of the keys -/

theorem filter_put (p : κ → Bool) (a : κ) (v : ν) (es : List (κ × ν)) :
    (put a v es).filter (fun e => p e.1) =
      if p a then put a v (es.filter fun e => p e.1) else es.filter fun e => p e.1 := by
  induction es with
  | nil => cases h : p a <;> simp [put, h]
  | cons e es ih =>
    obtain ⟨b, w⟩ := e
    by_cases hb : b = a
    · subst hb
      cases h : p b <;> simp [put, h]
    · cases h : p b <;> cases ha : p a <;> simp [put, hb, h, ha, ih]

theorem filter_insertAll (p : κ → Bool) (m : OrderedMap κ ν) (es : List (κ × ν)) :
    (m.insertAll es).filter (fun k _ => p k) =
      (m.filter fun k _ => p k).insertAll (es.filter fun e => p e.1) := by
  induction es generalizing m with
  | nil => rfl
  | cons e es ih =>
    have hput : (m.insert e.1 e.2).filter (fun k _ => p k) =
        if p e.1 then (m.filter fun k _ => p k).insert e.1 e.2 else m.filter fun k _ => p k := by
      have h := filter_put p e.1 e.2 m.entries
      split
      · next hp => exact eq_of_entries (h.trans (if_pos hp))
      · next hp => exact eq_of_entries (h.trans (if_neg hp))
    rw [show m.insertAll (e :: es) = (m.insert e.1 e.2).insertAll es from rfl, ih, hput]
    cases h : p e.1
    · rw [List.filter_cons_of_neg (by simp [h])]
      rfl
    · rw [List.filter_cons_of_pos (by simpa using h)]
      rfl

/-- Entries under other keys can be dropped before they are inserted. -/
theorem filter_ofList (p : κ → Bool) (es : List (κ × ν)) :
    (ofList es).filter (fun k _ => p k) = ofList (es.filter fun e => p e.1) :=
  filter_insertAll p empty es

theorem mem_keys_ofList {es : List (κ × ν)} : a ∈ (ofList es).keys ↔ a ∈ es.map Prod.fst :=
  mem_keys_insertAll.trans (by simp [keys, empty])

theorem mem_of_get?_ofList {es : List (κ × ν)} (h : (ofList es).get? a = some v) : (a, v) ∈ es := by
  rcases mem_of_get?_insertAll h with h | ⟨-, h⟩
  · exact h
  · exact absurd h (by simp)

end FeatureRun.OrderedMap
