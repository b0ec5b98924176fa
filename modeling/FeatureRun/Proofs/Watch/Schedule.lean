import FeatureRun.Proofs.OrderedMap
import FeatureRun.Watch.Schedule

/-!
# Which keys are pending

Each operation on a schedule said by the keys that are pending after it. Nothing is assumed about
the order of times: a deadline that cannot be compared with the time of day has not passed.
-/
set_option autoImplicit false

namespace FeatureRun.Schedule

variable {s : Schedule} {clock now deadline : Float} {key k : String}

theorem mem_pending_iff : k ∈ s.pending ↔ (s.deadlines.get? k).isSome = true :=
  OrderedMap.mem_keys_iff

theorem entries_add (s : Schedule) (clock : Float) (key : String) :
    (s.add clock key).deadlines.entries =
      s.deadlines.entries.filter (·.1 ≠ key) ++ [(key, clock + s.delay)] := by
  apply OrderedMap.put_of_not_mem
  simp [OrderedMap.erase]

theorem get?_add (s : Schedule) (clock : Float) (key k : String) :
    (s.add clock key).deadlines.get? k =
      if k = key then some (clock + s.delay) else s.deadlines.get? k := by
  rw [add, OrderedMap.get?_insert, OrderedMap.get?_erase]
  by_cases hk : k = key <;> simp [hk]

theorem get?_cancel (s : Schedule) (key k : String) :
    (s.cancel key).deadlines.get? k = if k = key then none else s.deadlines.get? k :=
  OrderedMap.get?_erase s.deadlines key k

/-- Scheduling a key twice at one time is scheduling it once. -/
theorem add_add (s : Schedule) (clock : Float) (key : String) :
    (s.add clock key).add clock key = s.add clock key := by
  have hentries : ((s.add clock key).add clock key).deadlines.entries =
      (s.add clock key).deadlines.entries := by
    rw [entries_add, entries_add, List.filter_append, List.filter_filter]
    simp [add]
  simp only [add, OrderedMap.insert, Schedule.mk.injEq, OrderedMap.mk.injEq, true_and] at hentries ⊢
  exact hentries

theorem mem_pending_add : k ∈ (s.add clock key).pending ↔ k = key ∨ k ∈ s.pending := by
  rw [mem_pending_iff, mem_pending_iff, add, OrderedMap.get?_insert, OrderedMap.get?_erase]
  by_cases hk : k = key <;> simp [hk]

theorem mem_pending_cancel : k ∈ (s.cancel key).pending ↔ k ≠ key ∧ k ∈ s.pending := by
  rw [mem_pending_iff, mem_pending_iff, cancel, OrderedMap.get?_erase]
  by_cases hk : k = key <;> simp [hk]

theorem mem_due_iff :
    k ∈ s.due now ↔ ∃ deadline, s.deadlines.get? k = some deadline ∧ deadline ≤ now := by
  simp only [due, List.mem_map, List.mem_filter, decide_eq_true_eq, ← OrderedMap.mem_entries_iff]
  constructor
  · rintro ⟨⟨k, deadline⟩, ⟨hmem, hle⟩, rfl⟩
    exact ⟨deadline, hmem, hle⟩
  · rintro ⟨deadline, hmem, hle⟩
    exact ⟨(k, deadline), ⟨hmem, hle⟩, rfl⟩

theorem mem_pending_of_due (h : k ∈ s.due now) : k ∈ s.pending := by
  obtain ⟨deadline, hget, -⟩ := mem_due_iff.1 h
  exact mem_pending_iff.2 (Option.isSome_of_eq_some hget)

theorem mem_pending_of_dropDue (h : k ∈ (s.dropDue now).pending) : k ∈ s.pending := by
  obtain ⟨entry, hentry, rfl⟩ := List.mem_map.1 h
  exact List.mem_map_of_mem (List.mem_filter.1 hentry).1

/-- A key stays pending until it is due. -/
theorem mem_pending_dropDue (h : k ∈ s.pending) (hdue : k ∉ s.due now) :
    k ∈ (s.dropDue now).pending := by
  obtain ⟨deadline, hget⟩ := Option.isSome_iff_exists.1 (mem_pending_iff.1 h)
  have hlate : ¬deadline ≤ now := fun hle => hdue (mem_due_iff.2 ⟨deadline, hget, hle⟩)
  refine List.mem_map.2 ⟨(k, deadline), List.mem_filter.2 ⟨?_, ?_⟩, rfl⟩
  · exact OrderedMap.mem_entries_iff.2 hget
  · simp [hlate]

end FeatureRun.Schedule
