/-!
# Results that are mapped

Mapping the value or the error of a result neither makes it succeed nor fail, and a list is mapped
if each of its elements is.
-/
set_option autoImplicit false

namespace FeatureRun

variable {ε ε' α β : Type}

theorem exists_of_map_ok {g : α → β} {r : Except ε α} {b : β} (h : r.map g = .ok b) :
    ∃ a, r = .ok a ∧ g a = b := by
  cases r with
  | error e => nomatch h
  | ok a => exact ⟨a, rfl, Except.ok.inj h⟩

theorem error_of_map_error {g : α → β} {r : Except ε α} {e : ε} (h : r.map g = .error e) :
    r = .error e := by
  cases r with
  | error e' => exact congrArg _ (Except.error.inj h)
  | ok a => nomatch h

theorem mapError_eq_ok_iff {g : ε → ε'} {r : Except ε α} {a : α} :
    r.mapError g = .ok a ↔ r = .ok a := by
  cases r with
  | error e => exact ⟨nofun, nofun⟩
  | ok b => exact ⟨fun h => congrArg _ (Except.ok.inj h), fun h => congrArg _ (Except.ok.inj h)⟩

theorem toOption_eq_some_iff {r : Except ε α} {a : α} : r.toOption = some a ↔ r = .ok a := by
  cases r <;> simp [Except.toOption]

theorem exists_of_bind_ok {r : Except ε α} {next : α → Except ε β} {b : β}
    (h : (r >>= next) = .ok b) : ∃ a, r = .ok a ∧ next a = .ok b := by
  cases r with
  | error e => nomatch h
  | ok a => exact ⟨a, rfl, h⟩

/-- If not all of a list can be mapped, one of it cannot. -/
theorem exists_of_mapM_error {f : α → Except ε β} {xs : List α} {e : ε}
    (h : xs.mapM f = .error e) : ∃ x ∈ xs, f x = .error e := by
  induction xs with
  | nil => nomatch h
  | cons x xs ih =>
    rw [List.mapM_cons] at h
    cases hx : f x with
    | error e' =>
      rw [hx] at h
      cases h
      exact ⟨x, List.mem_cons_self, hx⟩
    | ok b =>
      rw [hx] at h
      cases hxs : xs.mapM f with
      | error e' =>
        rw [hxs] at h
        cases h
        obtain ⟨y, hy, hfy⟩ := ih hxs
        exact ⟨y, List.mem_cons_of_mem x hy, hfy⟩
      | ok bs =>
        rw [hxs] at h
        nomatch h

/-- What a list has been mapped to is what its elements are mapped to. -/
theorem of_mapM_ok {f : α → Except ε β} {xs : List α} {ys : List β} (h : xs.mapM f = .ok ys) :
    (∀ x ∈ xs, ∃ y ∈ ys, f x = .ok y) ∧ ∀ y ∈ ys, ∃ x ∈ xs, f x = .ok y := by
  induction xs generalizing ys with
  | nil =>
    cases h
    exact ⟨nofun, nofun⟩
  | cons x xs ih =>
    rw [List.mapM_cons] at h
    obtain ⟨b, hx, h⟩ := exists_of_bind_ok h
    obtain ⟨bs, hxs, h⟩ := exists_of_bind_ok h
    cases h
    obtain ⟨hto, hfrom⟩ := ih hxs
    constructor
    · refine List.forall_mem_cons.2 ⟨⟨b, List.mem_cons_self, hx⟩, fun z hz => ?_⟩
      obtain ⟨y, hy, hfy⟩ := hto z hz
      exact ⟨y, List.mem_cons_of_mem b hy, hfy⟩
    · refine List.forall_mem_cons.2 ⟨⟨x, List.mem_cons_self, hx⟩, fun y hy => ?_⟩
      obtain ⟨z, hz, hfz⟩ := hfrom y hy
      exact ⟨z, List.mem_cons_of_mem x hz, hfz⟩

end FeatureRun
