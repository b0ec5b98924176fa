import FeatureRun.Text.Search

/-!
# Where a word stands in a text

`cutFirst?` and `cutLast?` fail exactly if the word stands nowhere in the text, and find the word
where it has been put, if it cannot stand further out.
-/
set_option autoImplicit false

namespace FeatureRun.Text

theorem afterPrefix?_append (w rest : List Char) : afterPrefix? w (w ++ rest) = some rest :=
  afterPrefix?_eq_some_iff.2 rfl

theorem afterPrefix?_eq_none_iff {w cs : List Char} : afterPrefix? w cs = none ↔ ¬w <+: cs := by
  rw [Option.eq_none_iff_forall_ne_some]
  constructor
  · rintro h ⟨rest, rfl⟩
    exact h rest (afterPrefix?_append w rest)
  · rintro h rest hrest
    exact h ⟨rest, (afterPrefix?_eq_some_iff.1 hrest).symm⟩

theorem afterPrefix?_cons_ne {a c : Char} (h : a ≠ c) (w cs : List Char) :
    afterPrefix? (a :: w) (c :: cs) = none := by
  simp [afterPrefix?, h]

theorem cutFirst?_eq_none_iff {w cs : List Char} : cutFirst? w cs = none ↔ ¬w <:+: cs := by
  induction cs with
  | nil => cases w <;> simp [cutFirst?]
  | cons c cs ih =>
    rw [List.infix_cons_iff, not_or, cutFirst?, ← ih, ← afterPrefix?_eq_none_iff]
    cases afterPrefix? w (c :: cs) <;> simp

theorem cutLast?_eq_none_iff {w cs : List Char} : cutLast? w cs = none ↔ ¬w <:+: cs := by
  induction cs with
  | nil => cases w <;> simp [cutLast?]
  | cons c cs ih =>
    rw [List.infix_cons_iff, not_or, cutLast?, ← ih, ← afterPrefix?_eq_none_iff]
    cases cutLast? w cs <;> simp

/-- The first occurrence is found behind a text without the first letter of the word. -/
theorem cutFirst?_append {c : Char} {a : List Char} (h : c ∉ a) (w b : List Char) :
    cutFirst? (c :: w) (a ++ (c :: w) ++ b) = some (a, b) := by
  induction a with
  | nil =>
    have := afterPrefix?_append (c :: w) b
    simp_all [cutFirst?]
  | cons d a ih =>
    have hd : c ≠ d := fun h' => h (h' ▸ List.mem_cons_self)
    have ha : c ∉ a := fun h' => h (List.mem_cons_of_mem _ h')
    simp only [List.cons_append, cutFirst?, afterPrefix?_cons_ne hd]
    rw [ih ha]
    rfl

theorem cutLast?_cons_of_some {w cs a b : List Char} (h : cutLast? w cs = some (a, b)) (c : Char) :
    cutLast? w (c :: cs) = some (c :: a, b) := by
  simp [cutLast?, h]

theorem cutLast?_cons_of_none {w cs : List Char} (h : cutLast? w cs = none) (c : Char) :
    cutLast? w (c :: cs) = (afterPrefix? w (c :: cs)).map fun rest => ([], rest) := by
  simp [cutLast?, h]

/-- The last occurrence is found if none begins behind its first letter. -/
theorem cutLast?_append_of_not_infix {c : Char} {w b : List Char} (h : ¬c :: w <:+: w ++ b)
    (a : List Char) : cutLast? (c :: w) (a ++ (c :: w) ++ b) = some (a, b) := by
  induction a with
  | nil =>
    rw [List.nil_append, List.cons_append, cutLast?_cons_of_none (cutLast?_eq_none_iff.2 h),
      ← List.cons_append, afterPrefix?_append]
    rfl
  | cons x a ih => exact cutLast?_cons_of_some ih x

/-- The last occurrence is found before a text without the second letter of the word. -/
theorem cutLast?_append {c d : Char} {w b : List Char} (hd : d ∉ w ++ b) (hc : c ≠ d)
    (a : List Char) : cutLast? (c :: d :: w) (a ++ (c :: d :: w) ++ b) = some (a, b) := by
  refine cutLast?_append_of_not_infix (fun h => ?_) a
  have hrest : ¬c :: d :: w <:+: w ++ b := fun h =>
    hd (h.subset (List.mem_cons_of_mem _ List.mem_cons_self))
  rw [List.cons_append, List.infix_cons_iff, List.cons_prefix_cons] at h
  exact h.elim (fun h => hc h.1) hrest

/-- A single letter is found before a text without it. -/
theorem cutLast?_append_letter {c : Char} {b : List Char} (h : c ∉ b) (a : List Char) :
    cutLast? [c] (a ++ [c] ++ b) = some (a, b) :=
  cutLast?_append_of_not_infix (fun hc => h (hc.subset List.mem_cons_self)) a

/-- A word that stands across a seam begins before it and ends behind it. -/
theorem not_infix_append {w x y : List Char} (hx : ¬w <:+: x) (hy : ¬w <:+: y)
    (hseam : ∀ u v, w = u ++ v → v ≠ [] → u <:+ x → ¬v <+: y) : ¬w <:+: x ++ y := by
  rw [List.infix_append_iff]
  rintro (h | h | ⟨u, v, rfl, hu, hv⟩)
  · exact hx h
  · exact hy h
  · refine hseam u v rfl ?_ hu hv
    rintro rfl
    exact hx ((List.append_nil u).symm ▸ hu.isInfix)

/-! ## Strings -/

theorem eq_of_splitFirst? {w s a b : String} (h : splitFirst? w s = some (a, b)) :
    s = a ++ w ++ b := by
  obtain ⟨⟨before, after⟩, hcut, he⟩ := Option.map_eq_some_iff.1 h
  obtain ⟨rfl, rfl⟩ := Prod.mk.inj he
  rw [← String.toList_inj, eq_of_cutFirst? hcut]
  simp only [String.toList_append, String.toList_ofList]

theorem eq_of_splitLast? {w s a b : String} (h : splitLast? w s = some (a, b)) :
    s = a ++ w ++ b := by
  obtain ⟨⟨before, after⟩, hcut, he⟩ := Option.map_eq_some_iff.1 h
  obtain ⟨rfl, rfl⟩ := Prod.mk.inj he
  rw [← String.toList_inj, eq_of_cutLast? hcut]
  simp only [String.toList_append, String.toList_ofList]

end FeatureRun.Text
