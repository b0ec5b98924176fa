import FeatureRun.Text.Lines

/-!
# Pieces of joined text

Cutting and joining undo each other, for pieces that do not hold the separator, and cutting at a
separator cuts the two sides of it. The pieces of a text are the last pieces of another one if it is
that text or its end behind a separator.
-/
set_option autoImplicit false

namespace FeatureRun.Text

variable {sep : Char} {p x y s l : List Char} {ps qs : List (List Char)}

theorem not_mem_of_mem_pieces (h : p ∈ pieces sep x) : sep ∉ p := by
  induction x generalizing p with
  | nil => simp_all [pieces]
  | cons c x ih =>
    rw [pieces] at h
    split at h
    · rcases List.mem_cons.1 h with rfl | h
      · simp
      · exact ih h
    · rename_i hc
      split at h
      · rename_i hnil
        exact absurd hnil (pieces_ne_nil sep x)
      · rename_i q qs hq
        rcases List.mem_cons.1 h with rfl | h
        · have := ih (hq ▸ List.mem_cons_self)
          exact fun hmem => (List.mem_cons.1 hmem).elim (fun he => hc he.symm) this
        · exact ih (hq ▸ List.mem_cons_of_mem _ h)

theorem pieces_cons_of_ne {c : Char} (hc : c ≠ sep) (h : pieces sep x = p :: ps) :
    pieces sep (c :: x) = (c :: p) :: ps := by
  simp [pieces, hc, h]

theorem pieces_append_sep (x y : List Char) :
    pieces sep (x ++ sep :: y) = pieces sep x ++ pieces sep y := by
  induction x with
  | nil => simp [pieces]
  | cons c x ih =>
    by_cases hc : c = sep
    · simp [pieces, hc, ih]
    · obtain ⟨p, ps, hp⟩ := List.exists_cons_of_ne_nil (pieces_ne_nil sep x)
      rw [hp, List.cons_append] at ih
      rw [List.cons_append, pieces_cons_of_ne hc ih, pieces_cons_of_ne hc hp]
      rfl

theorem pieces_of_not_mem (h : sep ∉ x) : pieces sep x = [x] := by
  induction x with
  | nil => rfl
  | cons c x ih =>
    have hc : c ≠ sep := fun he => h (he ▸ List.mem_cons_self)
    exact pieces_cons_of_ne hc (ih fun hx => h (List.mem_cons_of_mem _ hx))

theorem joined_append (hps : ps ≠ []) (hqs : qs ≠ []) :
    joined [sep] (ps ++ qs) = joined [sep] ps ++ sep :: joined [sep] qs := by
  induction ps with
  | nil => exact absurd rfl hps
  | cons p ps ih =>
    cases ps with
    | nil =>
      rw [List.singleton_append, joined_cons hqs]
      simp [joined]
    | cons q ps =>
      have hq : q :: ps ≠ [] := List.cons_ne_nil q ps
      have hall : q :: ps ++ qs ≠ [] := List.cons_ne_nil q (ps ++ qs)
      rw [List.cons_append, joined_cons hall, ih hq, joined_cons hq, List.append_assoc,
        List.append_assoc, List.append_assoc]

/-- Pieces without the separator come back when they are joined and cut. -/
theorem pieces_joined (h : ∀ p ∈ ps, sep ∉ p) (hne : ps ≠ []) :
    pieces sep (joined [sep] ps) = ps := by
  induction ps with
  | nil => exact absurd rfl hne
  | cons p ps ih =>
    obtain ⟨hp, hps⟩ := List.forall_mem_cons.1 h
    cases ps with
    | nil => exact pieces_of_not_mem hp
    | cons q ps =>
      rw [joined_cons (by simp), List.append_assoc, List.singleton_append, pieces_append_sep,
        pieces_of_not_mem hp, ih hps (by simp)]
      rfl

/-- The pieces of a text are the last ones of another text if it stands at its end, as a whole or
behind a separator. -/
theorem pieces_suffix_iff : pieces sep s <:+ pieces sep l ↔ s = l ∨ sep :: s <:+ l := by
  constructor
  · rintro ⟨ps, hps⟩
    by_cases hnil : ps = []
    · subst hnil
      rw [List.nil_append] at hps
      exact .inl (by rw [← joined_pieces sep s, hps, joined_pieces])
    · refine .inr ⟨joined [sep] ps, ?_⟩
      have hjoined : joined [sep] (ps ++ pieces sep s) =
          joined [sep] ps ++ sep :: joined [sep] (pieces sep s) :=
        joined_append hnil (pieces_ne_nil sep s)
      rw [hps, joined_pieces, joined_pieces] at hjoined
      exact hjoined.symm
  · rintro (rfl | ⟨t, rfl⟩)
    · exact List.suffix_rfl
    · exact ⟨pieces sep t, (pieces_append_sep t s).symm⟩

/-! ## Strings -/

theorem toList_join (c : Char) (ss : List String) :
    (join (String.singleton c) ss).toList = joined [c] (ss.map String.toList) := by
  induction ss with
  | nil => rfl
  | cons s ss ih =>
    cases ss with
    | nil => simp [join, joined]
    | cons t ss =>
      rw [join, String.intercalate_cons_cons, List.map_cons, joined_cons (by simp), ← ih]
      simp [join]

/-- Strings without a character come back when they are joined and split at it. -/
theorem split_join (c : Char) {ss : List String} (h : ∀ s ∈ ss, c ∉ s.toList) (hne : ss ≠ []) :
    split c (join (String.singleton c) ss) = ss := by
  have hpieces : ∀ cs ∈ ss.map String.toList, c ∉ cs := by
    intro cs hcs
    obtain ⟨s, hs, rfl⟩ := List.mem_map.1 hcs
    exact h s hs
  rw [split, toList_join, pieces_joined hpieces (by simpa using hne), List.map_map]
  simp [Function.comp_def]

end FeatureRun.Text
