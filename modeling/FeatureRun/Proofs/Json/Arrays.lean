import FeatureRun.Json.Reader
import FeatureRun.Proofs.Except

/-!
# Texts of arrays

A text that is read as an array holds an opening bracket, since nothing else starts an array.
-/
set_option autoImplicit false

namespace FeatureRun.Json

variable {limits : Limits} {cs rest : List Char} {vs : List Json}

theorem number_ne_arr : number limits cs ≠ .ok (.arr vs, rest) := by
  unfold number
  dsimp only
  split
  · nofun
  · split
    · split <;> nofun
    · nofun
    · nofun

/-- No word and no number is an array. -/
theorem atom_ne_arr : atom limits cs ≠ .ok (.arr vs, rest) := by
  rw [atom]
  split
  · rename_i r hword
    obtain ⟨⟨w, v⟩, hmem, hr⟩ := List.exists_of_findSome?_eq_some hword
    obtain ⟨more, -, rfl⟩ := Option.map_eq_some_iff.1 hr
    rintro ⟨⟩
    simp [words] at hmem
  · exact number_ne_arr

theorem head?_of_value_arr {fuel : Nat} (h : value limits fuel cs = .ok (.arr vs, rest)) :
    cs.head? = some '[' := by
  unfold value at h
  split at h
  · nomatch h
  · obtain ⟨⟨s, more⟩, -, heq⟩ := exists_of_map_ok h
    nomatch heq
  · rfl
  · split at h
    · nomatch h
    · nomatch h
    · obtain ⟨⟨fs, more⟩, -, heq⟩ := exists_of_map_ok h
      nomatch heq
  · exact absurd h atom_ne_arr

theorem skipSpace_isSuffix (cs : List Char) : skipSpace cs <:+ cs := List.dropWhile_suffix isSpace

/-- A text that is read as an array holds an opening bracket. -/
theorem mem_of_read_arr {levels : Nat} {s : String} (h : read levels s = .ok (.arr vs)) :
    '[' ∈ s.toList := by
  have hdocument := mapError_eq_ok_iff.1 h
  unfold document at hdocument
  split at hdocument
  · nomatch hdocument
  · split at hdocument
    · nomatch hdocument
    · rename_i hvalue
      split at hdocument
      · obtain rfl := Except.ok.inj hdocument
        obtain ⟨more, hmore⟩ := List.head?_eq_some_iff.1 (head?_of_value_arr hvalue)
        exact (skipSpace_isSuffix _).subset (hmore ▸ List.mem_cons_self)
      · nomatch hdocument

/-- So a text of blanks is no array. -/
theorem isAllBlank_of_read_arr {levels : Nat} {s : String} (h : read levels s = .ok (.arr vs)) :
    Text.isAllBlank s = false := by
  refine Bool.eq_false_iff.2 fun hblank => ?_
  have := List.all_eq_true.1 hblank _ (mem_of_read_arr h)
  exact absurd this (by decide)

end FeatureRun.Json
