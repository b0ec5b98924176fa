import FeatureRun.Proofs.Text.Numeral
import FeatureRun.Text.Blank
import FeatureRun.Text.Encoded

/-!
# Texts without halves

A text without halves of surrogate pairs can be encoded. Putting such texts together, trimming them
and writing numbers gives such texts again.
-/
set_option autoImplicit false

namespace FeatureRun.Text

/-- No character of it is a half. -/
def areWhole (cs : List Char) : Bool := cs.all fun c => !isHalf c

/-- `areWhole` on strings. -/
def isWhole (s : String) : Bool := areWhole s.toList

variable {s t : String} {c : Char} {as bs : List Char}

theorem areWhole_iff : areWhole as = true ↔ ∀ c ∈ as, isHalf c = false := by
  simp [areWhole]

theorem encodeFault?_eq_none_iff_isWhole : encodeFault? s = none ↔ isWhole s = true := by
  rw [encodeFault?_eq_none_iff, isWhole, areWhole_iff]

@[simp] theorem areWhole_nil : areWhole [] = true := rfl

@[simp] theorem areWhole_cons : areWhole (c :: as) = (!isHalf c && areWhole as) := rfl

@[simp] theorem areWhole_append : areWhole (as ++ bs) = (areWhole as && areWhole bs) :=
  List.all_append

@[simp] theorem isWhole_append : isWhole (s ++ t) = (isWhole s && isWhole t) := by
  rw [isWhole, String.toList_append, areWhole_append]
  rfl

@[simp] theorem isWhole_ofList : isWhole (String.ofList as) = areWhole as := by
  rw [isWhole, String.toList_ofList]

/-- A part of a text has no other characters. -/
theorem areWhole_of_subset (h : as ⊆ bs) (hbs : areWhole bs = true) : areWhole as = true :=
  areWhole_iff.2 fun c hc => areWhole_iff.1 hbs c (h hc)

theorem isWhole_trimmed (h : isWhole s = true) : isWhole (trimmed s) = true := by
  rw [trimmed, isWhole_ofList]
  exact areWhole_of_subset (trim_isInfix s.toList).subset h

/-- The stand-ins of halves lie behind all other characters that are in use. -/
theorem isHalf_of_lt (h : c.toNat < 0x10D800) : isHalf c = false := by
  have hrange :
      ¬(surrogates.1 ≤ c.toNat - standInShift ∧ c.toNat - standInShift ≤ surrogates.2) := by
    simp only [surrogates, standInShift]
    omega
  rw [isHalf, halfOf?, if_neg hrange]
  rfl

theorem isHalf_of_isDigit (h : c.isDigit = true) : isHalf c = false := by
  have := (toNat_of_isDigit h).2
  exact isHalf_of_lt (by omega)

@[simp] theorem isWhole_toString (n : Int) : isWhole (toString n) = true := by
  refine areWhole_iff.2 fun c hc => ?_
  rcases mem_toString hc with h | rfl
  · exact isHalf_of_isDigit h
  · decide

end FeatureRun.Text
