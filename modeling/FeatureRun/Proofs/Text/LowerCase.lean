import FeatureRun.Text.LowerCase

/-!
# Lower case and signs

A slash has no case and ends every word, so the lower case of a text is that of the parts between
its slashes. More generally, the signs before the small letters are written as they are, and no
letter becomes one of them, so they are found in the lower case where they stand in the text.

* `toList_lower_slash`: the lower case of a text with a slash in it.
* `prefix_lowerFrom_iff`: signs at the start of a text and of its lower case.
-/
set_option autoImplicit false

namespace FeatureRun.Text

theorem isCaseIgnorable_slash : isCaseIgnorable '/' = false := by decide +kernel

theorem isCased_slash : isCased '/' = false := by decide +kernel

/-- A slash hides what stands behind it. -/
theorem nextIsCased_append_slash (x y : List Char) :
    nextIsCased (x ++ '/' :: y) = nextIsCased x := by
  induction x with
  | nil => simp [nextIsCased, isCaseIgnorable_slash, isCased_slash]
  | cons c x ih =>
    simp only [nextIsCased] at ih ⊢
    by_cases hc : isCaseIgnorable c = true
    · simpa [hc] using ih
    · simp [hc]

/-- What stands before a slash does not matter behind it. -/
theorem lowerFrom_append_slash (before old x : List Char) :
    lowerFrom (before ++ '/' :: old) x = lowerFrom before x := by
  induction x generalizing before with
  | nil => rfl
  | cons c x ih =>
    have := ih (c :: before)
    simp only [List.cons_append] at this
    simp only [lowerFrom, nextIsCased_append_slash, this]

theorem lowerFrom_slash (before x y : List Char) :
    lowerFrom before (x ++ '/' :: y) = lowerFrom before x ++ '/' :: lowerFrom [] y := by
  induction x generalizing before with
  | nil =>
    have hslash : lowerChar '/' = '/' := by decide
    have hrest := lowerFrom_append_slash [] before y
    simp only [List.nil_append] at hrest
    simp [lowerFrom, hslash, hrest]
  | cons c x ih => simp only [List.cons_append, lowerFrom, nextIsCased_append_slash, ih,
      List.append_assoc]

theorem toList_lower (s : String) : (lower s).toList = lowerFrom [] s.toList := String.toList_ofList

/-- The lower case of a text with a slash in it. -/
theorem toList_lower_slash (x y : List Char) :
    (lower (String.ofList (x ++ '/' :: y))).toList =
      (lower (String.ofList x)).toList ++ '/' :: (lower (String.ofList y)).toList := by
  simp only [toList_lower, String.toList_ofList]
  exact lowerFrom_slash [] x y

/-! ## Signs -/

/-- A character that is its own lower case. -/
def IsLower (c : Char) : Prop := c ≠ 'İ' ∧ lowerChar c = c

/-- A character before the small letters that is not a capital one. -/
def IsSign (c : Char) : Prop := IsLower c ∧ c.toNat < 0x61

instance (c : Char) : Decidable (IsLower c) := inferInstanceAs (Decidable (_ ∧ _))

instance (c : Char) : Decidable (IsSign c) := inferInstanceAs (Decidable (_ ∧ _))

/-- All letters have lower-case forms among the small letters and behind them. -/
theorem caseRuns_high : ∀ r ∈ caseRuns, 0x61 ≤ r.first + r.shift ∧
    (r.last + r.shift < 0xD800 ∨ 0xDFFF < r.first + r.shift ∧ r.last + r.shift < 0x110000) := by
  decide +kernel

theorem lowerChar_eq_or_high (c : Char) : lowerChar c = c ∨ 0x61 ≤ (lowerChar c).toNat := by
  rw [lowerChar]
  cases hfind : caseRuns.find? (·.mem c.toNat) with
  | none => exact .inl rfl
  | some r =>
    right
    obtain ⟨hlow, hrange⟩ := caseRuns_high r (List.mem_of_find?_eq_some hfind)
    have hmem := List.find?_some hfind
    simp only [CaseRun.mem, Bool.and_eq_true, decide_eq_true_eq] at hmem
    obtain ⟨⟨hfirst, hlast⟩, -⟩ := hmem
    -- the form lies between those of the first and the last letter of the run
    have hvalid : (c.toNat + r.shift).toNat.isValidChar := by
      rw [Nat.isValidChar]
      omega
    have hchar : (Char.ofNat (c.toNat + r.shift).toNat).toNat = (c.toNat + r.shift).toNat := by
      rw [Char.ofNat, dif_pos hvalid]
      rfl
    simp only [hchar]
    omega

variable {before x w : List Char} {c : Char}

/-- The lower case of a letter starts with this letter, or with a small letter or one behind it. -/
theorem exists_lowerFrom_cons (before : List Char) (c : Char) (x : List Char) :
    ∃ e y, lowerFrom before (c :: x) = e :: y ∧
      (e = c ∧ y = lowerFrom (c :: before) x ∨ 0x61 ≤ e.toNat) := by
  rw [lowerFrom]
  split
  · split
    · exact ⟨_, _, rfl, .inr (by decide)⟩
    · exact ⟨_, _, rfl, .inr (by decide)⟩
  split
  · exact ⟨_, _, rfl, .inr (by decide)⟩
  · refine ⟨_, _, rfl, ?_⟩
    rcases lowerChar_eq_or_high c with h | h
    · exact .inl ⟨h, rfl⟩
    · exact .inr h

theorem lower_ne_empty (h : x ≠ []) : lower (String.ofList x) ≠ "" := by
  obtain ⟨c, y, rfl⟩ := List.exists_cons_of_ne_nil h
  obtain ⟨e, z, hcons, -⟩ := exists_lowerFrom_cons [] c y
  intro hempty
  have hnil := congrArg String.toList hempty
  rw [toList_lower, String.toList_ofList, hcons] at hnil
  exact List.cons_ne_nil e z hnil

theorem lowerFrom_cons_lower (hc : IsLower c) (before x : List Char) :
    lowerFrom before (c :: x) = c :: lowerFrom (c :: before) x := by
  have hsigma : c ≠ 'Σ' := by
    rintro rfl
    exact absurd hc.2 (by decide)
  rw [lowerFrom, if_neg hsigma, if_neg hc.1, hc.2]
  rfl

/-- The lower case of what starts in lower case. -/
theorem lowerFrom_append_lower (hw : ∀ d ∈ w, IsLower d) (before x : List Char) :
    lowerFrom before (w ++ x) = w ++ lowerFrom (w.reverse ++ before) x := by
  induction w generalizing before with
  | nil => rfl
  | cons d w ih =>
    obtain ⟨hd, hw⟩ := List.forall_mem_cons.1 hw
    rw [List.cons_append, lowerFrom_cons_lower hd, ih hw, List.reverse_cons, List.append_assoc,
      List.singleton_append, List.cons_append]

/-- The lower case of a text starts with signs if and only if the text does. -/
theorem prefix_lowerFrom_iff (hw : ∀ d ∈ w, IsSign d) : w <+: lowerFrom before x ↔ w <+: x := by
  constructor
  · intro h
    induction w generalizing before x with
    | nil => exact List.nil_prefix
    | cons d w ih =>
      obtain ⟨hd, hw⟩ := List.forall_mem_cons.1 hw
      cases x with
      | nil => exact absurd (List.prefix_nil.1 h) (List.cons_ne_nil d w)
      | cons c x =>
        obtain ⟨e, y, hlower, hcase⟩ := exists_lowerFrom_cons before c x
        rw [hlower, List.cons_prefix_cons] at h
        obtain ⟨rfl, hrest⟩ := h
        rcases hcase with ⟨rfl, rfl⟩ | hhigh
        · exact List.cons_prefix_cons.2 ⟨rfl, ih hw hrest⟩
        · exact absurd hd.2 (by omega)
  · rintro ⟨rest, rfl⟩
    rw [lowerFrom_append_lower fun d hd => (hw d hd).1]
    exact List.prefix_append _ _

end FeatureRun.Text
