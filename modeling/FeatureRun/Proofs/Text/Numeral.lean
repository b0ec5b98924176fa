import FeatureRun.Text.Numeral

/-!
# Numbers written and read again

A whole number is written with decimal digits of ASCII, behind a minus if it is negative, and read
back as itself, as long as it has no more digits than a numeral may have.

* `digitValue`: the value of an ASCII digit.
* `ofDigits_digits`, `takeDigits_digits`: digits and what is read from them.
* `readInt_toString`: the round trip.
* `of_mem_numeral`: the characters that a numeral can hold.
-/
set_option autoImplicit false

namespace FeatureRun.Text

/-- The decimal digits of a number. -/
def digits (n : Nat) : List Char := Nat.toDigits 10 n

/-- The value of a digit of ASCII. -/
def digitValue (c : Char) : Nat := c.toNat - '0'.toNat

theorem isDigit_of_mem_digits {n : Nat} {c : Char} (h : c ∈ digits n) : c.isDigit = true :=
  Nat.isDigit_of_mem_toDigits (by decide) (by decide) h

theorem toNat_of_isDigit {c : Char} (h : c.isDigit = true) : 48 ≤ c.toNat ∧ c.toNat ≤ 57 := by
  simp only [Char.isDigit, Bool.and_eq_true, decide_eq_true_eq] at h
  exact h

theorem digits_ne_nil (n : Nat) : digits n ≠ [] := Nat.toDigits_ne_nil

theorem toList_toString_nat (n : Nat) : (toString (n : Int)).toList = digits n := Nat.toList_repr

theorem toList_toString_negSucc (n : Nat) :
    (toString (Int.negSucc n)).toList = '-' :: digits (n + 1) := by
  rw [Int.toString_eq_repr, Int.repr_eq_if, if_neg (by omega), String.toList_append]
  have : (-Int.negSucc n).toNat = n + 1 := by omega
  rw [this, Nat.toList_repr]
  rfl

/-- A smaller number has no more digits. -/
theorem length_digits_mono {m n : Nat} (h : m ≤ n) : (digits m).length ≤ (digits n).length := by
  have hpos : 0 < (digits n).length := List.length_pos_iff.2 (digits_ne_nil n)
  have hlt := (Nat.length_toDigits_le_iff (by decide) hpos).1 (Nat.le_refl (digits n).length)
  exact (Nat.length_toDigits_le_iff (by decide) hpos).2 (Nat.lt_of_le_of_lt h hlt)

/-- Digits give the number that they were written for. -/
theorem ofDigits_digits (n : Nat) : ofDigits 10 ((digits n).map digitValue) = n := by
  have h : ∀ (cs : List Char) (m : Nat),
      (cs.map digitValue).foldl (fun n d => n * 10 + d) m = Nat.ofDigitChars 10 cs m := by
    intro cs
    induction cs with
    | nil => simp
    | cons c cs ih =>
      intro m
      rw [List.map_cons, List.foldl_cons, ih, Nat.ofDigitChars_cons, Nat.mul_comm]
      rfl
  rw [ofDigits, h]
  exact Nat.ofDigitChars_ten_toDigits

/-- Only zero is written with a leading zero. -/
theorem eq_zero_of_head_digits (n : Nat) (h : (digits n).head? = some '0') : n = 0 := by
  induction n using Nat.strongRecOn with
  | ind n ih =>
    rw [digits, Nat.toDigits_eq_if (by decide)] at h
    split at h
    · rename_i hn
      have := Nat.toNat_digitChar_of_lt_ten hn
      simp_all
    · have hdiv : n / 10 = 0 := by
        refine ih (n / 10) (by omega) ?_
        rw [List.head?_append, Option.or_of_isSome (by simp)] at h
        exact h
      omega

/-! ## Reading -/

theorem decimalDigit?_of_isDigit {c : Char} (h : c.isDigit = true) :
    decimalDigit? c = some (digitValue c) := by
  obtain ⟨hlow, hhigh⟩ := toNat_of_isDigit h
  have hfind : (zeros.find? fun z => z ≤ c.toNat && c.toNat < z + 10) = some 0x30 := by
    rw [zeros, List.find?_cons_of_pos]
    simp only [Bool.and_eq_true, decide_eq_true_eq]
    omega
  rw [decimalDigit?, hfind]
  rfl

theorem isDigit_of_isDigit {c : Char} (h : c.isDigit = true) : isDigit c = true := by
  rw [isDigit, decimalDigit?_of_isDigit h]
  rfl

theorem isNumeralBlank_of_isDigit {c : Char} (h : c.isDigit = true) : isNumeralBlank c = false := by
  obtain ⟨hlow, hhigh⟩ := toNat_of_isDigit h
  have : isBlank c = false := by
    simp only [isBlank, Bool.or_eq_false_iff, Bool.and_eq_false_iff, beq_eq_false_iff_ne,
      decide_eq_false_iff_not]
    omega
  simp [isNumeralBlank, this]

theorem takeDigits_digits {cs : List Char} (h : ∀ c ∈ cs, c.isDigit = true) (gap : Bool)
    (hgap : gap = true → cs ≠ []) : takeDigits 10 gap cs = some (cs.map digitValue, []) := by
  induction cs generalizing gap with
  | nil => cases gap <;> simp_all [takeDigits]
  | cons c cs ih =>
    obtain ⟨hc, hcs⟩ := List.forall_mem_cons.1 h
    rw [takeDigits, digitIn?_ten, decimalDigit?_of_isDigit hc]
    simp only [ih hcs false (by simp)]
    rfl

theorem takeSign_of_isDigit {c : Char} (h : c.isDigit = true) (cs : List Char) :
    takeSign (c :: cs) = (false, c :: cs) := by
  obtain ⟨hlow, hhigh⟩ := toNat_of_isDigit h
  have hminus : c ≠ '-' := by rintro rfl; exact absurd hlow (by decide)
  have hplus : c ≠ '+' := by rintro rfl; exact absurd hlow (by decide)
  unfold takeSign
  split <;> simp_all

theorem dropMark_ten (cs : List Char) : dropMark 10 cs = cs := by
  unfold dropMark
  split
  · simp [baseMark?]
  · rfl

/-- A numeral without blanks is read by its sign and its digits. -/
theorem readInt_of_digits {s : String} {cs : List Char} (negative : Bool)
    (hs : s.toList = (if negative then '-' :: cs else cs)) (h : ∀ c ∈ cs, c.isDigit = true)
    (hne : cs ≠ []) :
    readInt s = if cs.length > maxDigits then .error (.tooLong cs.length)
      else .ok (signed negative (ofDigits 10 (cs.map digitValue))) := by
  have hbody : takeSign (s.toList.dropWhile isNumeralBlank) = (negative, cs) := by
    obtain ⟨c, more, rfl⟩ := List.exists_cons_of_ne_nil hne
    have hc := h c List.mem_cons_self
    cases negative with
    | true =>
      have : isNumeralBlank '-' = false := by decide
      rw [hs, if_pos rfl, List.dropWhile_cons_of_neg (by simp [this])]
      rfl
    | false =>
      rw [hs, if_neg (by simp), List.dropWhile_cons_of_neg (by simp [isNumeralBlank_of_isDigit hc])]
      exact takeSign_of_isDigit hc more
  have hread : takeDigits 10 true cs = some (cs.map digitValue, []) :=
    takeDigits_digits h true fun _ => hne
  rw [readInt, readNumeral, hbody]
  simp only [dropMark_ten, hread, baseMark?, Option.isNone_none, Bool.true_and, List.length_map,
    decide_eq_true_eq, List.all_nil, if_true]

/-- A number that was written is read back, unless it has too many digits. -/
theorem readInt_toString_eq (n : Int) : readInt (toString n) =
    if (digits n.natAbs).length > maxDigits then .error (.tooLong (digits n.natAbs).length)
    else .ok n := by
  cases n with
  | ofNat n =>
    have hread : readInt (toString (n : Int)) = if (digits n).length > maxDigits then
        .error (.tooLong (digits n).length)
        else .ok (signed false (ofDigits 10 ((digits n).map digitValue))) :=
      readInt_of_digits false (toList_toString_nat n) (fun _ => isDigit_of_mem_digits)
        (digits_ne_nil n)
    rwa [ofDigits_digits] at hread
  | negSucc n =>
    rw [readInt_of_digits true (toList_toString_negSucc n) (fun _ => isDigit_of_mem_digits)
      (digits_ne_nil _), ofDigits_digits]
    rfl

/-- A number is read back as it was written, if it does not have too many digits. -/
theorem readInt_toString {n : Int} (hlen : (digits n.natAbs).length ≤ maxDigits) :
    readInt (toString n) = .ok n := by
  rw [readInt_toString_eq, if_neg (Nat.not_lt.2 hlen)]

/-- What is read of a written number is that number. -/
theorem eq_of_readInt_toString {m n : Int} (h : readInt (toString n) = .ok m) : m = n := by
  rw [readInt_toString_eq] at h
  split at h
  · nomatch h
  · exact (Except.ok.inj h).symm

/-- A number is written with digits and a minus. -/
theorem mem_toString {n : Int} {c : Char} (h : c ∈ (toString n).toList) :
    c.isDigit = true ∨ c = '-' := by
  cases n with
  | ofNat n =>
    rw [Int.ofNat_eq_natCast, toList_toString_nat] at h
    exact .inl (isDigit_of_mem_digits h)
  | negSucc n =>
    rw [toList_toString_negSucc] at h
    rcases List.mem_cons.1 h with rfl | h
    · exact .inr rfl
    · exact .inl (isDigit_of_mem_digits h)

/-- Different numbers are written differently. -/
theorem eq_of_toString_eq {m n : Int} (h : toString m = toString n) : m = n := by
  have hlist := congrArg String.toList h
  have hdigits : ∀ a b : Nat, digits a = digits b → a = b := fun a b hab => by
    rw [← ofDigits_digits a, hab, ofDigits_digits]
  have hminus : ∀ (a : Nat) (cs : List Char), digits a ≠ '-' :: cs := fun a cs hcs =>
    absurd (isDigit_of_mem_digits (hcs ▸ List.mem_cons_self)) (by decide)
  match m, n with
  | .ofNat a, .ofNat b =>
    rw [Int.ofNat_eq_natCast, Int.ofNat_eq_natCast, toList_toString_nat,
      toList_toString_nat] at hlist
    rw [hdigits a b hlist]
  | .negSucc a, .negSucc b =>
    rw [toList_toString_negSucc, toList_toString_negSucc] at hlist
    exact congrArg Int.negSucc (Nat.succ.inj (hdigits _ _ (List.cons.inj hlist).2))
  | .ofNat a, .negSucc b =>
    rw [Int.ofNat_eq_natCast, toList_toString_nat, toList_toString_negSucc] at hlist
    exact absurd hlist (hminus a _)
  | .negSucc a, .ofNat b =>
    rw [Int.ofNat_eq_natCast, toList_toString_nat, toList_toString_negSucc] at hlist
    exact absurd hlist.symm (hminus b _)

/-! ## What a numeral can hold -/

theorem mem_takeSign {cs : List Char} {c : Char} (h : c ∈ cs) :
    c ∈ ['-', '+'] ∨ c ∈ (takeSign cs).2 := by
  unfold takeSign
  split
  · exact (List.mem_cons.1 h).imp_left fun hc => by rw [hc]; decide
  · exact (List.mem_cons.1 h).imp_left fun hc => by rw [hc]; decide
  · exact .inr h

theorem of_mem_takeDigits {cs rest : List Char} {gap : Bool} {ds : List Nat} {c : Char}
    (h : takeDigits 10 gap cs = some (ds, rest)) (hc : c ∈ cs) :
    (decimalDigit? c).isSome = true ∨ c = '_' ∨ c ∈ rest := by
  induction cs generalizing gap ds with
  | nil => nomatch hc
  | cons d cs ih =>
    rw [takeDigits, digitIn?_ten] at h
    cases hd : decimalDigit? d with
    | some n =>
      rw [hd] at h
      obtain ⟨⟨es, more⟩, htail, he⟩ := Option.map_eq_some_iff.1 h
      cases he
      rcases List.mem_cons.1 hc with rfl | hc
      · exact .inl (by rw [hd]; rfl)
      · exact ih htail hc
    | none =>
      simp only [hd] at h
      split at h
      · nomatch h
      · split at h
        · rename_i hunderscore
          exact (List.mem_cons.1 hc).elim (fun he => .inr (.inl (he.trans hunderscore))) (ih h)
        · cases h
          exact .inr (.inr hc)

/-- A numeral holds nothing but digits, underscores, a sign, and blanks around them. -/
theorem of_mem_numeral {s : String} {n : Int} {c : Char} (h : readInt s = .ok n)
    (hc : c ∈ s.toList) :
    (decimalDigit? c).isSome = true ∨ isNumeralBlank c = true ∨ c ∈ ['-', '+', '_'] := by
  rw [← List.takeWhile_append_dropWhile (p := isNumeralBlank) (l := s.toList),
    List.mem_append] at hc
  rcases hc with hblank | hc
  · exact .inr (.inl (List.all_eq_true.1 List.all_takeWhile c hblank))
  rw [readInt, readNumeral] at h
  simp only [dropMark_ten] at h
  split at h
  · nomatch h
  · rename_i ds rest hdigits
    split at h
    · nomatch h
    · split at h
      · rename_i hblanks
        rcases mem_takeSign hc with hsign | hbody
        · exact .inr (.inr (List.mem_append_left ['_'] hsign))
        · rcases of_mem_takeDigits hdigits hbody with hdigit | rfl | hrest
          · exact .inl hdigit
          · exact .inr (.inr (by decide))
          · exact .inr (.inl (List.all_eq_true.1 hblanks c hrest))
      · nomatch h

end FeatureRun.Text
