import FeatureRun.Text.Utf8

/-!
# Reading back what was written in UTF-8

A text is read from its bytes as it was written. The bounds on the second byte of a character leave
out only what no character is written as, so each leading byte is followed by what it announces.

* `first_encodeChar`: the bytes of one character.
* `decode_encode`: a text is read as it was written.
* `decodeLossy_flatMap`: nothing of it is replaced.
-/
set_option autoImplicit false

namespace FeatureRun.Text.Utf8

/-! ## One character -/

/-- A character of ASCII is one byte. -/
theorem encodeChar_of_ascii {c : Char} (h : c.toNat < 0x80) :
    String.utf8EncodeChar c = [UInt8.ofNat c.toNat] := by
  have hval : c.val.toNat ≤ 0x7f := Nat.le_of_lt_succ h
  simp only [String.utf8EncodeChar, if_pos hval]
  rfl

/-- The leading byte of two. -/
theorem lead?_of_two {h : Nat} (hlow : 2 ≤ h) (hhigh : h < 32) :
    lead? (h + 0xC0) = some ⟨1, 0x80, 0xBF, h⟩ := by
  rw [lead?, if_pos (by omega), Nat.add_sub_cancel]

/-- The leading byte of three. The bounds leave out what two bytes can hold, and the surrogates. -/
theorem lead?_of_three {h m : Nat} (hh : h < 16) (hm : m < 64) (hlong : 32 ≤ h * 64 + m)
    (hsurrogate : h * 64 + m < 0x360 ∨ 0x380 ≤ h * 64 + m) :
    ∃ low high, lead? (h + 0xE0) = some ⟨2, low, high, h⟩ ∧
      low ≤ m + 0x80 ∧ m + 0x80 ≤ high := by
  rw [lead?, if_neg (by omega)]
  by_cases hfirst : h = 0
  · subst hfirst
    exact ⟨0xA0, 0xBF, rfl, by omega, by omega⟩
  rw [if_neg (by omega)]
  by_cases hlast : h = 0xD
  · subst hlast
    exact ⟨0x80, 0x9F, rfl, by omega, by omega⟩
  rw [if_neg (by omega), if_pos (by omega), Nat.add_sub_cancel]
  exact ⟨0x80, 0xBF, rfl, by omega, by omega⟩

/-- The leading byte of four. The bounds leave out what three bytes can hold, and what lies past the
last code point. -/
theorem lead?_of_four {h m : Nat} (hm : m < 64) (hlong : 16 ≤ h * 64 + m)
    (hlast : h * 64 + m < 0x110) :
    ∃ low high, lead? (h + 0xF0) = some ⟨3, low, high, h⟩ ∧
      low ≤ m + 0x80 ∧ m + 0x80 ≤ high := by
  rw [lead?, if_neg (by omega), if_neg (by omega), if_neg (by omega), if_neg (by omega)]
  by_cases hfirst : h = 0
  · subst hfirst
    exact ⟨0x90, 0xBF, rfl, by omega, by omega⟩
  rw [if_neg (by omega)]
  by_cases hfour : h = 4
  · subst hfour
    exact ⟨0x80, 0x8F, rfl, by omega, by omega⟩
  rw [if_pos (by omega), Nat.add_sub_cancel]
  exact ⟨0x80, 0xBF, rfl, by omega, by omega⟩

/-- A byte of less than 128 is a character of its own. -/
theorem first_of_one {n : Nat} (hn : n < 0x80) (rest : List UInt8) :
    first (UInt8.ofNat n) rest = (0, .ok (Char.ofNat n)) := by
  have hbyte : (UInt8.ofNat n).toNat = n := UInt8.toNat_ofNat_of_lt' (Nat.lt_trans hn (by decide))
  rw [first, hbyte, if_pos hn]

/-- What a leading byte announces is what follows. -/
theorem first_of_lead {b : Nat} {l : Lead} (hlow : 0x80 ≤ b) (hhigh : b < 0x100)
    (hl : lead? b = some l) (rest : List UInt8) :
    first (UInt8.ofNat b) rest = follow l.tails l.low l.high l.bits rest := by
  have hbyte : (UInt8.ofNat b).toNat = b := UInt8.toNat_ofNat_of_lt' hhigh
  rw [first, hbyte, if_neg (by omega), hl]

/-- A byte between the bounds is taken. -/
theorem follow_cons {n low high bits m k : Nat} {rest : List UInt8} {r : Except Reason Char}
    (hm : m < 64) (hlow : low ≤ m + 0x80) (hhigh : m + 0x80 ≤ high)
    (h : follow n 0x80 0xBF (bits * 64 + m) rest = (k, r)) :
    follow (n + 1) low high bits (UInt8.ofNat (m + 0x80) :: rest) = (k + 1, r) := by
  have hbyte : (UInt8.ofNat (m + 0x80)).toNat = m + 0x80 :=
    UInt8.toNat_ofNat_of_lt' (show m + 0x80 < 0x100 by omega)
  rw [follow, hbyte, if_pos ⟨hlow, hhigh⟩, Nat.add_sub_cancel, h]

/-- A byte that goes on with a character has any six bits. -/
theorem follow_tail {n bits m k : Nat} {rest : List UInt8} {r : Except Reason Char} (hm : m < 64)
    (h : follow n 0x80 0xBF (bits * 64 + m) rest = (k, r)) :
    follow (n + 1) 0x80 0xBF bits (UInt8.ofNat (m + 0x80) :: rest) = (k + 1, r) :=
  follow_cons hm (by omega) (by omega) h

theorem first_of_two {h m : Nat} (hlow : 2 ≤ h) (hhigh : h < 32) (hm : m < 64)
    (rest : List UInt8) :
    first (UInt8.ofNat (h + 0xC0)) (UInt8.ofNat (m + 0x80) :: rest) =
      (1, .ok (Char.ofNat (h * 64 + m))) := by
  rw [first_of_lead (by omega) (by omega) (lead?_of_two hlow hhigh)]
  exact follow_tail hm rfl

theorem first_of_three {h m t : Nat} (hh : h < 16) (hm : m < 64) (ht : t < 64)
    (hlong : 32 ≤ h * 64 + m) (hsurrogate : h * 64 + m < 0x360 ∨ 0x380 ≤ h * 64 + m)
    (rest : List UInt8) :
    first (UInt8.ofNat (h + 0xE0)) (UInt8.ofNat (m + 0x80) :: UInt8.ofNat (t + 0x80) :: rest) =
      (2, .ok (Char.ofNat ((h * 64 + m) * 64 + t))) := by
  obtain ⟨low, high, hl, hlow, hhigh⟩ := lead?_of_three hh hm hlong hsurrogate
  rw [first_of_lead (by omega) (by omega) hl]
  exact follow_cons hm hlow hhigh (follow_tail ht rfl)

theorem first_of_four {h m t u : Nat} (hm : m < 64) (ht : t < 64) (hu : u < 64)
    (hlong : 16 ≤ h * 64 + m) (hlast : h * 64 + m < 0x110) (rest : List UInt8) :
    first (UInt8.ofNat (h + 0xF0))
        (UInt8.ofNat (m + 0x80) :: UInt8.ofNat (t + 0x80) :: UInt8.ofNat (u + 0x80) :: rest) =
      (3, .ok (Char.ofNat (((h * 64 + m) * 64 + t) * 64 + u))) := by
  obtain ⟨low, high, hl, hlow, hhigh⟩ := lead?_of_four hm hlong hlast
  rw [first_of_lead (by omega) (by omega) hl]
  exact follow_cons hm hlow hhigh (follow_tail ht (follow_tail hu rfl))

/-- The bytes of a character are read as this character, whatever follows them. -/
theorem first_encodeChar (c : Char) : ∃ b tail, String.utf8EncodeChar c = b :: tail ∧
    ∀ rest, first b (tail ++ rest) = (tail.length, .ok c) := by
  have hvalid : c.val.toNat < 0xD800 ∨ 0xDFFF < c.val.toNat ∧ c.val.toNat < 0x110000 := c.valid
  have hchar : ∀ {n : Nat}, n = c.val.toNat → Char.ofNat n = c := by
    rintro n rfl
    exact Char.ofNat_toNat c
  rw [String.utf8EncodeChar]
  generalize c.val.toNat = v at hvalid hchar
  -- one, two, three or four bytes
  split
  · refine ⟨_, [], rfl, fun rest => ?_⟩
    rw [List.nil_append, first_of_one (by omega), hchar rfl]
    rfl
  split
  · refine ⟨_, _, rfl, fun rest => ?_⟩
    have hread := first_of_two (h := v / 64 % 0x20) (m := v % 0x40) (by omega) (by omega) (by omega)
      rest
    rwa [hchar (by omega)] at hread
  split
  · refine ⟨_, _, rfl, fun rest => ?_⟩
    have hread := first_of_three (h := v / 4096 % 0x10) (m := v / 64 % 0x40) (t := v % 0x40)
      (by omega) (by omega) (by omega) (by omega) (by omega) rest
    rwa [hchar (by omega)] at hread
  · refine ⟨_, _, rfl, fun rest => ?_⟩
    have hread := first_of_four (h := v / 262144 % 0x08) (m := v / 4096 % 0x40)
      (t := v / 64 % 0x40) (u := v % 0x40) (by omega) (by omega) (by omega) (by omega) (by omega)
      rest
    rwa [hchar (by omega)] at hread

/-! ## Texts -/

theorem decodeFrom_encodeChar (c : Char) (rest : List UInt8) (position : Nat) :
    ∃ next, decodeFrom position (String.utf8EncodeChar c ++ rest) =
      (decodeFrom next rest).map (c :: ·) := by
  obtain ⟨b, tail, hbytes, hfirst⟩ := first_encodeChar c
  rw [hbytes, List.cons_append, decodeFrom, hfirst]
  exact ⟨position + tail.length + 1, by simp only [List.drop_left]⟩

theorem decodeFrom_flatMap (cs : List Char) (position : Nat) :
    decodeFrom position (cs.flatMap String.utf8EncodeChar) = .ok cs := by
  induction cs generalizing position with
  | nil => rw [List.flatMap_nil, decodeFrom]
  | cons c cs ih =>
    obtain ⟨next, hnext⟩ := decodeFrom_encodeChar c (cs.flatMap String.utf8EncodeChar) position
    rw [List.flatMap_cons, hnext, ih next]
    rfl

/-- A text is read as it was written. -/
theorem decode_encode (s : String) : decode (encode s) = .ok s := by
  rw [decode, encode, decodeFrom_flatMap]
  exact congrArg Except.ok String.ofList_toList

theorem decodeLossy_encodeChar (c : Char) (rest : List UInt8) :
    decodeLossy (String.utf8EncodeChar c ++ rest) = c :: decodeLossy rest := by
  obtain ⟨b, tail, hbytes, hfirst⟩ := first_encodeChar c
  rw [hbytes, List.cons_append, decodeLossy, hfirst]
  simp only [List.drop_left]

/-- Nothing of a text is replaced. -/
theorem decodeLossy_flatMap (cs : List Char) :
    decodeLossy (cs.flatMap String.utf8EncodeChar) = cs := by
  induction cs with
  | nil => rw [List.flatMap_nil, decodeLossy]
  | cons c cs ih => rw [List.flatMap_cons, decodeLossy_encodeChar, ih]

end FeatureRun.Text.Utf8
