import FeatureRun.Proofs.Text.Utf8
import FeatureRun.Text.Percent

/-!
# What percent encodings stand for

A text has many percent encodings: any of its characters may be written by their bytes, a percent
sign must be, and the digits may be capital ones or not. All of them are decoded to the text. A
character that is written by its bytes is ASCII throughout, so all its bytes lie in the one stretch
that is read as UTF-8, and each stretch ends where a character ends.

* `Encodes`: the encodings of a text.
* `decode_of_encodes`: they are decoded to the text.
-/
set_option autoImplicit false

namespace FeatureRun.Text.Percent

/-- A hexadecimal digit, capital or not. -/
def IsHexDigit (c : Char) (n : Nat) : Prop := c = Nat.digitChar n ∨ c = (Nat.digitChar n).toUpper

/-- Bytes, each as a percent sign and two hexadecimal digits. -/
inductive Hex : List UInt8 → List Char → Prop where
  | nil : Hex [] []
  | cons {b : UInt8} {bs : List UInt8} {high low : Char} {w : List Char}
    (hhigh : IsHexDigit high (b.toNat / 16)) (hlow : IsHexDigit low (b.toNat % 16))
    (h : Hex bs w) : Hex (b :: bs) ('%' :: high :: low :: w)

/-- The percent encodings of a text in UTF-8. Each character stands for itself, unless it is a
percent sign, or is written by its bytes. -/
inductive Encodes : List Char → List Char → Prop where
  | nil : Encodes [] []
  | plain {c : Char} {cs ws : List Char} (hc : c ≠ '%') (h : Encodes cs ws) :
    Encodes (c :: cs) (c :: ws)
  | hex {c : Char} {cs w ws : List Char} (hw : Hex (String.utf8EncodeChar c) w)
    (h : Encodes cs ws) : Encodes (c :: cs) (w ++ ws)

/-! ## Digits and bytes -/

theorem IsHexDigit.value {c : Char} {n : Nat} (h : IsHexDigit c n) (hn : n < 16) :
    hexValue? c = some n := by
  have hdigits : ∀ n < 16, hexValue? (Nat.digitChar n) = some n ∧
      hexValue? (Nat.digitChar n).toUpper = some n := by decide
  rcases h with rfl | rfl
  · exact (hdigits n hn).1
  · exact (hdigits n hn).2

theorem isAscii_of_hexValue {c : Char} {n : Nat} (h : hexValue? c = some n) :
    isAscii c = true := by
  rw [isAscii, decide_eq_true_iff]
  simp only [hexValue?] at h
  split at h
  · omega
  split at h
  · omega
  split at h
  · omega
  · nomatch h

variable {bs : List UInt8} {w ws cs : List Char}

theorem byte?_of_digits {b : UInt8} {high low : Char} (hhigh : IsHexDigit high (b.toNat / 16))
    (hlow : IsHexDigit low (b.toNat % 16)) : byte? high low = some b := by
  have hb : b.toNat < 256 := b.toNat_lt_size
  rw [byte?, hhigh.value (by omega), hlow.value (by omega)]
  simp only [Nat.div_add_mod', UInt8.ofNat_toNat]

theorem bytes_append_of_hex (h : Hex bs w) (x : List Char) :
    bytes (w ++ x) = bs ++ bytes x := by
  induction h with
  | nil => rfl
  | cons hhigh hlow _ ih =>
    simp only [List.cons_append]
    rw [bytes, byte?_of_digits hhigh hlow]
    simp only [ih]

theorem Hex.isAscii (h : Hex bs w) : ∀ c ∈ w, isAscii c = true := by
  induction h with
  | nil => exact nofun
  | @cons b _ _ _ _ hhigh hlow _ ih =>
    have hb : b.toNat < 256 := b.toNat_lt_size
    simp only [List.forall_mem_cons]
    exact ⟨by decide, isAscii_of_hexValue (hhigh.value (by omega)),
      isAscii_of_hexValue (hlow.value (by omega)), ih⟩

theorem Hex.slash_not_mem (h : Hex bs w) : '/' ∉ w := by
  have hdigit : ∀ n < 16, ¬IsHexDigit '/' n := fun n hn hslash =>
    absurd (hslash.value hn) (by simp [hexValue?])
  induction h with
  | nil => exact List.not_mem_nil
  | @cons b _ _ _ _ hhigh hlow _ ih =>
    have hb : b.toNat < 256 := b.toNat_lt_size
    simp only [List.mem_cons, not_or]
    refine ⟨by decide, ?_, ?_, ih⟩
    · rintro rfl
      exact hdigit _ (by omega) hhigh
    · rintro rfl
      exact hdigit _ (by omega) hlow

theorem bytes_cons {c : Char} (hc : c ≠ '%') (x : List Char) :
    bytes (c :: x) = UInt8.ofNat c.toNat :: bytes x := by
  rw [bytes]
  rintro - - - h -
  exact hc h

/-! ## Stretches -/

/-- A stretch, read backwards, that ends where a character does stands for the bytes of a text. -/
def Complete (run cs : List Char) : Prop :=
  ∀ x, bytes (run.reverse ++ x) = cs.flatMap String.utf8EncodeChar ++ bytes x

variable {run : List Char}

theorem complete_nil : Complete [] [] := fun _ => rfl

theorem Complete.decodeLossy (h : Complete run cs) :
    Utf8.decodeLossy (bytes run.reverse) = cs := by
  have hbytes := h []
  rw [List.append_nil, bytes, List.append_nil] at hbytes
  rw [hbytes, Utf8.decodeLossy_flatMap]

/-- A stretch goes on with a character that stands for itself. -/
theorem Complete.plain {c : Char} (h : Complete run cs) (hc : c ≠ '%') (hascii : isAscii c = true) :
    Complete (c :: run) (cs ++ [c]) := by
  intro x
  have hchar := Utf8.encodeChar_of_ascii (of_decide_eq_true hascii)
  rw [List.reverse_cons, List.append_assoc, h, List.singleton_append, bytes_cons hc,
    List.flatMap_append, List.flatMap_singleton, hchar, List.append_assoc, List.singleton_append]

/-- A stretch goes on with a character that is written by its bytes. -/
theorem Complete.hex {c : Char} (h : Complete run cs) (hw : Hex (String.utf8EncodeChar c) w) :
    Complete (w.reverse ++ run) (cs ++ [c]) := by
  intro x
  rw [List.reverse_append, List.reverse_reverse, List.append_assoc, h, bytes_append_of_hex hw,
    List.flatMap_append, List.flatMap_singleton, List.append_assoc]

/-- Characters of ASCII go on with the stretch. -/
theorem decodeRuns_append (h : ∀ c ∈ w, isAscii c = true) (run ws : List Char) :
    decodeRuns run (w ++ ws) = decodeRuns (w.reverse ++ run) ws := by
  induction w generalizing run with
  | nil => rfl
  | cons c w ih =>
    obtain ⟨hc, hw⟩ := List.forall_mem_cons.1 h
    rw [List.cons_append, decodeRuns, if_pos hc, ih hw, List.reverse_cons, List.append_assoc,
      List.singleton_append]

theorem decodeRuns_of_encodes {ps : List Char} (h : Encodes cs ws) (hrun : Complete run ps) :
    decodeRuns run ws = ps ++ cs := by
  induction h generalizing run ps with
  | nil => rw [decodeRuns, hrun.decodeLossy, List.append_nil]
  | @plain c cs ws hc _ ih =>
    rw [decodeRuns]
    split
    · rename_i hascii
      rw [ih (hrun.plain hc hascii), List.append_assoc, List.singleton_append]
    · -- the stretch ends here, and all its characters are complete
      rw [hrun.decodeLossy, ih complete_nil, List.nil_append]
  | hex hw _ ih =>
    rw [decodeRuns_append hw.isAscii, ih (hrun.hex hw), List.append_assoc, List.singleton_append]

/-- An encoding of a text is decoded to it. -/
theorem decode_of_encodes (h : Encodes cs ws) : decode ws = cs :=
  decodeRuns_of_encodes h complete_nil

/-! ## Parts of an encoding -/

theorem Encodes.append {cs' ws' : List Char} (h : Encodes cs ws) (h' : Encodes cs' ws') :
    Encodes (cs ++ cs') (ws ++ ws') := by
  induction h with
  | nil => exact h'
  | plain hc _ ih => exact .plain hc ih
  | hex hw _ ih =>
    rw [List.append_assoc]
    exact .hex hw ih

/-- A text without percent signs is an encoding of itself. -/
theorem Encodes.self (h : '%' ∉ cs) : Encodes cs cs := by
  induction cs with
  | nil => exact .nil
  | cons c cs ih =>
    rw [List.mem_cons, not_or] at h
    exact .plain (Ne.symm h.1) (ih h.2)

/-- A slash in an encoding stands for itself. -/
theorem Encodes.of_slash (h : Encodes cs ('/' :: ws)) :
    ∃ rest, cs = '/' :: rest ∧ Encodes rest ws := by
  generalize hall : '/' :: ws = all at h
  cases h with
  | nil => nomatch hall
  | plain _ h =>
    obtain ⟨rfl, rfl⟩ := List.cons.inj hall
    exact ⟨_, rfl, h⟩
  | @hex c _ w _ hw _ =>
    cases w with
    | nil =>
      generalize hbytes : String.utf8EncodeChar c = bs at hw
      cases hw
      exact absurd hbytes String.utf8EncodeChar_ne_nil
    | cons d w =>
      exact absurd ((List.cons.inj hall).1 ▸ List.mem_cons_self) hw.slash_not_mem

end FeatureRun.Text.Percent
