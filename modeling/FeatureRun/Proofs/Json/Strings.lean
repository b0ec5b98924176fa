import FeatureRun.Json.Reader
import FeatureRun.Json.Writer

/-!
# Strings are read back

The quotes and escapes around a string are undone by reading it. A control character without a
short escape is read as a unit, and every other character as itself.

* `stringPieces_escape`: what is read from the escaped characters.
* `stringBody_text`: a string and its closing quote.
-/
set_option autoImplicit false

namespace FeatureRun.Json

/-- What is read from an escaped character. -/
def pieceOf (c : Char) : Piece :=
  if c.toNat < 0x20 ∧ c ∉ ['\n', '\r', '\t', '\x0c', '\x08'] then .unit c.toNat else .char c

/-- Control characters are written with four hexadecimal digits that give their number. -/
theorem hexDigits_unit : ∀ n, n < 0x20 →
    ∃ a b c d, Text.hexDigits 4 n = [a, b, c, d] ∧ unit? a b c d = some n := by
  have h : ∀ n, n < 0x20 → Text.hexDigits 4 n =
      ['0', '0', Nat.digitChar (n / 16), Nat.digitChar (n % 16)] ∧
      unit? '0' '0' (Nat.digitChar (n / 16)) (Nat.digitChar (n % 16)) = some n := by decide
  exact fun n hn => ⟨_, _, _, _, h n hn⟩

/-- A character that needs no escape is read as it is. -/
theorem stringPieces_plain {c : Char} (hquote : c ≠ '"') (hback : c ≠ '\\') (hlow : 0x20 ≤ c.toNat)
    (opened rest : List Char) : stringPieces opened (c :: rest) =
      (stringPieces opened rest).map fun (ps, more) => (.char c :: ps, more) := by
  have hnot : ¬c.toNat ≤ 0x1F := by omega
  rw [stringPieces.eq_def]
  split
  · simp_all
  · simp_all
  · simp_all
  · simp_all
  · simp_all
  · rename_i hcons
    obtain ⟨rfl, rfl⟩ := List.cons.inj hcons
    rw [if_neg hnot]

/-- One escaped character is read as one piece. Some character must follow it, as the closing quote
does. -/
theorem stringPieces_escapeChar (c : Char) (opened : List Char) {rest : List Char}
    (hrest : rest ≠ []) : stringPieces opened (escapeChar c ++ rest) =
      (stringPieces opened rest).map fun (ps, more) => (pieceOf c :: ps, more) := by
  unfold escapeChar
  split
  · subst_vars; rfl
  split
  · subst_vars; rfl
  split
  · subst_vars; rfl
  split
  · subst_vars; rfl
  split
  · subst_vars; rfl
  split
  · subst_vars; rfl
  split
  · subst_vars; rfl
  split
  · rename_i hn hr ht hf hb hlow
    obtain ⟨a, b, x, y, hhex, hunit⟩ := hexDigits_unit c.toNat hlow
    obtain ⟨r, more, rfl⟩ := List.exists_cons_of_ne_nil hrest
    have hpiece : pieceOf c = .unit c.toNat := if_pos ⟨hlow, by simp [hn, hr, ht, hf, hb]⟩
    rw [hhex, hpiece]
    simp [stringPieces, hunit]
  · rename_i hquote hback _ _ _ _ _ hlow
    have hpiece : pieceOf c = .char c := if_neg fun h => hlow h.1
    rw [hpiece]
    exact stringPieces_plain hquote hback (by omega) opened rest

/-- A string is read up to its closing quote. -/
theorem stringPieces_escape (cs opened rest : List Char) :
    stringPieces opened (cs.flatMap escapeChar ++ '"' :: rest) = .ok (cs.map pieceOf, rest) := by
  induction cs with
  | nil => rfl
  | cons c cs ih =>
    rw [List.flatMap_cons, List.append_assoc, stringPieces_escapeChar c opened (by simp), ih]
    rfl

theorem characters_unit {n : Nat} (hn : n < 0x20) (ps : List Piece) :
    Piece.characters (.unit n :: ps) = Char.ofNat n :: Piece.characters ps := by
  have hlow : Text.charOrStandIn n = Char.ofNat n :=
    Text.charOrStandIn_of_lt (Nat.lt_trans hn (by decide))
  cases ps with
  | nil => simp [Piece.characters, hlow]
  | cons p ps =>
    have hpair : ¬(0xD800 ≤ n) := by omega
    cases p with
    | char c => simp [Piece.characters, hlow]
    | unit l => simp [Piece.characters, hpair, hlow]

/-- The pieces of a string are its characters. -/
theorem characters_map_pieceOf (cs : List Char) : Piece.characters (cs.map pieceOf) = cs := by
  induction cs with
  | nil => rfl
  | cons c cs ih =>
    rw [List.map_cons, pieceOf]
    split
    · rename_i h
      rw [characters_unit h.1, ih, Char.ofNat_toNat]
    · rw [Piece.characters, ih]

/-- A string is read back as it was written. -/
theorem stringBody_text (s : String) (rest : List Char) :
    stringBody (s.toList.flatMap escapeChar ++ '"' :: rest) = .ok (s, rest) := by
  rw [stringBody, stringPieces_escape]
  simp [Except.map, characters_map_pieceOf]

end FeatureRun.Json
