import FeatureRun.Text.CodeRange

/-!
# Halves of surrogate pairs

An escape may name the number of one half of a surrogate pair, which is no character. Such a half is
kept as a stand-in: the character of the last private-use plane at the same distance from its start.
Those characters are in use for nothing else, so no text is taken to hold one of its own.
-/
set_option autoImplicit false

namespace FeatureRun.Text

/-- The numbers that belong to halves of surrogate pairs. -/
def surrogates : CodeRange := (0xD800, 0xDFFF)

/-- How far behind its number the stand-in of a half lies. -/
def standInShift : Nat := 0x100000

/-- The character with a number, or the stand-in of the half with that number. -/
def charOrStandIn (n : Nat) : Char :=
  if surrogates.1 ≤ n ∧ n ≤ surrogates.2 then Char.ofNat (n + standInShift) else Char.ofNat n

/-- The number of the half that a character stands for, if it is a stand-in. -/
def halfOf? (c : Char) : Option Nat :=
  let n := c.toNat - standInShift
  if surrogates.1 ≤ n ∧ n ≤ surrogates.2 then some n else none

theorem charOrStandIn_of_lt {n : Nat} (h : n < surrogates.1) : charOrStandIn n = Char.ofNat n :=
  if_neg fun hn => Nat.not_le_of_lt h hn.1

example : halfOf? (charOrStandIn 0xD800) = some 0xD800 := by decide
example : halfOf? (charOrStandIn 0x41) = none := by decide

end FeatureRun.Text
