/-!
# Blank characters and trimming

Which characters count as white space, and the text that is left when the white space at both ends
is taken away.
-/
set_option autoImplicit false

namespace FeatureRun.Text

/-- White space: the characters with the Unicode property of separating words or lines, together
with the four information separators of ASCII. A byte order mark and a zero-width space are not
among them. -/
def isBlank (c : Char) : Bool :=
  let n := c.toNat
  (9 ≤ n && n ≤ 13) || (0x1C ≤ n && n ≤ 0x20) || n == 0x85 || n == 0xA0 || n == 0x1680 ||
    (0x2000 ≤ n && n ≤ 0x200A) || n == 0x2028 || n == 0x2029 || n == 0x202F || n == 0x205F ||
    n == 0x3000

/-- The characters from the first one that is not blank on. -/
def trimStart (cs : List Char) : List Char := cs.dropWhile isBlank

/-- The characters up to the last one that is not blank. -/
def trimEnd (cs : List Char) : List Char := (cs.reverse.dropWhile isBlank).reverse

/-- What is left when the blanks at both ends are taken away. -/
def trim (cs : List Char) : List Char := trimEnd (trimStart cs)

/-- `trim` on strings. -/
def trimmed (s : String) : String := String.ofList (trim s.toList)

/-- A text is blank throughout when nothing of it is left by trimming. -/
def isAllBlank (s : String) : Bool := s.toList.all isBlank

theorem trimStart_isSuffix (cs : List Char) : trimStart cs <:+ cs := List.dropWhile_suffix isBlank

theorem trimEnd_isPrefix (cs : List Char) : trimEnd cs <+: cs := by
  rw [trimEnd, ← List.reverse_suffix, List.reverse_reverse]
  exact List.dropWhile_suffix isBlank

/-- Trimming only takes characters away at the two ends. -/
theorem trim_isInfix (cs : List Char) : trim cs <:+: cs :=
  (trimEnd_isPrefix _).isInfix.trans (trimStart_isSuffix cs).isInfix

theorem trimStart_eq_nil_iff {cs : List Char} : trimStart cs = [] ↔ cs.all isBlank = true := by
  induction cs with
  | nil => simp [trimStart]
  | cons c cs ih =>
    simp only [trimStart] at ih
    by_cases h : isBlank c = true <;> simp_all [trimStart]

theorem trimStart_append {pre : List Char} (h : pre.all isBlank = true) (cs : List Char) :
    trimStart (pre ++ cs) = trimStart cs := by
  rw [trimStart, List.dropWhile_append_of_pos (by simpa using h), trimStart]

theorem trimEnd_append {post : List Char} (h : post.all isBlank = true) (cs : List Char) :
    trimEnd (cs ++ post) = trimEnd cs := by
  have hreverse : post.reverse.all isBlank = true := by rwa [List.all_reverse]
  have hstart := trimStart_append hreverse cs.reverse
  simp only [trimStart] at hstart
  rw [trimEnd, List.reverse_append, hstart, trimEnd]

/-- Blanks at the ends of a text make no difference to what is left by trimming. -/
theorem trim_append {pre core post : List Char} (hpre : pre.all isBlank = true)
    (hpost : post.all isBlank = true) : trim (pre ++ core ++ post) = trim core := by
  rw [trim, List.append_assoc, trimStart_append hpre, trim]
  by_cases hcore : core.all isBlank = true
  · have hall : (core ++ post).all isBlank = true := by rw [List.all_append, hcore, hpost]; rfl
    rw [trimStart_eq_nil_iff.2 hall, trimStart_eq_nil_iff.2 hcore]
  · have hne : trimStart core ≠ [] := mt trimStart_eq_nil_iff.1 hcore
    simp only [trimStart] at hne ⊢
    rw [List.dropWhile_append, if_neg (by simpa using hne), trimEnd_append hpost]

end FeatureRun.Text
