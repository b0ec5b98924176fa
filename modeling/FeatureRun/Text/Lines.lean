/-!
# Cutting text at a separator, and its lines

`pieces` cuts at one separating character and keeps empty pieces, so joining the pieces gives the
text back. Two notions of line stand beside it: `unifyBreaks` turns the two foreign line endings of
a text file into a line feed, and `visualLines` cuts wherever a reader of Unicode text starts a new
line.
-/
set_option autoImplicit false

namespace FeatureRun.Text

/-- The pieces between the occurrences of `sep`; one more than there are occurrences. -/
def pieces (sep : Char) : List Char → List (List Char)
  | [] => [[]]
  | c :: rest =>
    if c = sep then [] :: pieces sep rest
    else
      match pieces sep rest with
      | [] => [[c]]
      | p :: ps => (c :: p) :: ps

/-- The pieces with `sep` between them. -/
def joined (sep : List Char) : List (List Char) → List Char
  | [] => []
  | [p] => p
  | p :: q :: ps => p ++ sep ++ joined sep (q :: ps)

theorem pieces_ne_nil (sep : Char) (cs : List Char) : pieces sep cs ≠ [] := by
  cases cs with
  | nil => simp [pieces]
  | cons c rest =>
    unfold pieces
    split
    · simp
    · split <;> simp

theorem joined_cons {sep : List Char} {ps : List (List Char)} (h : ps ≠ []) (p : List Char) :
    joined sep (p :: ps) = p ++ sep ++ joined sep ps := by
  cases ps with
  | nil => exact absurd rfl h
  | cons q qs => rfl

theorem joined_cons_cons (sep : List Char) (c : Char) (p : List Char) (ps : List (List Char)) :
    joined sep ((c :: p) :: ps) = c :: joined sep (p :: ps) := by
  cases ps <;> rfl

theorem joined_pieces (sep : Char) (cs : List Char) : joined [sep] (pieces sep cs) = cs := by
  induction cs with
  | nil => rfl
  | cons c rest ih =>
    unfold pieces
    by_cases hc : c = sep
    · subst hc
      simp [joined_cons (pieces_ne_nil c rest), ih]
    · cases hp : pieces sep rest with
      | nil => exact absurd hp (pieces_ne_nil sep rest)
      | cons p ps => simp [hc, joined_cons_cons, ← hp, ih]

/-- `pieces` on strings. -/
def split (sep : Char) (s : String) : List String := (pieces sep s.toList).map String.ofList

/-- The strings with `sep` between them. -/
def join (sep : String) (ss : List String) : String := sep.intercalate ss

/-- The lines of a text, without the line feeds that end them. -/
def lines (s : String) : List String := split '\n' s

/-- A carriage return, alone or before a line feed, becomes a line feed. -/
def unifyBreaks : List Char → List Char
  | [] => []
  | '\r' :: '\n' :: rest => '\n' :: unifyBreaks rest
  | '\r' :: rest => '\n' :: unifyBreaks rest
  | c :: rest => c :: unifyBreaks rest

/-- The characters at which Unicode text starts a new line. -/
def isBreak (c : Char) : Bool :=
  let n := c.toNat
  (10 ≤ n && n ≤ 13) || (0x1C ≤ n && n ≤ 0x1E) || n == 0x85 || n == 0x2028 || n == 0x2029

/-- Lines cut at every break, a carriage return with its line feed counting once; a break at the
very end starts no further line. `line` is the line being read, backwards. -/
def visualLinesFrom (line : List Char) : List Char → List (List Char)
  | [] => if line.isEmpty then [] else [line.reverse]
  | '\r' :: '\n' :: rest => line.reverse :: visualLinesFrom [] rest
  | c :: rest =>
    if isBreak c then line.reverse :: visualLinesFrom [] rest
    else visualLinesFrom (c :: line) rest

/-- The lines of a text as Unicode breaks them. -/
def visualLines (s : String) : List String := (visualLinesFrom [] s.toList).map String.ofList

end FeatureRun.Text
