/-!
# Searching text for a word

Prefixes and suffixes, and cutting a text at the first or the last place where a word stands.
-/
set_option autoImplicit false

namespace FeatureRun.Text

/-- What follows `w` at the start of the text, if it starts so. -/
def afterPrefix? : (w cs : List Char) → Option (List Char)
  | [], cs => some cs
  | _ :: _, [] => none
  | a :: w, c :: cs => if a = c then afterPrefix? w cs else none

theorem afterPrefix?_eq_some_iff {w cs rest : List Char} :
    afterPrefix? w cs = some rest ↔ cs = w ++ rest := by
  induction w generalizing cs with
  | nil => simp [afterPrefix?]
  | cons a w ih =>
    cases cs with
    | nil => simp [afterPrefix?]
    | cons c cs =>
      by_cases h : a = c
      · simp [afterPrefix?, h, ih]
      · simp [afterPrefix?, h, Ne.symm h]

def startsWith (s w : String) : Bool := w.toList.isPrefixOf s.toList

def endsWith (s w : String) : Bool := w.toList.isSuffixOf s.toList

/-- The text before and after the first occurrence of `w`. -/
def cutFirst? (w : List Char) : List Char → Option (List Char × List Char)
  | [] => if w.isEmpty then some ([], []) else none
  | c :: cs =>
    match afterPrefix? w (c :: cs) with
    | some rest => some ([], rest)
    | none => (cutFirst? w cs).map fun (a, b) => (c :: a, b)

/-- The word stands between the two parts. -/
theorem eq_of_cutFirst? {w cs a b : List Char} (h : cutFirst? w cs = some (a, b)) :
    cs = a ++ w ++ b := by
  fun_induction cutFirst? w cs generalizing a with
  | case1 hw => grind
  | case2 => simp at h
  | case3 c cs rest hrest => grind [afterPrefix?_eq_some_iff]
  | case4 c cs _ ih =>
    obtain ⟨⟨a', b'⟩, hab, heq⟩ := Option.map_eq_some_iff.1 h
    grind

/-- The text before and after the last occurrence of `w`. -/
def cutLast? (w : List Char) : List Char → Option (List Char × List Char)
  | [] => if w.isEmpty then some ([], []) else none
  | c :: cs =>
    match cutLast? w cs with
    | some (a, b) => some (c :: a, b)
    | none => (afterPrefix? w (c :: cs)).map fun rest => ([], rest)

theorem eq_of_cutLast? {w cs a b : List Char} (h : cutLast? w cs = some (a, b)) :
    cs = a ++ w ++ b := by
  fun_induction cutLast? w cs generalizing a b with
  | case1 hw => grind
  | case2 => simp at h
  | case3 c cs a' b' hab ih => grind
  | case4 c cs _ ih =>
    obtain ⟨rest, hrest, heq⟩ := Option.map_eq_some_iff.1 h
    grind [afterPrefix?_eq_some_iff]

/-- `cutFirst?` on strings. -/
def splitFirst? (w s : String) : Option (String × String) :=
  (cutFirst? w.toList s.toList).map fun (a, b) => (String.ofList a, String.ofList b)

/-- `cutLast?` on strings. -/
def splitLast? (w s : String) : Option (String × String) :=
  (cutLast? w.toList s.toList).map fun (a, b) => (String.ofList a, String.ofList b)

def occursIn (w s : String) : Bool := (cutFirst? w.toList s.toList).isSome

end FeatureRun.Text
