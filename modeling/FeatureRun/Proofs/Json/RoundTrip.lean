import FeatureRun.Proofs.Json.Strings
import FeatureRun.Proofs.Text.Numeral

/-!
# Values are read back

A value without fractions is read back from its text, on one line or laid out over many.

* `Plain`: the values without fractions.
* `Layout.Spaced`: layouts that add nothing but blanks.
* `Reads`: a value is read from its text, whatever closes it, given enough fuel for the text.
* `document_line`, `document_pretty`: the round trips.
-/
set_option autoImplicit false

namespace FeatureRun.Json

open Text

/-- A value in which every number is whole. -/
inductive Plain : Json → Prop where
  | null : Plain .null
  | bool (b : Bool) : Plain (.bool b)
  | int (n : Int) : Plain (.int n)
  | str (s : String) : Plain (.str s)
  | arr {vs : List Json} (h : ∀ v ∈ vs, Plain v) : Plain (.arr vs)
  | obj {fs : List (String × Json)} (h : ∀ f ∈ fs, Plain f.2) : Plain (.obj fs)

/-! ## Layouts -/

/-- A layout that adds nothing but blanks, and commas between items. -/
structure Layout.Spaced (l : Layout) : Prop where
  opening : ∀ d, ∀ c ∈ l.opening d, isSpace c = true
  between : ∀ d, ∃ blanks, l.between d = ',' :: blanks ∧ ∀ c ∈ blanks, isSpace c = true
  closing : ∀ d, ∀ c ∈ l.closing d, isSpace c = true

theorem isSpace_of_mem_newLine {d : Nat} {c : Char} (h : c ∈ newLine d) : isSpace c = true := by
  rcases List.mem_cons.1 h with rfl | h
  · rfl
  · rw [List.eq_of_mem_replicate h]
    rfl

theorem Layout.spaced_oneLine : Layout.oneLine.Spaced where
  opening _ _ h := nomatch h
  between _ := ⟨[' '], rfl, List.forall_mem_singleton.2 rfl⟩
  closing _ _ h := nomatch h

theorem Layout.spaced_indented : Layout.indented.Spaced where
  opening _ _ := isSpace_of_mem_newLine
  between _ := ⟨_, rfl, fun _ => isSpace_of_mem_newLine⟩
  closing _ _ := isSpace_of_mem_newLine

/-- Blanks are passed over. -/
theorem skipSpace_append {blanks : List Char} (h : ∀ c ∈ blanks, isSpace c = true)
    (cs : List Char) : skipSpace (blanks ++ cs) = skipSpace cs :=
  List.dropWhile_append_of_pos h

/-- What may follow a value: nothing, a blank, or a character that goes on with its container. -/
def Closes : List Char → Prop
  | [] => True
  | c :: _ => c = ',' ∨ c = ']' ∨ c = '}' ∨ isSpace c = true

theorem closes_comma (rest : List Char) : Closes (',' :: rest) := .inl rfl

theorem Closes.append {blanks rest : List Char} (h : Closes rest)
    (hblanks : ∀ c ∈ blanks, isSpace c = true) : Closes (blanks ++ rest) := by
  cases blanks with
  | nil => exact h
  | cons c blanks => exact .inr (.inr (.inr (hblanks c List.mem_cons_self)))

theorem closes_bracket (rest : List Char) : Closes (']' :: rest) := .inr (.inl rfl)

theorem closes_brace (rest : List Char) : Closes ('}' :: rest) := .inr (.inr (.inl rfl))

/-- A character that a value may start with. -/
def isStart (c : Char) : Bool := c ∈ ['"', '[', '{', 'n', 't', 'f', '-'] || c.isDigit

/-- A value is read from its text. -/
def Reads (l : Layout) (v : Json) : Prop :=
  ∀ d fuel rest, 2 * (render l d v).length < fuel → Closes rest →
    value .unlimited fuel (render l d v ++ rest) = .ok (v, rest)

variable {l : Layout}

theorem Closes.of_cons {c : Char} {rest : List Char} (h : Closes (c :: rest)) :
    c = ',' ∨ c = ']' ∨ c = '}' ∨ c = ' ' ∨ c = '\t' ∨ c = '\n' ∨ c = '\r' := by
  rcases h with h | h | h | h
  · exact .inl h
  · exact .inr (.inl h)
  · exact .inr (.inr (.inl h))
  · simp only [isSpace, Bool.or_eq_true, beq_iff_eq, or_assoc] at h
    exact .inr (.inr (.inr h))

theorem isStart_of_isDigit {c : Char} (h : c.isDigit = true) : isStart c = true := by
  simp [isStart, h]

theorem ne_of_isStart {c d : Char} (h : isStart c = true) (hd : isStart d = false) : c ≠ d := by
  rintro rfl
  simp [h] at hd

/-- No blank starts a value. -/
theorem skipSpace_of_isStart {c : Char} (h : isStart c = true) (cs : List Char) :
    skipSpace (c :: cs) = c :: cs := by
  have hspace : isSpace c = false := by
    simp only [isSpace, Bool.or_eq_false_iff, beq_eq_false_iff_ne]
    exact ⟨⟨⟨ne_of_isStart h (by decide), ne_of_isStart h (by decide)⟩,
      ne_of_isStart h (by decide)⟩, ne_of_isStart h (by decide)⟩
  rw [skipSpace, List.dropWhile_cons_of_neg (by simp [hspace])]

/-! ## Whole numbers -/

theorem isAsciiDigit_eq (c : Char) : isAsciiDigit c = c.isDigit := rfl

/-- Digits end where something closes the value. -/
theorem span_digits {ds rest : List Char} (hds : ∀ c ∈ ds, c.isDigit = true) (hrest : Closes rest) :
    (ds ++ rest).takeWhile isAsciiDigit = ds ∧ (ds ++ rest).dropWhile isAsciiDigit = rest := by
  induction ds with
  | nil =>
    cases rest with
    | nil => exact ⟨rfl, rfl⟩
    | cons c rest =>
      have hc : isAsciiDigit c = false := by
        rcases hrest.of_cons with rfl | rfl | rfl | rfl | rfl | rfl | rfl <;> decide
      simp [hc]
  | cons c ds ih =>
    obtain ⟨hc, hds⟩ := List.forall_mem_cons.1 hds
    obtain ⟨htake, hdrop⟩ := ih hds
    simp [isAsciiDigit_eq, hc, htake, hdrop]

theorem wholePart_digits (n : Nat) {rest : List Char} (hrest : Closes rest) :
    wholePart (digits n ++ rest) = some (digits n, rest) := by
  obtain ⟨c, ds, hds⟩ := List.exists_cons_of_ne_nil (digits_ne_nil n)
  have hall : ∀ x ∈ c :: ds, x.isDigit = true := fun x hx =>
    isDigit_of_mem_digits (hds ▸ hx : x ∈ digits n)
  obtain ⟨hc, htail⟩ := List.forall_mem_cons.1 hall
  obtain ⟨htake, hdrop⟩ := span_digits htail hrest
  by_cases hzero : c = '0'
  · -- a leading zero stands alone
    have hn := eq_zero_of_head_digits n (by rw [hds, hzero]; rfl)
    subst hn
    rfl
  · rw [hds, List.cons_append, wholePart.eq_def]
    split
    · rename_i hcons
      exact absurd (List.cons.inj hcons).1 hzero
    · rename_i hcons
      obtain ⟨rfl, rfl⟩ := List.cons.inj hcons
      rw [if_pos (isAsciiDigit_eq c ▸ hc), htake, hdrop]
    · rename_i hnil
      nomatch hnil

theorem fractionPart_of_closes {rest : List Char} (h : Closes rest) : fractionPart rest = none := by
  cases rest with
  | nil => rfl
  | cons c rest => rcases h.of_cons with rfl | rfl | rfl | rfl | rfl | rfl | rfl <;> rfl

theorem exponentPart_of_closes {rest : List Char} (h : Closes rest) : exponentPart rest = none := by
  cases rest with
  | nil => rfl
  | cons c rest => rcases h.of_cons with rfl | rfl | rfl | rfl | rfl | rfl | rfl <;> rfl

/-- A number is a minus, if it is negative, and digits. -/
theorem number_digits (negative : Bool) (n : Nat) {rest : List Char} (hrest : Closes rest) :
    number .unlimited ((if negative then ['-'] else []) ++ digits n ++ rest) =
      .ok (.int (signed negative n), rest) := by
  have hvalue : ofDigits 10 (digitValues (digits n)) = n := ofDigits_digits n
  have hwhole := wholePart_digits n hrest
  obtain ⟨c, ds, hds⟩ := List.exists_cons_of_ne_nil (digits_ne_nil n)
  have hminus : c ≠ '-' := by
    have hc : c.isDigit = true := isDigit_of_mem_digits (hds ▸ List.mem_cons_self : c ∈ digits n)
    rintro rfl
    exact absurd hc (by decide)
  cases negative with
  | true =>
    rw [number.eq_def]
    simp [hwhole, hvalue, fractionPart_of_closes hrest, exponentPart_of_closes hrest]
  | false =>
    rw [hds, List.cons_append] at hwhole
    rw [hds] at hvalue ⊢
    simp [number, hminus, hwhole, hvalue, fractionPart_of_closes hrest,
      exponentPart_of_closes hrest]

/-- What starts with a digit is no word. -/
theorem atom_of_isDigit {c : Char} (hc : c.isDigit = true) (cs : List Char) :
    atom .unlimited (c :: cs) = number .unlimited (c :: cs) ∧
      atom .unlimited ('-' :: c :: cs) = number .unlimited ('-' :: c :: cs) := by
  have hne : ∀ d : Char, d.isDigit = false → ¬d = c := by
    rintro d hd rfl
    simp [hc] at hd
  simp [atom, words, afterPrefix?, hne]

/-- A whole number is no word. -/
theorem atom_int (n : Int) {rest : List Char} (hrest : Closes rest) :
    atom .unlimited ((toString n).toList ++ rest) = .ok (.int n, rest) := by
  have hhead : ∀ m : Nat, ∃ c cs, digits m = c :: cs ∧ c.isDigit = true := by
    intro m
    obtain ⟨c, cs, hcs⟩ := List.exists_cons_of_ne_nil (digits_ne_nil m)
    exact ⟨c, cs, hcs, isDigit_of_mem_digits (hcs ▸ List.mem_cons_self : c ∈ digits m)⟩
  cases n with
  | ofNat m =>
    have hnumber := number_digits false m hrest
    obtain ⟨c, cs, hcs, hc⟩ := hhead m
    rw [Int.ofNat_eq_natCast, toList_toString_nat]
    rw [hcs] at hnumber ⊢
    exact (atom_of_isDigit hc (cs ++ rest)).1.trans hnumber
  | negSucc m =>
    have hnumber := number_digits true (m + 1) hrest
    obtain ⟨c, cs, hcs, hc⟩ := hhead (m + 1)
    rw [toList_toString_negSucc]
    rw [hcs] at hnumber ⊢
    exact (atom_of_isDigit hc (cs ++ rest)).2.trans hnumber

/-! ## Values -/

theorem render_int (l : Layout) (d : Nat) (n : Int) : render l d (.int n) = (toString n).toList :=
  rfl

theorem render_str (l : Layout) (d : Nat) (s : String) : render l d (.str s) = stringText s := rfl

theorem renderItems_nil (l : Layout) (d : Nat) : renderItems l d [] = [] := rfl

theorem renderFields_nil (l : Layout) (d : Nat) : renderFields l d [] = [] := rfl

/-- The text of a value starts with a character that no blank, closing mark or byte order mark
is. -/
theorem exists_start_render {v : Json} (hv : v.Plain) (l : Layout) (d : Nat) :
    ∃ c cs, render l d v = c :: cs ∧ isStart c = true := by
  cases hv with
  | null => exact ⟨_, _, rfl, by decide⟩
  | bool b => cases b <;> exact ⟨_, _, rfl, by decide⟩
  | int n =>
    cases n with
    | ofNat m =>
      obtain ⟨c, cs, hcs⟩ := List.exists_cons_of_ne_nil (digits_ne_nil m)
      have hmem : c ∈ digits m := hcs ▸ List.mem_cons_self
      refine ⟨c, cs, ?_, isStart_of_isDigit (isDigit_of_mem_digits hmem)⟩
      rw [render_int, Int.ofNat_eq_natCast, toList_toString_nat, hcs]
    | negSucc m => exact ⟨_, _, by rw [render_int, toList_toString_negSucc], by decide⟩
  | str s => exact ⟨_, _, rfl, by decide⟩
  | @arr vs h =>
    cases vs with
    | nil => exact ⟨_, _, rfl, by decide⟩
    | cons v vs => exact ⟨_, _, rfl, by decide⟩
  | @obj fs h =>
    cases fs with
    | nil => exact ⟨_, _, rfl, by decide⟩
    | cons f fs => exact ⟨_, _, rfl, by decide⟩

/-- What starts with no quote, bracket or brace is a word or a number. -/
theorem value_atom {cs : List Char} {c : Char} (hc : c ≠ '"' ∧ c ≠ '[' ∧ c ≠ '{') (n : Nat) :
    value .unlimited (n + 1) (c :: cs) = atom .unlimited (c :: cs) := by
  rw [value.eq_def]
  obtain ⟨hquote, hbracket, hbrace⟩ := hc
  split <;> simp_all

theorem reads_null : Reads l .null := by
  intro d fuel rest hfuel hrest
  obtain ⟨n, rfl⟩ := Nat.exists_eq_succ_of_ne_zero (Nat.ne_zero_of_lt hfuel)
  have htext : render l d .null = ['n', 'u', 'l', 'l'] := rfl
  rw [htext]
  exact (value_atom (by decide) n).trans (by simp [atom, words, afterPrefix?])

theorem reads_bool (b : Bool) : Reads l (.bool b) := by
  intro d fuel rest hfuel hrest
  obtain ⟨n, rfl⟩ := Nat.exists_eq_succ_of_ne_zero (Nat.ne_zero_of_lt hfuel)
  have htext : render l d (.bool b) =
      if b then ['t', 'r', 'u', 'e'] else ['f', 'a', 'l', 's', 'e'] := by
    cases b <;> rfl
  rw [htext]
  cases b with
  | true => exact (value_atom (by decide) n).trans (by simp [atom, words, afterPrefix?])
  | false => exact (value_atom (by decide) n).trans (by simp [atom, words, afterPrefix?])

theorem reads_int (m : Int) : Reads l (.int m) := by
  intro d fuel rest hfuel hrest
  obtain ⟨n, rfl⟩ := Nat.exists_eq_succ_of_ne_zero (Nat.ne_zero_of_lt hfuel)
  obtain ⟨c, cs, hcs, -⟩ := exists_start_render (Plain.int m) l d
  rw [render_int] at hcs ⊢
  have hc : c ≠ '"' ∧ c ≠ '[' ∧ c ≠ '{' := by
    have hmem := mem_toString (hcs ▸ List.mem_cons_self : c ∈ (toString m).toList)
    refine ⟨?_, ?_, ?_⟩ <;> (rintro rfl; revert hmem; decide)
  have hatom := atom_int m hrest
  rw [hcs] at hatom ⊢
  exact (value_atom hc n).trans hatom

theorem reads_str (s : String) : Reads l (.str s) := by
  intro d fuel rest hfuel hrest
  obtain ⟨n, rfl⟩ := Nat.exists_eq_succ_of_ne_zero (Nat.ne_zero_of_lt hfuel)
  rw [render_str, stringText, List.cons_append, List.cons_append, List.append_assoc, value]
  simp only [List.singleton_append, stringBody_text]
  rfl

theorem renderItems_cons (d : Nat) (v : Json) (vs : List Json) :
    renderItems l d (v :: vs) = l.between d ++ render l (d + 1) v ++ renderItems l d vs := rfl

theorem render_arr_cons (d : Nat) (v : Json) (vs : List Json) :
    render l d (.arr (v :: vs)) = '[' :: (l.opening d ++
      (render l (d + 1) v ++ (renderItems l d vs ++ (l.closing d ++ [']'])))) := by
  have hrender : render l d (.arr (v :: vs)) =
      '[' :: l.opening d ++ render l (d + 1) v ++ renderItems l d vs ++ l.closing d ++ [']'] := rfl
  simp [hrender]

/-- Blanks before a value are passed over, but nothing of the value. -/
theorem skipSpace_render {v : Json} (hv : v.Plain) (d : Nat) (rest : List Char) :
    skipSpace (render l d v ++ rest) = render l d v ++ rest := by
  obtain ⟨c, cs, hcs, hc⟩ := exists_start_render hv l d
  rw [hcs]
  exact skipSpace_of_isStart hc _

/-- The items of an array are read one after another up to its closing bracket. -/
theorem elements_render (hl : l.Spaced) {v : Json} {vs : List Json}
    (h : ∀ w ∈ v :: vs, w.Plain ∧ Reads l w) (d fuel : Nat) (rest : List Char)
    (hfuel : 2 * (render l (d + 1) v ++ renderItems l d vs).length + 2 ≤ fuel) :
    elements .unlimited fuel (render l (d + 1) v ++ (renderItems l d vs ++
      (l.closing d ++ ']' :: rest))) = .ok (v :: vs, rest) := by
  obtain ⟨n, rfl⟩ := Nat.exists_eq_succ_of_ne_zero (by omega : fuel ≠ 0)
  have hv := (h v List.mem_cons_self).2 (d + 1) n
  rw [List.length_append] at hfuel
  induction vs generalizing v n with
  | nil =>
    have hclose : skipSpace (l.closing d ++ ']' :: rest) = ']' :: rest :=
      skipSpace_append (hl.closing d) _
    rw [renderItems_nil, List.nil_append, elements,
      hv _ (by omega) ((closes_bracket rest).append (hl.closing d))]
    simp only [hclose]
  | cons w vs ih =>
    have htail : ∀ u ∈ w :: vs, u.Plain ∧ Reads l u := fun u hu => h u (List.mem_cons_of_mem _ hu)
    obtain ⟨hplain, hreads⟩ := htail w List.mem_cons_self
    obtain ⟨blanks, hbetween, hblanks⟩ := hl.between d
    rw [renderItems_cons, hbetween] at hfuel ⊢
    simp only [List.length_cons, List.length_append] at hfuel
    obtain ⟨m, rfl⟩ := Nat.exists_eq_succ_of_ne_zero (by omega : n ≠ 0)
    have hw := ih htail m (by omega) (hreads (d + 1) m)
    simp only [List.cons_append, List.append_assoc]
    rw [elements, hv _ (by omega) (closes_comma _)]
    have hcomma : ∀ cs, skipSpace (',' :: cs) = ',' :: cs := fun _ => rfl
    simp only [hcomma, skipSpace_append hblanks, skipSpace_render hplain, hw]
    rfl

theorem reads_arr (hl : l.Spaced) {vs : List Json} (h : ∀ v ∈ vs, v.Plain ∧ Reads l v) :
    Reads l (.arr vs) := by
  intro d fuel rest hfuel hrest
  obtain ⟨n, rfl⟩ := Nat.exists_eq_succ_of_ne_zero (Nat.ne_zero_of_lt hfuel)
  cases vs with
  | nil => rfl
  | cons v vs =>
    rw [render_arr_cons] at hfuel ⊢
    simp only [List.length_cons, List.length_append, List.length_nil] at hfuel
    have hitems := elements_render hl h d n rest (by rw [List.length_append]; omega)
    have hplain := (h v List.mem_cons_self).1
    have hskip := skipSpace_render (l := l) hplain (d + 1)
      (renderItems l d vs ++ (l.closing d ++ ']' :: rest))
    obtain ⟨c, cs, hcs, hc⟩ := exists_start_render hplain l (d + 1)
    have hclose : c ≠ ']' := ne_of_isStart hc (by decide)
    rw [hcs] at hitems hskip ⊢
    simp only [List.cons_append, List.append_assoc, List.nil_append, value,
      skipSpace_append (hl.opening d)] at hitems hskip ⊢
    rw [hskip]
    simp [hclose, hitems, Except.map]

/-- The text of a string, its closing quote apart. -/
theorem stringText_append (name : String) (rest : List Char) :
    stringText name ++ rest = '"' :: (name.toList.flatMap escapeChar ++ '"' :: rest) := by
  simp [stringText]

/-- A field: its name and its value. -/
theorem renderFields_cons (d : Nat) (name : String) (v : Json) (fs : List (String × Json)) :
    renderFields l d ((name, v) :: fs) = l.between d ++ (stringText name ++
      ':' :: ' ' :: (render l (d + 1) v ++ renderFields l d fs)) := by
  have hfields : renderFields l d ((name, v) :: fs) =
      l.between d ++ stringText name ++ [':', ' '] ++ render l (d + 1) v ++
        renderFields l d fs := rfl
  simp [hfields]

theorem render_obj_cons (d : Nat) (name : String) (v : Json) (fs : List (String × Json)) :
    render l d (.obj ((name, v) :: fs)) = '{' :: (l.opening d ++ (stringText name ++
      ':' :: ' ' :: (render l (d + 1) v ++ (renderFields l d fs ++ (l.closing d ++ ['}']))))) := by
  have hrender : render l d (.obj ((name, v) :: fs)) =
      '{' :: l.opening d ++ stringText name ++ [':', ' '] ++ render l (d + 1) v ++
        renderFields l d fs ++ l.closing d ++ ['}'] := rfl
  simp [hrender]

/-- The fields of an object are read one after another up to its closing brace. -/
theorem members_render (hl : l.Spaced) {name : String} {v : Json} {fs : List (String × Json)}
    (h : ∀ f ∈ (name, v) :: fs, f.2.Plain ∧ Reads l f.2) (d fuel : Nat) (rest : List Char)
    (hfuel : 2 * (render l (d + 1) v ++ renderFields l d fs).length + 2 ≤ fuel) :
    members .unlimited fuel (stringText name ++ ':' :: ' ' :: (render l (d + 1) v ++
      (renderFields l d fs ++ (l.closing d ++ '}' :: rest)))) = .ok ((name, v) :: fs, rest) := by
  obtain ⟨n, rfl⟩ := Nat.exists_eq_succ_of_ne_zero (by omega : fuel ≠ 0)
  have hplain : v.Plain := (h _ List.mem_cons_self).1
  have hreads : Reads l v := (h _ List.mem_cons_self).2
  have hv := hreads (d + 1) n
  have hcolon : ∀ cs, skipSpace (':' :: cs) = ':' :: cs := fun _ => rfl
  have hblank : ∀ cs, skipSpace (' ' :: cs) = skipSpace cs := fun _ => rfl
  rw [List.length_append] at hfuel
  induction fs generalizing name v n with
  | nil =>
    have hclose : skipSpace (l.closing d ++ '}' :: rest) = '}' :: rest :=
      skipSpace_append (hl.closing d) _
    rw [stringText_append, members, stringBody_text]
    simp only [hcolon, hblank, skipSpace_render hplain, renderFields_nil, List.nil_append,
      hv _ (by omega) ((closes_brace rest).append (hl.closing d)), hclose]
  | cons f fs ih =>
    obtain ⟨name', w⟩ := f
    have htail : ∀ f ∈ (name', w) :: fs, f.2.Plain ∧ Reads l f.2 := fun u hu =>
      h u (List.mem_cons_of_mem _ hu)
    have hplain' : w.Plain := (htail _ List.mem_cons_self).1
    have hreads' : Reads l w := (htail _ List.mem_cons_self).2
    have hcomma : ∀ cs, skipSpace (',' :: cs) = ',' :: cs := fun _ => rfl
    have hquote : ∀ cs, skipSpace ('"' :: cs) = '"' :: cs := fun _ => rfl
    obtain ⟨blanks, hbetween, hblanks⟩ := hl.between d
    rw [renderFields_cons, hbetween] at hfuel ⊢
    simp only [List.length_cons, List.length_append] at hfuel
    obtain ⟨m, rfl⟩ := Nat.exists_eq_succ_of_ne_zero (by omega : n ≠ 0)
    have hw := ih htail m (by omega) hplain' hreads' (hreads' (d + 1) m)
    rw [stringText_append] at hw
    rw [stringText_append, members, stringBody_text]
    simp only [hcolon, hblank, skipSpace_render hplain, List.cons_append, List.append_assoc,
      hv _ (by omega) (closes_comma _), hcomma, skipSpace_append hblanks, stringText_append,
      hquote, hw]
    rfl

theorem reads_obj (hl : l.Spaced) {fs : List (String × Json)}
    (h : ∀ f ∈ fs, f.2.Plain ∧ Reads l f.2) : Reads l (.obj fs) := by
  intro d fuel rest hfuel hrest
  obtain ⟨n, rfl⟩ := Nat.exists_eq_succ_of_ne_zero (Nat.ne_zero_of_lt hfuel)
  cases fs with
  | nil => rfl
  | cons f fs =>
    obtain ⟨name, v⟩ := f
    rw [render_obj_cons] at hfuel ⊢
    simp only [List.length_cons, List.length_append, List.length_nil] at hfuel
    have hfields := members_render hl h d n rest (by rw [List.length_append]; omega)
    have hquote : ∀ cs, skipSpace ('"' :: cs) = '"' :: cs := fun _ => rfl
    rw [stringText_append] at hfields
    simp only [List.cons_append, List.append_assoc, List.nil_append, value,
      skipSpace_append (hl.opening d), stringText_append, hquote]
    exact congrArg (Except.map fun p => (Json.obj p.1, p.2)) hfields

/-- Every value without fractions is read from its text. -/
theorem Plain.reads (hl : l.Spaced) {v : Json} (h : v.Plain) : Reads l v := by
  induction h with
  | null => exact reads_null
  | bool b => exact reads_bool b
  | int n => exact reads_int n
  | str s => exact reads_str s
  | arr hplain ih => exact reads_arr hl fun v hv => ⟨hplain v hv, ih v hv⟩
  | obj hplain ih => exact reads_obj hl fun f hf => ⟨hplain f hf, ih f hf⟩

/-- A value is read back from its text in every layout. -/
theorem document_render (hl : l.Spaced) {v : Json} (h : v.Plain) :
    document .unlimited (render l 0 v) = .ok v := by
  obtain ⟨c, cs, hcs, hc⟩ := exists_start_render h l 0
  have hread := h.reads hl 0 (2 * (render l 0 v).length + 1) [] (by omega) trivial
  rw [hcs, List.append_nil] at hread
  have hmark : c ≠ '\uFEFF' := ne_of_isStart hc (by decide)
  rw [hcs, document.eq_def]
  split
  · rename_i hcons
    exact absurd (List.cons.inj hcons).1 hmark
  · rw [skipSpace_of_isStart hc, hread]
    rfl

/-- A value is read back from its line, -/
theorem document_line {v : Json} (h : v.Plain) : document .unlimited (line v).toList = .ok v := by
  rw [line, String.toList_ofList]
  exact document_render Layout.spaced_oneLine h

/-- and also from its many lines. -/
theorem document_pretty {v : Json} (h : v.Plain) : document .unlimited (pretty v).toList = .ok v := by
  rw [pretty, String.toList_ofList]
  exact document_render Layout.spaced_indented h

end FeatureRun.Json
