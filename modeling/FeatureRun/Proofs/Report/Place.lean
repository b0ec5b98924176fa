import FeatureRun.Catalog.Target
import FeatureRun.Proofs.Path
import FeatureRun.Proofs.Text.LowerCase
import FeatureRun.Proofs.Text.Search
import FeatureRun.Report.Place

/-!
# Which entry a file is given

Two spellings of a path agree if the names in the one are the last names in the other. So a file may
be given an entry that was meant for another file: its own entry is the one that it is given if no
entry before it agrees with the file.

* `sameFile_iff`: agreement by names.
* `sameFile_names`: the three ways to agree come to this, and the third is not needed.
* `sameFile_relativePath`: a file agrees with its own path from the workspace.
* `entryFor?_own`: when a file is given its own entry.
-/
set_option autoImplicit false

namespace FeatureRun.Report

open Text
open FeatureRun.Path (EndsOpen)

/-- The names in a spelling of a path, in the form in which spellings are compared. -/
def names (path : String) : List (List Char) := pieces '/' (comparable path).toList

/-- The names in one spelling are the last names in the other one, and neither is empty. -/
def Related (target candidate : String) : Prop :=
  comparable target ≠ "" ∧ comparable candidate ≠ "" ∧
    (names target <:+ names candidate ∨ names candidate <:+ names target)

/-- The names in a spelling, which is not empty, are the last names of a file. -/
structure IsTail (path file : String) : Prop where
  nonempty : comparable path ≠ ""
  suffix : names path <:+ names file

/-! ## Agreement by names -/

/-- Two forms agree if they are equal or the longer one passes a test with the shorter one; empty
forms agree with nothing. -/
def agreeBy (test : List Char → List Char → Bool) (a b : List Char) : Bool :=
  if a.isEmpty || b.isEmpty then false
  else if a = b then true
  else if a.length ≤ b.length then test a b
  else test b a

/-- The second way in which two forms may agree. -/
def endsWithForm (shorter longer : List Char) : Bool := ('/' :: shorter).isSuffixOf longer

/-- The second and the third way in which two forms may agree. -/
def endsIn (shorter longer : List Char) : Bool :=
  if ('/' :: shorter).isSuffixOf longer then true
  else
    let short := pieces '/' shorter
    let long := pieces '/' longer
    if short.getLast? ≠ long.getLast? then false
    else if short.length ≤ long.length then
      joined ['/'] (long.drop (long.length - short.length)) = shorter
    else false

variable {a b s l : List Char}

theorem agree_eq_agreeBy (a b : List Char) : agree a b = agreeBy endsIn a b := by
  rw [agree, agreeBy]
  by_cases hle : a.length ≤ b.length
  · simp only [hle, if_true]
    rfl
  · simp only [hle, if_false]
    rfl

theorem endsWithForm_iff (hne : s ≠ l) :
    endsWithForm s l = true ↔ pieces '/' s <:+ pieces '/' l := by
  rw [endsWithForm, List.isSuffixOf_iff_suffix, pieces_suffix_iff, or_iff_right hne]

/-- The third way adds nothing to the second one but equality. -/
theorem endsIn_iff : endsIn s l = true ↔ pieces '/' s <:+ pieces '/' l := by
  rw [endsIn]
  constructor
  · intro h
    split at h
    · rename_i hsuffix
      exact pieces_suffix_iff.2 (.inr (List.isSuffixOf_iff_suffix.1 hsuffix))
    simp only [ne_eq, ite_not] at h
    split at h
    · split at h
      · rename_i hlength
        have hjoined := of_decide_eq_true h
        have hlong : (pieces '/' l).drop ((pieces '/' l).length - (pieces '/' s).length) ≠ [] := by
          have := List.length_pos_iff.2 (pieces_ne_nil '/' s)
          rw [ne_eq, List.drop_eq_nil_iff]
          omega
        have hpieces := pieces_joined
          (fun p hp => not_mem_of_mem_pieces (List.mem_of_mem_drop hp)) hlong
        rw [hjoined] at hpieces
        exact hpieces ▸ List.drop_suffix _ _
      · nomatch h
    · nomatch h
  · intro h
    rcases pieces_suffix_iff.1 h with rfl | hsuffix
    · simp [joined_pieces]
    · rw [if_pos (List.isSuffixOf_iff_suffix.2 hsuffix)]

theorem length_lt_of_pieces_suffix (hne : s ≠ l) (h : pieces '/' s <:+ pieces '/' l) :
    s.length < l.length := by
  rcases pieces_suffix_iff.1 h with rfl | hsuffix
  · exact absurd rfl hne
  · exact hsuffix.length_le

/-- Which form is the longer one is told by their lengths, and this is the one with more pieces. -/
theorem agreeBy_iff {test : List Char → List Char → Bool}
    (htest : ∀ s l, s ≠ l → (test s l = true ↔ pieces '/' s <:+ pieces '/' l)) :
    agreeBy test a b = true ↔
      a ≠ [] ∧ b ≠ [] ∧ (pieces '/' a <:+ pieces '/' b ∨ pieces '/' b <:+ pieces '/' a) := by
  by_cases ha : a = []
  · simp [agreeBy, ha]
  by_cases hb : b = []
  · simp [agreeBy, hb]
  by_cases hab : a = b
  · subst hab
    simp [agreeBy, ha]
  have hempty : ¬(a.isEmpty || b.isEmpty) = true := by simp [ha, hb]
  rw [agreeBy, if_neg hempty, if_neg hab]
  simp only [ne_eq, ha, hb, not_false_eq_true, true_and]
  split
  · rename_i hle
    rw [htest a b hab]
    refine ⟨.inl, fun h => h.resolve_right fun h => ?_⟩
    have := length_lt_of_pieces_suffix (Ne.symm hab) h
    omega
  · rename_i hle
    rw [htest b a (Ne.symm hab)]
    refine ⟨.inr, fun h => h.resolve_left fun h => ?_⟩
    have := length_lt_of_pieces_suffix hab h
    omega

theorem agree_iff : agree a b = true ↔
    a ≠ [] ∧ b ≠ [] ∧ (pieces '/' a <:+ pieces '/' b ∨ pieces '/' b <:+ pieces '/' a) := by
  rw [agree_eq_agreeBy]
  exact agreeBy_iff fun _ _ _ => endsIn_iff

/-- Nothing is lost without the third way. -/
theorem agree_eq_agreeBy_endsWithForm (a b : List Char) :
    agree a b = agreeBy endsWithForm a b := by
  rw [Bool.eq_iff_iff, agree_iff, agreeBy_iff fun _ _ => endsWithForm_iff]

/-- Two spellings name one file if the names in the one are the last names in the other. -/
theorem sameFile_iff {target candidate : String} :
    sameFile target candidate = true ↔ Related target candidate := by
  rw [sameFile, agree_iff, Related, names, names, ne_eq, ne_eq, String.toList_eq_nil_iff,
    String.toList_eq_nil_iff]

theorem IsTail.related {path file : String} (h : IsTail path file) : Related file path := by
  refine ⟨fun hempty => h.nonempty ?_, h.nonempty, .inr h.suffix⟩
  have hsuffix := h.suffix
  rw [names, names, hempty, pieces_suffix_iff] at hsuffix
  rcases hsuffix with heq | hbehind
  · exact String.toList_eq_nil_iff.1 heq
  · exact absurd (List.suffix_nil.1 hbehind) (List.cons_ne_nil _ _)

theorem Related.symm {target candidate : String} (h : Related target candidate) :
    Related candidate target :=
  ⟨h.2.1, h.1, h.2.2.symm⟩

/-- Spellings are compared by the names in them: none of the two may be empty, and the names in the
one must be the last names in the other. So it makes no difference which of them is given first, and
the comparison by base names could be left out. -/
theorem sameFile_names (target candidate : String) :
    (sameFile target candidate = true ↔ comparable target ≠ "" ∧ comparable candidate ≠ "" ∧
      (names target <:+ names candidate ∨ names candidate <:+ names target)) ∧
    sameFile target candidate = sameFile candidate target ∧
    sameFile target candidate =
      agreeBy endsWithForm (comparable target).toList (comparable candidate).toList := by
  refine ⟨sameFile_iff, ?_, agree_eq_agreeBy_endsWithForm _ _⟩
  rw [Bool.eq_iff_iff, sameFile_iff, sameFile_iff]
  exact ⟨Related.symm, Related.symm⟩

/-! ## A file and its own path -/

theorem forwardSlashes_append (a b : List Char) :
    forwardSlashes (a ++ b) = forwardSlashes a ++ forwardSlashes b := List.map_append

theorem endsOpen_forwardSlashes (h : EndsOpen a) : EndsOpen (forwardSlashes a) := by
  rcases h with rfl | ⟨p, rfl⟩
  · exact .inl rfl
  · exact .inr ⟨forwardSlashes p, forwardSlashes_append p ['/']⟩

/-- Whatever is dropped ends with a slash. -/
theorem exists_dropOptional {w : String} (hw : EndsOpen w.toList) (cs : List Char) :
    ∃ start, EndsOpen start ∧ cs = start ++ dropOptional w cs := by
  unfold dropOptional
  cases h : afterPrefix? w.toList cs with
  | none => exact ⟨[], .inl rfl, rfl⟩
  | some rest => exact ⟨_, hw, afterPrefix?_eq_some_iff.1 h⟩

theorem stripAddress_eq {cs : List Char} (h : ¬"file:".toList <+: cs) : stripAddress cs = cs := by
  have hlong : ¬"file://".toList <+: cs := fun hlong =>
    h (List.IsPrefix.trans ⟨"//".toList, by decide⟩ hlong)
  rw [stripAddress, afterPrefix?_eq_none_iff.2 hlong, afterPrefix?_eq_none_iff.2 h]

/-- What is compared of a spelling is what is left of it behind a slash. -/
theorem exists_comparable_eq (path : String) :
    ∃ start rest, forwardSlashes (stripAddress path.toList) = start ++ rest ∧ EndsOpen start ∧
      comparable path = lower (String.ofList rest) := by
  obtain ⟨dot, hdot, hcs⟩ := exists_dropOptional (w := "./") (.inr ⟨['.'], by decide⟩)
    (forwardSlashes (stripAddress path.toList))
  obtain ⟨slash, hslash, hrest⟩ := exists_dropOptional (w := "/") (.inr ⟨[], by decide⟩)
    (dropOptional "./" (forwardSlashes (stripAddress path.toList)))
  refine ⟨dot ++ slash, _, ?_, hdot.append hslash, by rw [comparable]⟩
  rw [List.append_assoc, ← hrest, ← hcs]

/-- What is compared of an absolute path is what follows its first slash. -/
theorem comparable_of_absolute {path : String} {cs : List Char}
    (h : forwardSlashes (stripAddress path.toList) = '/' :: cs) :
    comparable path = lower (String.ofList cs) := by
  have hdot : dropOptional "./" ('/' :: cs) = '/' :: cs := rfl
  have hslash : dropOptional "/" ('/' :: cs) = cs := rfl
  rw [comparable, h, hdot, hslash]

/-- What follows a slash has the last names of the whole. -/
theorem names_suffix {start rest : List Char} (h : EndsOpen start) :
    pieces '/' (lower (String.ofList rest)).toList <:+
      pieces '/' (lower (String.ofList (start ++ rest))).toList := by
  rcases h with rfl | ⟨p, rfl⟩
  · exact List.suffix_rfl
  · rw [List.append_assoc, List.singleton_append, toList_lower_slash]
    exact pieces_suffix_iff.2 (.inr ⟨_, rfl⟩)

section Ends

variable {file path : String} {cs front rest start : List Char}

theorem stripAddress_of_absolute (h : file.toList = '/' :: cs) :
    stripAddress file.toList = '/' :: cs := by
  rw [h]
  refine stripAddress_eq ?_
  rintro ⟨more, hmore⟩
  exact absurd (List.cons.inj hmore).1 (by decide)

/-- The path of a feature file does not end with a slash, so something follows the last one. -/
theorem ne_nil_of_feature (hfeature : ".feature".toList <:+ cs) (hfront : EndsOpen front)
    (hsplit : forwardSlashes cs = front ++ rest) : rest ≠ [] := by
  rintro rfl
  obtain ⟨t, rfl⟩ := hfeature
  rw [List.append_nil, forwardSlashes_append] at hsplit
  have hmark : forwardSlashes ".feature".toList = ".featur".toList ++ ['e'] := rfl
  rw [hmark, ← List.append_assoc] at hsplit
  rcases hfront with rfl | ⟨p, rfl⟩
  · exact List.append_ne_nil_of_right_ne_nil _ (List.cons_ne_nil _ _) hsplit
  · exact absurd (List.append_inj_right' hsplit rfl) (by decide)

/-- What is compared by an end of a feature file's path that follows a slash is a tail of it. -/
theorem isTail_of_rest (hfile : file.toList = '/' :: cs) (hfeature : ".feature".toList <:+ cs)
    (hfront : EndsOpen front) (hsplit : forwardSlashes cs = front ++ rest)
    (hcomparable : comparable path = lower (String.ofList rest)) : IsTail path file := by
  have hwhole : comparable file = lower (String.ofList (front ++ rest)) := by
    rw [← hsplit]
    refine comparable_of_absolute ?_
    rw [stripAddress_of_absolute hfile]
    rfl
  constructor
  · rw [hcomparable]
    exact lower_ne_empty (ne_nil_of_feature hfeature hfront hsplit)
  · rw [names, names, hcomparable, hwhole]
    exact names_suffix hfront

/-- Every spelling that comes to an end of a feature file's path, be it all of it or what follows a
slash, is a tail of it. -/
theorem isTail_of_end (hfile : file.toList = '/' :: cs) (hfeature : ".feature".toList <:+ cs)
    (hstart : EndsOpen start)
    (hend : forwardSlashes file.toList = start ++ forwardSlashes (stripAddress path.toList)) :
    IsTail path file := by
  have habsolute : forwardSlashes file.toList = '/' :: forwardSlashes cs := by
    rw [hfile]
    rfl
  rw [habsolute] at hend
  cases start with
  | nil =>
    -- of the whole path the first slash is dropped on both sides
    exact isTail_of_rest hfile hfeature (.inl rfl) rfl (comparable_of_absolute hend.symm)
  | cons d start =>
    obtain ⟨front, rest, hsplit, hfront, hcomparable⟩ := exists_comparable_eq path
    rw [List.cons_append, hsplit, ← List.append_assoc] at hend
    exact isTail_of_rest hfile hfeature (hstart.tail.append hfront) (List.cons.inj hend).2
      hcomparable

/-- Turning all slashes keeps that one path ends with another one behind a slash. -/
theorem exists_forwardSlashes_eq (hstart : EndsOpen start)
    (hfile : file.toList = '/' :: (start ++ path.toList)) : ∃ front, EndsOpen front ∧
      forwardSlashes file.toList = front ++ forwardSlashes path.toList := by
  refine ⟨forwardSlashes (['/'] ++ start),
    endsOpen_forwardSlashes (.append (.inr ⟨[], rfl⟩) hstart), ?_⟩
  rw [hfile, ← forwardSlashes_append, List.append_assoc]
  rfl

/-- A feature file agrees with every end of its path that follows a slash and does not look like an
address. -/
theorem related_of_suffix (hstart : EndsOpen start)
    (hfile : file.toList = '/' :: (start ++ path.toList))
    (hpath : startsWith path "file:" = false) (hfeature : endsWith path ".feature" = true) :
    Related file path := by
  have hplain : stripAddress path.toList = path.toList := stripAddress_eq fun hprefix => by
    rw [startsWith, List.isPrefixOf_iff_prefix.2 hprefix] at hpath
    nomatch hpath
  have hend : ".feature".toList <:+ start ++ path.toList :=
    (List.isSuffixOf_iff_suffix.1 hfeature).trans (List.suffix_append _ _)
  obtain ⟨front, hfront, hforward⟩ := exists_forwardSlashes_eq hstart hfile
  rw [← hplain] at hforward
  exact (isTail_of_end hfile hend hfront hforward).related

end Ends

/-- A feature file below the root of a workspace. -/
structure IsFeatureBelow (root : Path) (file : String) : Prop where
  normal : Path.IsNormal file
  below : (root.below? (.ofString file)).isSome = true
  feature : endsWith (Catalog.relativePath root file) ".feature" = true

/-- A feature file agrees with its own path from the workspace, unless that looks like an
address. -/
theorem sameFile_relativePath {root : Path} {file : String} (h : IsFeatureBelow root file)
    (hpath : startsWith (Catalog.relativePath root file) "file:" = false) :
    Related file (Catalog.relativePath root file) := by
  obtain ⟨names, hnames⟩ := Option.isSome_iff_exists.1 h.below
  have hfeature := h.feature
  have hrelative : Catalog.relativePath root file = (Path.mk .none names).toString := by
    rw [Catalog.relativePath, hnames]
  have hbody : Path.Root.text .none ++ Text.join "/" names = Text.join "/" names :=
    String.empty_append
  rw [hrelative, Path.toString, hbody] at hpath hfeature ⊢
  split at hfeature
  · exact absurd hfeature (by decide)
  · rename_i hempty
    rw [if_neg hempty] at hpath ⊢
    have hne : names ≠ [] := by
      rintro rfl
      exact hempty rfl
    obtain ⟨start, hstart, hlist⟩ := h.normal.toList_of_below hnames hne
    exact related_of_suffix hstart hlist hpath hfeature

/-! ## The entry of a file -/

section Entry

variable {report before after : List Entry} {target : String} {e own : Entry}

/-- A file is given the first entry that agrees with it. -/
theorem entryFor?_eq_some_iff : entryFor? report target = some e ↔
    ∃ before after, report = before ++ e :: after ∧ Related target e.uri ∧
      ∀ b ∈ before, ¬Related target b.uri := by
  rw [entryFor?, List.find?_eq_some_iff_append]
  simp only [sameFile_iff, Bool.not_eq_true', ← Bool.not_eq_true]
  constructor
  · rintro ⟨hrel, before, after, hreport, hbefore⟩
    exact ⟨before, after, hreport, hrel, hbefore⟩
  · rintro ⟨before, after, hreport, hrel, hbefore⟩
    exact ⟨hrel, before, after, hreport, hbefore⟩

theorem entryFor?_eq_none_iff :
    entryFor? report target = none ↔ ∀ e ∈ report, ¬Related target e.uri := by
  rw [entryFor?, List.find?_eq_none]
  simp only [sameFile_iff]

/-- An entry that agrees with a file is given to it if and only if none before it does. -/
theorem entryFor?_eq_of_related (hdistinct : (report.map Entry.uri).Nodup)
    (hreport : report = before ++ own :: after) (hown : Related target own.uri) :
    entryFor? report target = some own ↔ ∀ b ∈ before, ¬Related target b.uri := by
  constructor
  · intro hfound b hb hrel
    have hsplit : entryFor? report target =
        (entryFor? before target).or (entryFor? (own :: after) target) := by
      rw [hreport]
      exact List.find?_append
    cases hx : entryFor? before target with
    | none => exact entryFor?_eq_none_iff.1 hx b hb hrel
    | some x =>
      rw [hsplit, hx] at hfound
      have hmem : own ∈ before := Option.some.inj hfound ▸ List.mem_of_find?_eq_some hx
      rw [hreport, List.map_append, List.map_cons, List.nodup_append] at hdistinct
      exact hdistinct.2.2 own.uri (List.mem_map_of_mem hmem) own.uri List.mem_cons_self rfl
  · intro hbefore
    exact entryFor?_eq_some_iff.2 ⟨before, after, hreport, hown, hbefore⟩

theorem find?_congr {p q : Entry → Bool} (h : ∀ e ∈ report, p e = q e) :
    report.find? p = report.find? q := by
  induction report with
  | nil => rfl
  | cons e report ih =>
    have hrest := ih fun b hb => h b (List.mem_cons_of_mem e hb)
    rw [List.find?_cons, List.find?_cons, h e List.mem_cons_self, hrest]

/-- If only its own entry can agree with a file, it is given that one or none. -/
theorem entryFor?_eq_find {path : String} (hpath : Related target path)
    (honly : ∀ e ∈ report, e.uri ≠ path → ¬Related target e.uri) :
    entryFor? report target = report.find? fun e => e.uri = path := by
  have hsame : ∀ e ∈ report, sameFile target e.uri = decide (e.uri = path) := by
    intro e he
    rw [Bool.eq_iff_iff, sameFile_iff, decide_eq_true_iff]
    constructor
    · intro hrel
      exact Decidable.byContradiction fun huri => honly e he huri hrel
    · rintro huri
      rw [huri]
      exact hpath
  exact find?_congr hsame

end Entry

/-- A file is given the first entry that agrees with it, and its own one exactly if none before that
agrees; so it is given its own entry or none wherever no other one agrees. Its own path is one that
agrees, unless it looks like an address. -/
theorem entryFor?_own {root : Path} {file : String} {report : List Entry}
    (h : IsFeatureBelow root file) (hdistinct : (report.map Entry.uri).Nodup) :
    (∀ e, entryFor? report file = some e ↔ ∃ before after, report = before ++ e :: after ∧
      Related file e.uri ∧ ∀ b ∈ before, ¬Related file b.uri) ∧
    (entryFor? report file = none ↔ ∀ e ∈ report, ¬Related file e.uri) ∧
    (startsWith (Catalog.relativePath root file) "file:" = false →
      (∀ before own after, report = before ++ own :: after →
        own.uri = Catalog.relativePath root file →
        (entryFor? report file = some own ↔ ∀ b ∈ before, ¬Related file b.uri)) ∧
      ((∀ e ∈ report, e.uri ≠ Catalog.relativePath root file → ¬Related file e.uri) →
        entryFor? report file =
          report.find? fun e => e.uri = Catalog.relativePath root file)) := by
  refine ⟨fun e => entryFor?_eq_some_iff, entryFor?_eq_none_iff, fun haddress => ⟨?_, ?_⟩⟩
  · intro before own after hreport huri
    have hown : Related file own.uri := huri ▸ sameFile_relativePath h haddress
    exact entryFor?_eq_of_related hdistinct hreport hown
  · exact entryFor?_eq_find (sameFile_relativePath h haddress)

/-- One feature file below another directory, whose own entry comes second. -/
theorem entryFor?_own_of_two :
    IsFeatureBelow ⟨.slash, ["w"]⟩ "/w/sub/b.feature" ∧
      ([⟨"a.feature", []⟩, ⟨"sub/b.feature", []⟩].map Entry.uri).Nodup ∧
      ∀ e, entryFor? [⟨"a.feature", []⟩, ⟨"sub/b.feature", []⟩] "/w/sub/b.feature" = some e ↔
        ∃ before after, [⟨"a.feature", []⟩, ⟨"sub/b.feature", []⟩] = before ++ e :: after ∧
          Related "/w/sub/b.feature" e.uri ∧ ∀ b ∈ before, ¬Related "/w/sub/b.feature" b.uri := by
  have h : IsFeatureBelow ⟨.slash, ["w"]⟩ "/w/sub/b.feature" :=
    ⟨⟨by decide, by decide⟩, by decide, by decide⟩
  exact ⟨h, by decide, (entryFor?_own h (by decide)).1⟩

/-- Files are not always given their own entry: one in the root of the workspace agrees with those
of the same name further down, also with those that have an entry of their own behind it, and an entry
whose path looks like an address is not found. -/
theorem entryFor?_not_own :
    (¬∀ root file report, IsFeatureBelow root file → (report.map Entry.uri).Nodup →
      entryFor? report file = report.find? fun e => e.uri = Catalog.relativePath root file) ∧
    entryFor? [⟨"a.feature", []⟩, ⟨"sub/a.feature", []⟩] "/w/sub/a.feature" =
      some ⟨"a.feature", []⟩ ∧
    entryFor? [⟨"file:a.feature", []⟩] "/w/file:a.feature" = none := by
  refine ⟨fun h => ?_, by decide +kernel, by decide +kernel⟩
  have hfile : IsFeatureBelow ⟨.slash, ["w"]⟩ "/w/sub/a.feature" :=
    ⟨⟨by decide, by decide⟩, by decide, by decide⟩
  have := h ⟨.slash, ["w"]⟩ "/w/sub/a.feature" [⟨"a.feature", []⟩] hfile (by decide)
  revert this
  decide +kernel

end FeatureRun.Report
