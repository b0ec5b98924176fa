import FeatureRun.Proofs.Catalog.Target
import FeatureRun.Proofs.Report.Place
import FeatureRun.Proofs.Text.Percent
import Mathlib.Data.Bool.AllAny

/-!
# All spellings of a file's path are recognized

A report may name a feature file by its path from the workspace, with or without a leading `./`, by
its absolute path, or by a `file:` address of one of these. In an address any characters may be
percent-encoded and any slashes be written as backslashes; of a plain path only the lower case
matters. Whatever the spelling, what is compared of it is an end of the absolute path that follows a
slash, so the names in it are the last names of the file.

* `IsFeatureAt`: a feature file by the root of the workspace and its path from there.
* `Spelling`: the spellings of its path.
* `Spelling.isTail`: they come to the last names of the file.
* `sameFile_of_spelling`: they are recognized.
-/
set_option autoImplicit false

namespace FeatureRun.Report

open Text
open FeatureRun.Path (EndsOpen)

/-- A feature file by the root of the workspace and its path from there. Both are in normal form,
and the path does not look like an address. -/
structure IsFeatureAt (root path : String) : Prop where
  root : Path.IsNormal root
  names : ∀ n ∈ split '/' path, Path.IsProper n
  feature : endsWith path ".feature" = true
  noAddress : startsWith (lower path) "file:" = false

/-- The same text, with any slashes written as backslashes. -/
def Slashed : List Char → List Char → Prop :=
  List.Forall₂ fun c d => d = c ∨ c = '/' ∧ d = '\\'

/-- The spellings of the path of a file, which is given by its absolute path and its path from the
workspace. -/
inductive Spelling (file path : String) : String → Prop where
  | plain {form s : String} (hform : form = path ∨ form = "./" ++ path ∨ form = file)
    (hlower : lower s = lower form) : Spelling file path s
  | address {form mark : String} {ws ts : List Char} (hform : form = path ∨ form = file)
    (hmark : mark = "file:" ∨ mark = "file://") (hencodes : Percent.Encodes form.toList ws)
    (hslashed : Slashed ws ts) : Spelling file path (mark ++ String.ofList ts)

/-! ## Plain paths -/

theorem nextIsCased_forwardSlashes (x : List Char) :
    nextIsCased (forwardSlashes x) = nextIsCased x := by
  have hignorable : isCaseIgnorable '\\' = false := by decide +kernel
  have hcased : isCased '\\' = false := by decide +kernel
  induction x with
  | nil => rfl
  | cons c x ih =>
    simp only [nextIsCased, forwardSlashes, List.map_cons] at ih ⊢
    by_cases hc : c = '\\'
    · subst hc
      simp [hignorable, hcased, isCaseIgnorable_slash, isCased_slash]
    · by_cases hi : isCaseIgnorable c = true
      · simpa [hc, hi] using ih
      · simp [hc, hi]

theorem lowerChar_ne_backslash {c : Char} (h : c ≠ '\\') : lowerChar c ≠ '\\' := by
  rcases lowerChar_eq_or_high c with hsame | hhigh
  · rwa [hsame]
  · intro hsign
    rw [hsign] at hhigh
    exact absurd hhigh (by decide)

/-- No letter becomes a backslash, so it does not matter whether slashes are turned before or after
lower-casing. -/
theorem lowerFrom_forwardSlashes (before x : List Char) :
    lowerFrom (forwardSlashes before) (forwardSlashes x) = forwardSlashes (lowerFrom before x) := by
  induction x generalizing before with
  | nil => rfl
  | cons c x ih =>
    have hrest := ih (c :: before)
    by_cases hc : c = '\\'
    · subst hc
      have hcons (y : List Char) : forwardSlashes ('\\' :: y) = '/' :: forwardSlashes y := rfl
      rw [hcons] at hrest
      rw [hcons, lowerFrom_cons_lower (by decide), lowerFrom_cons_lower (by decide), hcons, hrest]
    · have hcons (y : List Char) : forwardSlashes (c :: y) = c :: forwardSlashes y := by
        rw [forwardSlashes, List.map_cons, if_neg hc, forwardSlashes]
      rw [hcons] at hrest
      rw [hcons]
      simp only [lowerFrom, nextIsCased_forwardSlashes, hrest]
      rw [forwardSlashes, forwardSlashes, List.map_append]
      congr 1
      split
      · split <;> rfl
      split
      · rfl
      · rw [List.map_singleton, if_neg (lowerChar_ne_backslash hc)]

/-- Nor does it matter whether signs that end with a slash are dropped before or after. -/
theorem lowerFrom_dropOptional {w : String} {p : List Char} (hopen : w.toList = p ++ ['/'])
    (hsigns : ∀ c ∈ w.toList, IsSign c) (x : List Char) :
    lowerFrom [] (dropOptional w x) = dropOptional w (lowerFrom [] x) := by
  rw [dropOptional, dropOptional]
  cases hprefix : afterPrefix? w.toList x with
  | none =>
    have hlower : ¬w.toList <+: lowerFrom [] x :=
      mt (prefix_lowerFrom_iff hsigns).1 (afterPrefix?_eq_none_iff.1 hprefix)
    rw [afterPrefix?_eq_none_iff.2 hlower]
    rfl
  | some rest =>
    have hsplit : lowerFrom [] x = w.toList ++ lowerFrom [] rest := by
      rw [afterPrefix?_eq_some_iff.1 hprefix,
        lowerFrom_append_lower (fun c hc => (hsigns c hc).1), hopen, List.reverse_append]
      exact congrArg _ (lowerFrom_append_slash [] _ rest)
    rw [hsplit, afterPrefix?_append]
    rfl

/-- A path that looks like an address does so in lower case. -/
theorem stripAddress_of_lower {s : String} (h : startsWith (lower s) "file:" = false) :
    stripAddress s.toList = s.toList := by
  rw [startsWith, ← Bool.not_eq_true, List.isPrefixOf_iff_prefix, toList_lower] at h
  refine stripAddress_eq ?_
  rintro ⟨rest, hrest⟩
  rw [← hrest, lowerFrom_append_lower (List.all_iff_forall_prop.1 (by decide))] at h
  exact h (List.prefix_append _ _)

/-- A path that starts with a sign does not look like an address. -/
theorem noAddress_of_sign {s : String} {c : Char} {cs : List Char} (hc : IsSign c)
    (hs : s.toList = c :: cs) : startsWith (lower s) "file:" = false := by
  rw [startsWith, ← Bool.not_eq_true, List.isPrefixOf_iff_prefix, toList_lower, hs,
    lowerFrom_cons_lower hc.1]
  intro hprefix
  obtain rfl : 'f' = c := (List.cons_prefix_cons.1 hprefix).1
  exact absurd hc (by decide)

/-- What is compared of a plain path depends on its lower case only. -/
theorem comparable_eq_of_lower {s : String} (h : startsWith (lower s) "file:" = false) :
    comparable s = String.ofList
      (dropOptional "/" (dropOptional "./" (forwardSlashes (lower s).toList))) := by
  have hforward : lowerFrom [] (forwardSlashes s.toList) = forwardSlashes (lowerFrom [] s.toList) :=
    lowerFrom_forwardSlashes [] s.toList
  rw [comparable, stripAddress_of_lower h, lower, String.toList_ofList,
    lowerFrom_dropOptional (p := []) rfl (List.all_iff_forall_prop.1 (by decide)),
    lowerFrom_dropOptional (p := ['.']) rfl (List.all_iff_forall_prop.1 (by decide)), hforward,
    toList_lower]

theorem IsTail.of_lower {file form s : String} (h : IsTail form file)
    (hform : startsWith (lower form) "file:" = false) (hlower : lower s = lower form) :
    IsTail s file := by
  have hcomparable : comparable s = comparable form := by
    rw [comparable_eq_of_lower hform, comparable_eq_of_lower (hlower ▸ hform), hlower]
  have hnames : names s = names form := by rw [names, names, hcomparable]
  constructor
  · rw [hcomparable]
    exact h.nonempty
  · rw [hnames]
    exact h.suffix

/-! ## Addresses -/

section Address

variable {cs ws ts w : List Char}

/-- Bytes in hexadecimal have no slashes that could be turned. -/
theorem Slashed.of_hex (hw : '/' ∉ w) (h : Slashed (w ++ ws) ts) :
    ∃ rest, ts = w ++ rest ∧ Slashed ws rest := by
  induction w generalizing ts with
  | nil => exact ⟨ts, rfl, h⟩
  | cons c w ih =>
    rw [List.mem_cons, not_or] at hw
    cases h with
    | cons hc h =>
      obtain ⟨rest, rfl, hrest⟩ := ih hw.2 h
      rcases hc with rfl | ⟨rfl, -⟩
      · exact ⟨rest, rfl, hrest⟩
      · exact absurd rfl hw.1

/-- An encoding with slashes turned is an encoding of a text with slashes turned. -/
theorem Slashed.encodes (h : Percent.Encodes cs ws) (hslashed : Slashed ws ts) :
    ∃ turned, Percent.Encodes turned ts ∧ forwardSlashes turned = forwardSlashes cs := by
  induction h generalizing ts with
  | nil =>
    cases hslashed
    exact ⟨[], .nil, rfl⟩
  | @plain c cs ws hc _ ih =>
    cases hslashed with
    | cons hd hslashed =>
      obtain ⟨turned, hturned, hforward⟩ := ih hslashed
      rcases hd with rfl | ⟨rfl, rfl⟩
      · exact ⟨_, .plain hc hturned, congrArg (_ :: ·) hforward⟩
      · exact ⟨_, .plain (by decide) hturned, congrArg ('/' :: ·) hforward⟩
  | @hex c cs w ws hw _ ih =>
    obtain ⟨rest, rfl, hrest⟩ := hslashed.of_hex hw.slash_not_mem
    obtain ⟨turned, hturned, hforward⟩ := ih hrest
    exact ⟨_, .hex hw hturned, congrArg (_ :: ·) hforward⟩

/-- An address stands for the text that is encoded in it, but for the slashes that count as its
mark. -/
theorem stripAddress_of_encodes {mark : String} (hmark : mark = "file:" ∨ mark = "file://")
    (h : Percent.Encodes cs ws) :
    ∃ start, EndsOpen start ∧ cs = start ++ stripAddress (mark.toList ++ ws) := by
  have hdouble (ws : List Char) :
      stripAddress ("file://".toList ++ ws) = Percent.decode ws := by
    rw [stripAddress, afterPrefix?_append]
  rcases hmark with rfl | rfl
  · by_cases hslashes : "//".toList <+: ws
    · -- two slashes at the start of the path are taken for those of the longer mark
      obtain ⟨rest, rfl⟩ := hslashes
      obtain ⟨once, rfl, honce⟩ := Percent.Encodes.of_slash h
      obtain ⟨twice, rfl, htwice⟩ := Percent.Encodes.of_slash honce
      have hdecode := (hdouble rest).trans (Percent.decode_of_encodes htwice)
      refine ⟨['/', '/'], .inr ⟨['/'], rfl⟩, ?_⟩
      exact congrArg (['/', '/'] ++ ·) hdecode.symm
    · have hlong : ¬"file://".toList <+: "file:".toList ++ ws := fun hlong =>
        hslashes ((List.prefix_append_right_inj "file:".toList).1 hlong)
      refine ⟨[], .inl rfl, ?_⟩
      rw [stripAddress, afterPrefix?_eq_none_iff.2 hlong]
      simp only [afterPrefix?_append, Percent.decode_of_encodes h, List.nil_append]
  · exact ⟨[], .inl rfl, ((hdouble ws).trans (Percent.decode_of_encodes h)).symm⟩

end Address

/-! ## All spellings -/

section Forms

variable {file path : String} {start : List Char}
  (hstart : EndsOpen start) (hfile : file.toList = '/' :: (start ++ path.toList))

include hstart hfile

/-- The absolute path ends with the path from the workspace, and with itself. -/
theorem exists_front {form : String} (hform : form = path ∨ form = file) :
    ∃ front, EndsOpen front ∧
      forwardSlashes file.toList = front ++ forwardSlashes form.toList := by
  rcases hform with rfl | rfl
  · exact exists_forwardSlashes_eq hstart hfile
  · exact ⟨[], .inl rfl, rfl⟩

variable (hfeature : ".feature".toList <:+ start ++ path.toList)

include hfeature

/-- Behind a leading `./`, too, only one slash is dropped. -/
theorem isTail_dotted : IsTail ("./" ++ path) file := by
  obtain ⟨slash, hslash, hsplit⟩ := exists_dropOptional (w := "/") (.inr ⟨[], by decide⟩)
    (forwardSlashes path.toList)
  have hlist : ("./" ++ path).toList = '.' :: '/' :: path.toList := String.toList_append
  have hplain : stripAddress ("./" ++ path).toList = '.' :: '/' :: path.toList :=
    (stripAddress_of_lower (noAddress_of_sign (by decide) hlist)).trans hlist
  have hdropped : dropOptional "./" (forwardSlashes ('.' :: '/' :: path.toList)) =
      forwardSlashes path.toList := rfl
  have hcomparable : comparable ("./" ++ path) =
      lower (String.ofList (dropOptional "/" (forwardSlashes path.toList))) := by
    rw [comparable, hplain, hdropped]
  refine isTail_of_rest hfile hfeature ((endsOpen_forwardSlashes hstart).append hslash) ?_
    hcomparable
  rw [forwardSlashes_append, List.append_assoc, ← hsplit]

theorem isTail_plain {form : String} (hform : form = path ∨ form = file)
    (haddress : startsWith (lower form) "file:" = false) : IsTail form file := by
  obtain ⟨front, hfront, hend⟩ := exists_front hstart hfile hform
  refine isTail_of_end hfile hfeature hfront ?_
  rwa [stripAddress_of_lower haddress]

theorem isTail_address {form mark : String} {ws ts : List Char} (hform : form = path ∨ form = file)
    (hmark : mark = "file:" ∨ mark = "file://") (hencodes : Percent.Encodes form.toList ws)
    (hslashed : Slashed ws ts) : IsTail (mark ++ String.ofList ts) file := by
  obtain ⟨front, hfront, hend⟩ := exists_front hstart hfile hform
  obtain ⟨turned, hturned, hforward⟩ := hslashed.encodes hencodes
  obtain ⟨slashes, hslashes, hstrip⟩ := stripAddress_of_encodes hmark hturned
  refine isTail_of_end hfile hfeature (hfront.append (endsOpen_forwardSlashes hslashes)) ?_
  rw [String.toList_append, String.toList_ofList, hend, ← hforward, List.append_assoc,
    ← forwardSlashes_append, ← hstrip]

end Forms

variable {root path s : String}

/-- The absolute path of a feature file ends with its path from the workspace. -/
theorem IsFeatureAt.toList_file (h : IsFeatureAt root path) : ∃ start, EndsOpen start ∧
    (Catalog.fileOf (.ofString root) path).toList = '/' :: (start ++ path.toList) := by
  have hroot : (Path.ofString root).root ≠ .none := Path.Root.ne_none_of_absolute h.root.absolute
  have hnames : ∀ n ∈ (Path.ofString root).parts ++ split '/' path, Path.IsProper n := fun n hn =>
    (List.mem_append.1 hn).elim h.root.isProper_of_mem (h.names n)
  have hnormal := Path.isNormal_text hroot hnames
  have hbelow := Path.below?_eq_some_iff.2 (Path.ofString_text (Path.ofString root).root hnames)
  have hne : split '/' path ≠ [] := mt List.map_eq_nil_iff.1 (pieces_ne_nil _ _)
  obtain ⟨start, hstart, hlist⟩ := hnormal.toList_of_below hbelow hne
  rw [Path.join_split] at hlist
  rw [Catalog.fileOf_eq hroot (fun _ => h.root.isProper_of_mem) h.names]
  exact ⟨start, hstart, hlist⟩

/-- Every spelling of a feature file's path comes to the last names of the file. -/
theorem Spelling.isTail (h : IsFeatureAt root path)
    (hs : Spelling (Catalog.fileOf (.ofString root) path) path s) :
    IsTail s (Catalog.fileOf (.ofString root) path) := by
  obtain ⟨start, hstart, hfile⟩ := h.toList_file
  have hfeature : ".feature".toList <:+ start ++ path.toList :=
    (List.isSuffixOf_iff_suffix.1 h.feature).trans (List.suffix_append _ _)
  cases hs with
  | @plain form _ hform hlower =>
    rcases hform with rfl | rfl | rfl
    · exact (isTail_plain hstart hfile hfeature (.inl rfl) h.noAddress).of_lower h.noAddress hlower
    · have haddress := noAddress_of_sign (s := "./" ++ path) (by decide : IsSign '.')
        String.toList_append
      exact (isTail_dotted hstart hfile hfeature).of_lower haddress hlower
    · have haddress := noAddress_of_sign (by decide) hfile
      exact (isTail_plain hstart hfile hfeature (.inr rfl) haddress).of_lower haddress hlower
  | address hform hmark hencodes hslashed =>
    exact isTail_address hstart hfile hfeature hform hmark hencodes hslashed

/-- A feature file is recognized by every spelling of its path: what is compared of the spelling is
not empty, and the names in it are the last names of the file. -/
theorem sameFile_of_spelling (h : IsFeatureAt root path)
    (hs : Spelling (Catalog.fileOf (.ofString root) path) path s) :
    IsTail s (Catalog.fileOf (.ofString root) path) ∧
      sameFile (Catalog.fileOf (.ofString root) path) s = true :=
  ⟨hs.isTail h, sameFile_iff.2 (hs.isTail h).related⟩

/-- One address of a file whose name has a blank and a percent sign in it. -/
theorem sameFile_of_spelling_encoded :
    IsFeatureAt "/w" "50% off.feature" ∧
      Spelling (Catalog.fileOf (.ofString "/w") "50% off.feature") "50% off.feature"
        "file:///w\\50%25%20off.feature" ∧
      IsTail "file:///w\\50%25%20off.feature"
        (Catalog.fileOf (.ofString "/w") "50% off.feature") ∧
      sameFile (Catalog.fileOf (.ofString "/w") "50% off.feature")
        "file:///w\\50%25%20off.feature" = true := by
  have hsplit : split '/' "50% off.feature" = ["50% off.feature"] := by decide
  have h : IsFeatureAt "/w" "50% off.feature" := by
    refine ⟨⟨by decide, by decide⟩, ?_, by decide, by decide +kernel⟩
    rw [hsplit, List.forall_mem_singleton]
    exact ⟨by decide, by decide, by decide, by decide⟩
  have hpercent : Percent.Hex (String.utf8EncodeChar '%') ['%', '2', '5'] :=
    .cons (.inl (by decide)) (.inl (by decide)) .nil
  have hblank : Percent.Hex (String.utf8EncodeChar ' ') ['%', '2', '0'] :=
    .cons (.inl (by decide)) (.inl (by decide)) .nil
  have hfront : Percent.Encodes "/w/50".toList "/w/50".toList := .self (by decide)
  have hback : Percent.Encodes "off.feature".toList "off.feature".toList := .self (by decide)
  have hencodes : Percent.Encodes "/w/50% off.feature".toList "/w/50%25%20off.feature".toList :=
    hfront.append (.hex hpercent (.hex hblank hback))
  have hslashed : Slashed "/w/50%25%20off.feature".toList "/w\\50%25%20off.feature".toList := by
    simp [Slashed]
  have hfile : Catalog.fileOf (.ofString "/w") "50% off.feature" = "/w/50% off.feature" := by decide
  have hs : Spelling (Catalog.fileOf (.ofString "/w") "50% off.feature") "50% off.feature"
      "file:///w\\50%25%20off.feature" :=
    .address (.inr hfile.symm) (.inr rfl) hencodes hslashed
  exact ⟨h, hs, sameFile_of_spelling h hs⟩

end FeatureRun.Report
