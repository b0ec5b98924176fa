import FeatureRun.Path.Basic
import FeatureRun.Proofs.Text.Lines

/-!
# Absolute paths in normal form

The ids of files are absolute paths in normal form: reading such a path and writing it again gives
the same text, and its parts are proper names.

* `IsNormal`: an absolute path in normal form.
* `IsNormal.toString_ofString`: its spelling is determined by the path.
* `isNormal_normalizeAbsolute`: normalizing gives the normal form.
* `ofString_toString`: a path with proper names is determined by its spelling.
* `suffix_normalize`: normalizing keeps how a path ends.
-/
set_option autoImplicit false

namespace FeatureRun.Path

open Text

/-- A text that is an absolute path in normal form. -/
structure IsNormal (s : String) : Prop where
  absolute : startsWith s "/" = true
  normal : normalizeAbsolute s = s

/-- A name of a file or directory other than the dots. -/
structure IsProper (p : String) : Prop where
  noSlash : '/' ∉ p.toList
  nonempty : p ≠ ""
  noDot : p ≠ "."
  noDots : p ≠ ".."

instance : DecidablePred IsProper := fun p =>
  decidable_of_iff ('/' ∉ p.toList ∧ p ≠ "" ∧ p ≠ "." ∧ p ≠ "..")
    ⟨fun ⟨hslash, hne, hdot, hdots⟩ => ⟨hslash, hne, hdot, hdots⟩,
      fun ⟨hslash, hne, hdot, hdots⟩ => ⟨hslash, hne, hdot, hdots⟩⟩

theorem isName_of_isProper {p : String} (h : IsProper p) : isName p = true := by
  simp [isName, h.nonempty, h.noDot]

/-! ## Cutting and joining -/

theorem noSlash_of_mem_split {s p : String} (h : p ∈ split '/' s) : '/' ∉ p.toList := by
  obtain ⟨cs, hcs, rfl⟩ := List.mem_map.1 h
  rw [String.toList_ofList]
  exact not_mem_of_mem_pieces hcs

theorem toList_join_slash (ps : List String) :
    (Text.join "/" ps).toList = joined ['/'] (ps.map String.toList) := toList_join '/' ps

/-- Cutting a text at its slashes, part by part. -/
theorem split_eq_of_toList {s t : String} {x : List Char} (h : s.toList = x ++ '/' :: t.toList) :
    split '/' s = (pieces '/' x).map String.ofList ++ split '/' t := by
  rw [split, h, pieces_append_sep, List.map_append]
  rfl

theorem split_join {ps : List String} (h : ∀ p ∈ ps, '/' ∉ p.toList) (hne : ps ≠ []) :
    split '/' (Text.join "/" ps) = ps := Text.split_join '/' h hne

theorem join_split (s : String) : Text.join "/" (split '/' s) = s := by
  rw [← String.toList_inj, toList_join_slash, split, List.map_map]
  simp only [Function.comp_def, String.toList_ofList, List.map_id', joined_pieces]

/-! ## Normal form -/

/-- Working out the dots leaves proper names. -/
theorem isProper_of_mem_collapse {names ps : List String} (hnames : ∀ p ∈ names, IsProper p)
    (hps : ∀ p ∈ ps, '/' ∉ p.toList) : ∀ p ∈ collapse names ps, IsProper p := by
  induction ps generalizing names with
  | nil => exact fun p hp => hnames p (List.mem_reverse.1 hp)
  | cons q ps ih =>
    obtain ⟨hq, hps⟩ := List.forall_mem_cons.1 hps
    rw [collapse]
    split
    · exact ih hnames hps
    · rename_i hempty
      simp only [Bool.or_eq_true, decide_eq_true_eq, not_or] at hempty
      split
      · exact ih (fun p hp => hnames p (List.mem_of_mem_tail hp)) hps
      · rename_i hdots
        refine ih (fun p hp => ?_) hps
        rcases List.mem_cons.1 hp with rfl | hp
        · exact ⟨hq, hempty.1, hempty.2, hdots⟩
        · exact hnames p hp

/-- The names of an absolute path in normal form. -/
theorem IsNormal.exists_names {s : String} (h : IsNormal s) : ∃ ps : List String,
    (∀ p ∈ ps, IsProper p) ∧ s = (Root.ofChars s.toList).text ++ Text.join "/" ps :=
  ⟨_, isProper_of_mem_collapse (by simp) fun _ hp => noSlash_of_mem_split hp, h.normal.symm⟩

theorem filter_isName_eq {ps : List String} (h : ∀ p ∈ ps, IsProper p) : ps.filter isName = ps :=
  List.filter_eq_self.2 fun p hp => isName_of_isProper (h p hp)

/-- The root of an absolute path is one slash or two. -/
theorem root_text_of_absolute {s : String} (h : startsWith s "/" = true) :
    (Root.ofChars s.toList).text = "/" ∨ (Root.ofChars s.toList).text = "//" := by
  obtain ⟨rest, hrest⟩ := List.isPrefixOf_iff_prefix.1 h
  have hcons : s.toList = '/' :: rest := hrest.symm
  rw [hcons]
  unfold Root.ofChars
  split
  · exact .inl rfl
  · exact .inr rfl
  · exact .inl rfl
  · rename_i hnot
    exact absurd rfl (hnot rest)

theorem Root.ne_none_of_absolute {s : String} (h : startsWith s "/" = true) :
    Root.ofChars s.toList ≠ .none := by
  intro hnone
  have hroot := root_text_of_absolute h
  rw [hnone] at hroot
  exact absurd hroot (by decide)

/-- Names that are joined do not start with a slash. -/
theorem head?_join {ps : List String} (h : ∀ p ∈ ps, IsProper p) :
    (Text.join "/" ps).toList.head? ≠ some '/' := by
  cases ps with
  | nil => simp [Text.join]
  | cons p ps =>
    have hp := h p List.mem_cons_self
    obtain ⟨c, cs, hcs⟩ := List.exists_cons_of_ne_nil (mt String.toList_eq_nil_iff.1 hp.nonempty)
    have hlist : (Text.join "/" (p :: ps)).toList.head? = some c := by
      rw [toList_join_slash, List.map_cons, hcs]
      cases ps <;> rfl
    rw [hlist]
    rintro ⟨rfl⟩
    exact hp.noSlash (hcs ▸ List.mem_cons_self)

/-- What follows a root decides nothing about it, unless that is another slash. -/
theorem Root.ofChars_append (r : Root) {cs : List Char} (h : cs.head? ≠ some '/') :
    Root.ofChars (r.text.toList ++ cs) = r := by
  cases r <;> rcases cs with - | ⟨c, cs⟩ <;> simp_all [Root.ofChars, Root.text]

/-- Cutting at slashes leaves nothing but empty texts of a root. -/
theorem split_text (r : Root) (s : String) :
    ∃ n, split '/' (r.text ++ s) = List.replicate n "" ++ split '/' s := by
  cases r with
  | none => exact ⟨0, congrArg (split '/') String.empty_append⟩
  | slash =>
    have hlist : ("/" ++ s).toList = [] ++ '/' :: s.toList := String.toList_append
    exact ⟨1, split_eq_of_toList hlist⟩
  | doubleSlash =>
    have hlist : ("//" ++ s).toList = ['/'] ++ '/' :: s.toList := String.toList_append
    exact ⟨2, split_eq_of_toList hlist⟩

theorem filter_isName_split_join {ps : List String} (h : ∀ p ∈ ps, IsProper p) :
    (split '/' (Text.join "/" ps)).filter isName = ps := by
  cases ps with
  | nil => decide
  | cons p ps => rw [split_join (fun q hq => (h q hq).noSlash) (by simp), filter_isName_eq h]

/-- A root and proper names are read as they were written. -/
theorem ofString_text (r : Root) {ps : List String} (h : ∀ p ∈ ps, IsProper p) :
    ofString (r.text ++ Text.join "/" ps) = ⟨r, ps⟩ := by
  obtain ⟨n, hn⟩ := split_text r (Text.join "/" ps)
  rw [ofString, String.toList_append, r.ofChars_append (head?_join h), hn, List.filter_append,
    filter_isName_split_join h, List.filter_replicate_of_neg (by decide)]
  rfl

/-- The parts of a path in normal form are its names. -/
theorem parts_ofString {s : String} {ps : List String} (hps : ∀ p ∈ ps, IsProper p)
    (hs : s = (Root.ofChars s.toList).text ++ Text.join "/" ps) : (ofString s).parts = ps := by
  have hread := ofString_text (Root.ofChars s.toList) hps
  rw [← hs] at hread
  rw [hread]

theorem IsNormal.isProper_of_mem {s p : String} (h : IsNormal s) (hp : p ∈ (ofString s).parts) :
    IsProper p := by
  obtain ⟨ps, hps, hs⟩ := h.exists_names
  rw [parts_ofString hps hs] at hp
  exact hps p hp

/-- A path in normal form is written as it was read. -/
theorem IsNormal.toString_ofString {s : String} (h : IsNormal s) : (ofString s).toString = s := by
  obtain ⟨ps, hps, hs⟩ := h.exists_names
  have hne : s ≠ "" := by
    rintro rfl
    exact absurd h.absolute (by decide)
  rw [Path.toString, parts_ofString hps hs]
  have hbody : (ofString s).root.text ++ Text.join "/" ps = s := hs.symm
  simp only [hbody, if_neg hne]

/-! ## Writing and reading -/

/-- A path with proper names is read as it was written. -/
theorem ofString_toString {p : Path} (h : ∀ n ∈ p.parts, IsProper n) : ofString p.toString = p := by
  rw [Path.toString]
  split
  · rename_i hempty
    have hread := ofString_text p.root h
    rw [hempty] at hread
    exact (by decide : ofString "." = ofString "").trans hread
  · exact ofString_text p.root h

theorem collapse_replicate (names : List String) (n : Nat) (ps : List String) :
    collapse names (List.replicate n "" ++ ps) = collapse names ps := by
  induction n with
  | zero => rfl
  | succ n ih =>
    rw [List.replicate_succ, List.cons_append, collapse, if_pos (by simp), ih]

/-- In proper names there is nothing to work out. -/
theorem collapse_eq {names ps : List String} (h : ∀ p ∈ ps, IsProper p) :
    collapse names ps = names.reverse ++ ps := by
  induction ps generalizing names with
  | nil => simp [collapse]
  | cons p ps ih =>
    obtain ⟨hp, hps⟩ := List.forall_mem_cons.1 h
    rw [collapse, if_neg (by simp [hp.nonempty, hp.noDot]), if_neg hp.noDots, ih hps]
    simp

theorem collapse_split_join {ps : List String} (h : ∀ p ∈ ps, IsProper p) :
    collapse [] (split '/' (Text.join "/" ps)) = ps := by
  cases ps with
  | nil => decide
  | cons p ps =>
    rw [split_join (fun q hq => (h q hq).noSlash) (by simp), collapse_eq h]
    rfl

theorem startsWith_text {r : Root} (hr : r ≠ .none) (s : String) :
    startsWith (r.text ++ s) "/" = true := by
  refine List.isPrefixOf_iff_prefix.2 ?_
  rw [String.toList_append]
  cases r with
  | none => exact absurd rfl hr
  | slash => exact List.prefix_append _ _
  | doubleSlash => exact (by decide : "/".toList <+: "//".toList).trans (List.prefix_append _ _)

/-- An absolute path is written as its root and its names. -/
theorem toString_of_root {r : Root} (hr : r ≠ .none) (ps : List String) :
    (Path.mk r ps).toString = r.text ++ Text.join "/" ps := by
  have hne : ¬r.text ++ Text.join "/" ps = "" := by
    intro hempty
    have htext := startsWith_text hr (Text.join "/" ps)
    rw [hempty] at htext
    exact absurd htext (by decide)
  rw [Path.toString]
  simp only [hne, if_false]

/-- An absolute path is written with a slash at its start. -/
theorem startsWith_toString {r : Root} (ps : List String) (hr : r ≠ .none) :
    startsWith (Path.mk r ps).toString "/" = true :=
  toString_of_root hr ps ▸ startsWith_text hr (Text.join "/" ps)

/-- Proper names behind a root are a path in normal form. -/
theorem isNormal_text {r : Root} (hr : r ≠ .none) {ps : List String} (h : ∀ p ∈ ps, IsProper p) :
    IsNormal (r.text ++ Text.join "/" ps) where
  absolute := startsWith_text hr _
  normal := by
    obtain ⟨n, hn⟩ := split_text r (Text.join "/" ps)
    rw [normalizeAbsolute, String.toList_append, r.ofChars_append (head?_join h), hn,
      collapse_replicate, collapse_split_join h]

/-- Every absolute path has a normal form. -/
theorem isNormal_normalizeAbsolute {s : String} (h : startsWith s "/" = true) :
    IsNormal (normalizeAbsolute s) :=
  isNormal_text (Root.ne_none_of_absolute h)
    (isProper_of_mem_collapse (by simp) fun _ hp => noSlash_of_mem_split hp)

/-- A root directory that has been worked out: absolute, and without dots. -/
structure IsResolved (root : Path) : Prop where
  absolute : root.isAbsolute = true
  proper : ∀ n ∈ root.parts, IsProper n

theorem isResolved_resolve (cwd s : String) : (resolve cwd s).IsResolved where
  absolute := rfl
  proper := isProper_of_mem_collapse (List.forall_mem_nil _) fun _ hp => noSlash_of_mem_split hp

/-! ## Paths below a root -/

/-- A text that is empty or ends with a slash. -/
def EndsOpen (cs : List Char) : Prop := cs = [] ∨ ∃ p, cs = p ++ ['/']

theorem EndsOpen.append {a b : List Char} (ha : EndsOpen a) (hb : EndsOpen b) :
    EndsOpen (a ++ b) := by
  rcases hb with rfl | ⟨q, rfl⟩
  · rwa [List.append_nil]
  · exact .inr ⟨a ++ q, (List.append_assoc _ _ _).symm⟩

theorem EndsOpen.tail {c : Char} {a : List Char} (h : EndsOpen (c :: a)) : EndsOpen a := by
  rcases h with h | ⟨p, hp⟩
  · nomatch h
  cases p with
  | nil => exact .inl (List.cons.inj hp).2
  | cons d p => exact .inr ⟨p, (List.cons.inj hp).2⟩

theorem stripParts_eq_some_iff {base parts rest : List String} :
    stripParts base parts = some rest ↔ parts = base ++ rest := by
  induction base generalizing parts with
  | nil => simp [stripParts, eq_comm]
  | cons b bs ih =>
    cases parts with
    | nil => simp [stripParts]
    | cons p ps =>
      by_cases hbp : b = p
      · simp [stripParts, hbp, ih]
      · simp [stripParts, hbp, Ne.symm hbp]

theorem below?_eq_some_iff {base p : Path} {names : List String} :
    base.below? p = some names ↔ p = ⟨base.root, base.parts ++ names⟩ := by
  rw [below?]
  split
  · rename_i hroot
    rw [stripParts_eq_some_iff]
    constructor
    · intro h
      rw [← hroot, ← h]
    · intro h
      rw [h]
  · rename_i hroot
    exact ⟨nofun, fun h => absurd (congrArg Path.root h) hroot⟩

/-- What leads from a root to a path leads back to it. -/
theorem join_of_below {root p : Path} {names : List String} (h : root.below? p = some names) :
    root.join ⟨.none, names⟩ = p := by
  rw [below?_eq_some_iff.1 h]
  rfl

theorem IsNormal.isAbsolute_ofString {s : String} (h : IsNormal s) :
    (ofString s).isAbsolute = true := decide_eq_true (Root.ne_none_of_absolute h.absolute)

/-- Joined names end with the last of them, behind a slash. -/
theorem exists_open_join (ps : List String) {qs : List String} (hqs : qs ≠ []) :
    ∃ start, EndsOpen start ∧
      (Text.join "/" (ps ++ qs)).toList = start ++ (Text.join "/" qs).toList := by
  by_cases hps : ps = []
  · exact ⟨[], .inl rfl, by rw [hps]; rfl⟩
  · refine ⟨(Text.join "/" ps).toList ++ ['/'], .inr ⟨_, rfl⟩, ?_⟩
    rw [Text.join, String.intercalate_append_of_ne_nil hps hqs, String.toList_append,
      String.toList_append]
    rfl

/-- A path below a root ends with its names from there, behind a slash. -/
theorem IsNormal.toList_of_below {root : Path} {s : String} {names : List String} (h : IsNormal s)
    (hbelow : root.below? (ofString s) = some names) (hne : names ≠ []) :
    ∃ start, EndsOpen start ∧ s.toList = '/' :: (start ++ (Text.join "/" names).toList) := by
  obtain ⟨ps, hps, hs⟩ := h.exists_names
  have hparts : ps = root.parts ++ names := by
    rw [← parts_ofString hps hs, below?_eq_some_iff.1 hbelow]
  obtain ⟨start, hstart, htail⟩ := exists_open_join root.parts hne
  rw [← hparts] at htail
  have hlist := congrArg String.toList hs
  rw [String.toList_append, htail] at hlist
  rcases root_text_of_absolute h.absolute with hroot | hroot
  · rw [hroot] at hlist
    exact ⟨start, hstart, hlist⟩
  · rw [hroot] at hlist
    exact ⟨'/' :: start, .append (.inr ⟨[], rfl⟩) hstart, hlist⟩

/-- A path behind a directory is spelt with its last name at the end, behind a slash. -/
theorem IsNormal.exists_front {base : Path} {s name : String} (h : IsNormal s)
    (hbelow : base.below? (ofString s) = some [name]) :
    ∃ front, s.toList = front ++ '/' :: name.toList := by
  obtain ⟨start, hstart, hlist⟩ := h.toList_of_below hbelow (List.cons_ne_nil name [])
  have hname : Text.join "/" [name] = name := by simp [Text.join]
  rw [hname] at hlist
  rcases hstart with rfl | ⟨front, rfl⟩
  · exact ⟨[], hlist⟩
  · exact ⟨'/' :: front, by rw [hlist]; simp⟩

/-- Cutting it at its slashes gives that name last. -/
theorem IsNormal.getLast?_split {base : Path} {s name : String} (h : IsNormal s)
    (hbelow : base.below? (ofString s) = some [name]) : (split '/' s).getLast? = some name := by
  obtain ⟨front, hlist⟩ := h.exists_front hbelow
  have hname : '/' ∉ name.toList := by
    refine (h.isProper_of_mem ?_).noSlash
    rw [below?_eq_some_iff.1 hbelow]
    exact List.mem_append_right _ (List.mem_singleton_self name)
  have hlast : split '/' name = [name] := by
    rw [split, pieces_of_not_mem hname, List.map_singleton, String.ofList_toList]
  rw [split_eq_of_toList hlist, hlast, List.getLast?_concat]

/-- A word without slashes that ends a path ends its last name. -/
theorem suffix_last_iff {front cs w : List Char} (hw : '/' ∉ w) :
    w <:+ front ++ '/' :: cs ↔ w <:+ cs := by
  constructor
  · intro h
    rcases List.suffix_or_suffix_of_suffix h (List.suffix_append front ('/' :: cs)) with h | h
    · rcases List.suffix_cons_iff.1 h with rfl | h
      · exact absurd List.mem_cons_self hw
      · exact h
    · exact absurd (h.subset List.mem_cons_self) hw
  · intro h
    exact (h.trans (List.suffix_cons '/' cs)).trans (List.suffix_append front _)

/-! ## How a path ends -/

/-- Joined names end with what the last of them ends with. -/
theorem suffix_join_iff {ps : List String} {p : String} {w : List Char} (hw : '/' ∉ w) :
    w <:+ (Text.join "/" (ps ++ [p])).toList ↔ w <:+ p.toList := by
  obtain ⟨start, hstart, hlist⟩ := exists_open_join ps (List.cons_ne_nil p [])
  have hjoin : Text.join "/" [p] = p := by simp [Text.join]
  rw [hlist, hjoin]
  rcases hstart with rfl | ⟨front, rfl⟩
  · exact Iff.rfl
  · rw [List.append_assoc]
    exact suffix_last_iff hw

/-- A path is spelt with its joined names at the end. -/
theorem suffix_toString {p : Path} {w : List Char} (hne : w ≠ [])
    (h : w <:+ (Text.join "/" p.parts).toList) : w <:+ p.toString.toList := by
  have hbody := h.trans (List.suffix_append p.root.text.toList _)
  rw [← String.toList_append] at hbody
  rw [Path.toString]
  split
  · rename_i hempty
    rw [hempty] at hbody
    exact absurd (List.suffix_nil.1 hbody) hne
  · exact hbody

/-- Cutting a text at its slashes keeps how it ends. -/
theorem exists_last_split {s : String} {w : List Char} (hw : '/' ∉ w) (h : w <:+ s.toList) :
    ∃ ps p, split '/' s = ps ++ [p] ∧ w <:+ p.toList := by
  have hjoin := join_split s
  rcases List.eq_nil_or_concat (split '/' s) with hnil | ⟨ps, p, hsplit⟩
  · exact absurd (List.map_eq_nil_iff.1 hnil) (pieces_ne_nil _ _)
  · rw [List.concat_eq_append] at hsplit
    rw [hsplit] at hjoin
    rw [← hjoin] at h
    exact ⟨ps, p, hsplit, (suffix_join_iff hw).1 h⟩

/-- Working out the dots leaves a last name that is none of them. -/
theorem exists_collapse_concat {p : String} (hne : p ≠ "") (hdot : p ≠ ".") (hdots : p ≠ "..")
    (names ps : List String) : ∃ qs, collapse names (ps ++ [p]) = qs ++ [p] := by
  induction ps generalizing names with
  | nil =>
    refine ⟨names.reverse, ?_⟩
    rw [List.nil_append, collapse, if_neg (by simp [hne, hdot]), if_neg hdots, collapse,
      List.reverse_cons]
  | cons q ps ih =>
    rw [List.cons_append, collapse]
    split
    · exact ih names
    · split
      · exact ih names.tail
      · exact ih (q :: names)

/-- Normalizing keeps how a path ends, if that is more than the dots could be. -/
theorem suffix_normalize {cwd s : String} {w : List Char} (hw : '/' ∉ w) (hlong : 2 < w.length)
    (h : w <:+ s.toList) : w <:+ (normalize cwd s).toList := by
  have habsolute : ∀ t : String, w <:+ t.toList → w <:+ (normalizeAbsolute t).toList := by
    intro t ht
    obtain ⟨ps, p, hsplit, hp⟩ := exists_last_split hw ht
    have hlength : ∀ q : String, q.toList.length ≤ 2 → p ≠ q := by
      rintro q hq rfl
      exact absurd hp.length_le (by omega)
    obtain ⟨qs, hqs⟩ := exists_collapse_concat (hlength "" (by decide)) (hlength "." (by decide))
      (hlength ".." (by decide)) [] ps
    rw [normalizeAbsolute, hsplit, hqs, String.toList_append]
    exact ((suffix_join_iff hw).2 hp).trans (List.suffix_append _ _)
  refine habsolute _ ?_
  rw [seenFrom]
  split
  · exact h
  split <;>
  · rw [String.toList_append]
    exact h.trans (List.suffix_append _ _)

end FeatureRun.Path
