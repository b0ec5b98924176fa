import FeatureRun.Proofs.Discovery
import FeatureRun.Watch.Filter

/-!
# What the watcher looks at

Of the files that discovery finds the watcher passes over those with the names of leftovers. It
looks at all others and at nothing else below the root, so for them the two agree.

* `IsIgnored`, `isLeftover_eq_true_iff`: the names of leftovers, and those that a feature file can
  have.
* `accepts_iff`: when the watcher accepts a path below the root.
* `accepts_iff_discovered`: what it accepts is what is discovered, but for leftovers.
* `IsWatched`, `mem_discovered`: a file that the watcher accepts is discovered.
-/
set_option autoImplicit false

namespace FeatureRun

open Text

namespace Watch

/-- A text ends with a word, or with the word and a line feed. -/
def EndsLine (w cs : List Char) : Prop := w <:+ cs ∨ w ++ ['\n'] <:+ cs

/-- The names of leftovers: compiled files, what editors write while they save or lock a file,
copies made for checking, and what a file manager keeps about a directory. -/
inductive IsIgnored : List Char → Prop where
  | compiled {cs : List Char} {c : Char} (hc : c ∈ ['c', 'o', 'd'])
    (h : EndsLine ['.', 'p', 'y', c] cs) : IsIgnored cs
  | saving {cs : List Char} {a b c : Char} (habc : '\n' ∉ [a, b, c])
    (h : EndsLine (".___jb_".toList ++ [a, b, c] ++ "___".toList) cs) : IsIgnored cs
  | swap {cs : List Char} {c : Char} (hc : c ≠ '\n') (h : EndsLine ['.', 's', 'w', c] cs) :
    IsIgnored cs
  | backup {cs : List Char} (h : EndsLine ['~'] cs) : IsIgnored cs
  | lock {cs : List Char} (h : ".#".toList <+: cs) : IsIgnored cs
  | directory {cs : List Char} (h : cs = ".DS_Store".toList ∨ cs = ".DS_Store\n".toList) :
    IsIgnored cs
  | check {cs : List Char} (h : "flycheck_".toList <+: cs) : IsIgnored cs

/-- An absolute path in normal form that the watcher accepts. -/
structure IsWatched (root : Path) (excluded : List String) (file : String) : Prop where
  normal : Path.IsNormal file
  accepted : accepts root excluded file = true

variable {disk : FileTree} {root : Path} {excluded dirs : List String} {name path : String}

/-! ## The names of leftovers -/

/-- Of two words that end a text one ends the other, and no line feed stands behind them. -/
theorem not_endsLine {w cs : List Char} (h : ".feature".toList <:+ cs)
    (hshort : ¬w <:+ ".feature".toList) (hlong : ¬".feature".toList <:+ w) : ¬EndsLine w cs := by
  rintro (hw | hw)
  · exact (List.suffix_or_suffix_of_suffix hw h).elim hshort hlong
  · obtain ⟨front, rfl⟩ := hw
    obtain ⟨name, hname⟩ := h
    have hlast := congrArg List.getLast? hname
    rw [← List.append_assoc, List.getLast?_concat, List.getLast?_append] at hlast
    cases hlast

/-- The leftovers that have the name of a feature file are told by the beginning of their names. -/
theorem isLeftover_eq_true_iff (h : Discovery.isFeatureName name = true) :
    isLeftover name = true ↔ IsIgnored name.toList := by
  have hsuffix : ".feature".toList <:+ name.toList := List.isSuffixOf_iff_suffix.1 h
  have hstarts : ∀ w : String, startsWith name w = true ↔ w.toList <+: name.toList :=
    fun w => List.isPrefixOf_iff_prefix
  rw [isLeftover, leftoverBeginnings, List.any_eq_true]
  simp only [List.mem_cons, List.not_mem_nil, or_false, exists_eq_or_imp, exists_eq_left, hstarts]
  constructor
  · rintro (hlock | hcheck)
    · exact .lock hlock
    · exact .check hcheck
  · intro hignored
    cases hignored with
    | lock hlock => exact .inl hlock
    | check hcheck => exact .inr hcheck
    | compiled hc hends =>
      simp only [List.mem_cons, List.not_mem_nil, or_false] at hc
      rcases hc with rfl | rfl | rfl <;>
        exact absurd hends (not_endsLine hsuffix (by decide) (by decide))
    | saving habc hends =>
      refine absurd hends (not_endsLine hsuffix (fun hw => ?_) fun hw => ?_)
      · exact absurd hw.length_le (by simp)
      · exact absurd (List.suffix_iff_eq_drop.1 hw) (by simp)
    | swap hc hends =>
      refine absurd hends (not_endsLine hsuffix (fun hw => ?_) fun hw => ?_)
      · exact absurd (List.suffix_iff_eq_drop.1 hw) (by simp)
      · exact absurd hw.length_le (by simp)
    | backup hends => exact absurd hends (not_endsLine hsuffix (by decide) (by decide))
    | directory hname =>
      rcases hname with hname | hname <;>
        exact absurd (hname ▸ hsuffix) (by decide)

/-! ## Paths below the root -/

/-- The watcher accepts a path below the root if it has the name of a feature file and not that of a
leftover, and no directory on the way to it is excluded. -/
theorem accepts_iff (h : Path.IsNormal path)
    (hbelow : root.below? (.ofString path) = some (dirs ++ [name])) :
    accepts root excluded path = true ↔
      (∀ d ∈ dirs, d ∉ excluded) ∧ Discovery.isFeatureName name = true ∧
        isLeftover name = false := by
  have hlast := h.getLast?_split (Discovery.below?_dir hbelow)
  rw [accepts, Discovery.isFeatureName_last h hbelow, hbelow]
  simp only [List.dropLast_concat, hlast, Option.getD_some, Bool.and_eq_true, Bool.not_eq_true',
    List.any_eq_false, List.contains_iff_mem]
  exact and_left_comm

/-- The files that the watcher looks at are those that discovery finds, whatever kind of change is
reported, but for those with the name of a leftover. Directories may lie in each other in any way,
and the root itself may lie below an excluded name. -/
theorem accepts_iff_discovered (c : Change)
    (h : Discovery.IsFileBelow disk root dirs name c.path) :
    accepts root excluded c.path = true ↔
      Path.ofString c.path ∈ Discovery.featureFiles disk root excluded ∧
        ¬IsIgnored name.toList := by
  rw [accepts_iff h.normal h.below, Discovery.mem_featureFiles_iff h]
  constructor
  · rintro ⟨hdirs, hname, hleftover⟩
    refine ⟨⟨hdirs, hname⟩, fun hignored => ?_⟩
    rw [(isLeftover_eq_true_iff hname).2 hignored] at hleftover
    cases hleftover
  · rintro ⟨⟨hdirs, hname⟩, hkept⟩
    exact ⟨hdirs, hname, Bool.eq_false_iff.2 (mt (isLeftover_eq_true_iff hname).1 hkept)⟩

/-- The root lies below a directory with an excluded name, and the file two directories further
down. -/
theorem accepts_iff_discovered_of_nested : ∃ disk,
    Discovery.IsFileBelow disk ⟨.slash, ["target", "w"]⟩ ["specs", "login"] "a.feature"
      "/target/w/specs/login/a.feature" ∧
    Path.ofString "/target/w/specs/login/a.feature" ∈
      Discovery.featureFiles disk ⟨.slash, ["target", "w"]⟩ ["target"] := by
  let disk : FileTree := .dir [("target", .dir [("w", .dir
    [("specs", .dir [("login", .dir [("a.feature", .file [])])])])])]
  have hfile : Discovery.IsFileBelow disk ⟨.slash, ["target", "w"]⟩ ["specs", "login"] "a.feature"
      "/target/w/specs/login/a.feature" := ⟨⟨by decide, by decide⟩, by decide, by decide⟩
  let c : Change := ⟨.modified, "/target/w/specs/login/a.feature"⟩
  have haccepted : accepts ⟨.slash, ["target", "w"]⟩ ["target"] c.path = true := by decide
  exact ⟨disk, hfile, ((accepts_iff_discovered c hfile).1 haccepted).1⟩

/-- A file with the name of a copy made for checking is discovered, and no change of it is looked
at. -/
theorem discovered_not_accepted : ¬∀ (disk : FileTree) (root : Path) (excluded dirs : List String)
    (name : String) (c : Change), Discovery.IsFileBelow disk root dirs name c.path →
      (accepts root excluded c.path = true ↔
        Path.ofString c.path ∈ Discovery.featureFiles disk root excluded) := by
  intro h
  let disk : FileTree := .dir [("w", .dir [("flycheck_a.feature", .file [])])]
  have hfile : Discovery.IsFileBelow disk ⟨.slash, ["w"]⟩ [] "flycheck_a.feature"
      "/w/flycheck_a.feature" := ⟨⟨by decide, by decide⟩, by decide, by decide⟩
  have hfound : Path.ofString "/w/flycheck_a.feature" ∈
      Discovery.featureFiles disk ⟨.slash, ["w"]⟩ [] :=
    (Discovery.mem_featureFiles_iff hfile).2 ⟨by simp, by decide⟩
  have hseen := (h disk _ [] [] _ ⟨.modified, "/w/flycheck_a.feature"⟩ hfile).2 hfound
  exact absurd hseen (by decide)

end Watch

namespace Workspace

variable {w : Workspace} {file : String} {bytes : Bytes}

/-- A regular file that the watcher accepts is discovered. The watcher also accepts the root if that
has such a name, but only a directory is searched. -/
theorem mem_discovered (h : Watch.IsWatched w.root w.settings.excludeDirs file)
    (hroot : Path.ofString file = w.root → w.disk.isFile? w.root = false)
    (hfile : w.disk.bytes? (.ofString file) = some bytes) :
    file ∈ w.discovered := by
  have haccepted := h.accepted
  have hisFile : w.disk.isFile? (.ofString file) = true := by rw [FileTree.isFile?_eq, hfile]; rfl
  cases hbelow : w.root.below? (.ofString file) with
  | none => simp [Watch.accepts, hbelow] at haccepted
  | some names =>
    rcases List.eq_nil_or_concat names with rfl | ⟨dirs, name, rfl⟩
    · have hpath := Path.below?_eq_some_iff.1 hbelow
      rw [List.append_nil] at hpath
      rw [hpath, hroot hpath] at hisFile
      cases hisFile
    rw [List.concat_eq_append] at hbelow
    obtain ⟨hdirs, hname, -⟩ := (Watch.accepts_iff h.normal hbelow).1 haccepted
    have hmem := (Discovery.mem_featureFiles_iff ⟨h.normal, hbelow, hisFile⟩).2 ⟨hdirs, hname⟩
    refine List.mem_map.2 ⟨_, hmem, ?_⟩
    rw [h.normal.toString_ofString, fileId_eq _ h.normal]

end Workspace
end FeatureRun
