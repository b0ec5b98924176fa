import FeatureRun.Catalog.Target
import FeatureRun.Catalog.Update
import FeatureRun.Proofs.Catalog.Node
import FeatureRun.Proofs.Feature.Block
import FeatureRun.Proofs.Path
import Mathlib.Data.List.Basic

/-!
# Targets select what they were made for

The target of a node is a path as seen from the workspace and the line of the node. Read again, the
path leads back to the file, and the text of the file has the node on that line.

* `splitTarget_path`, `splitTarget_line`: a target is cut where it was put together.
* `fileOf_relativePath`: the path of a file leads back to it.
* `Holds.readTarget_targetOf`: the round trip, for every node of a feature whose text is on the disk.
-/
set_option autoImplicit false

namespace FeatureRun.Catalog

open FeatureRun.Path (IsNormal)
open Feature

variable {root : Path} {file : String}

/-! ## The text of a target -/

/-- A text that ends with anything but a digit is a path without a line. -/
theorem splitTarget_path {s : String} {c : Char} (hlast : s.toList.getLast? = some c)
    (hc : Text.isDigit c = false) : splitTarget s = .ok (s, none) := by
  rw [splitTarget]
  split
  · rename_i path tail hsplit
    obtain ⟨⟨a, b⟩, hcut, hparts⟩ := Option.map_eq_some_iff.1 hsplit
    obtain rfl : String.ofList b = tail := congrArg Prod.snd hparts
    rw [if_neg]
    intro hline
    rw [Bool.and_eq_true, String.toList_ofList, List.all_eq_true] at hline
    obtain ⟨hne, hdigits⟩ := hline
    have hb : b ≠ [] := by
      rintro rfl
      exact absurd rfl (of_decide_eq_true hne)
    rw [Text.eq_of_cutLast? hcut, List.getLast?_append_of_ne_nil _ hb] at hlast
    rw [hdigits c (List.mem_of_getLast? hlast)] at hc
    nomatch hc
  · rfl

/-- The digits behind the last colon are the line. -/
theorem splitTarget_line (path : String) {n : Int} (hn : 0 ≤ n) (hfits : Fits n) :
    splitTarget (path ++ ":" ++ toString n) = .ok (path, some n) := by
  obtain ⟨m, rfl⟩ := Int.eq_ofNat_of_zero_le hn
  have hlist : (toString (m : Int)).toList = Text.digits m := Text.toList_toString_nat m
  generalize (m : Int) = n at hfits hlist ⊢
  have hdigits : ∀ c ∈ (toString n).toList, c.isDigit = true :=
    hlist ▸ fun c => Text.isDigit_of_mem_digits
  have hcolon : ':' ∉ (toString n).toList := fun h => absurd (hdigits _ h) (by decide)
  have hsplit : Text.splitLast? ":" (path ++ ":" ++ toString n) = some (path, toString n) := by
    rw [Text.splitLast?, String.toList_append, String.toList_append]
    exact (congrArg _ (Text.cutLast?_append_letter hcolon path.toList)).trans (by simp)
  have hne : toString n ≠ "" := by
    rw [Ne, ← String.toList_eq_nil_iff, hlist]
    exact Text.digits_ne_nil m
  have hall : (toString n).toList.all Text.isDigit = true :=
    List.all_eq_true.2 fun c hc => Text.isDigit_of_isDigit (hdigits c hc)
  rw [splitTarget, hsplit]
  simp only [hne, hall, ne_eq, not_false_eq_true, decide_true, Bool.and_self, if_true,
    Text.readInt_toString hfits.length]
  rfl

/-! ## The path of a file -/

/-- A path with proper names is looked up behind the names of the root. -/
theorem fileOf_eq {path : String} (hroot : root.root ≠ .none)
    (hbase : ∀ n ∈ root.parts, Path.IsProper n)
    (hpath : ∀ n ∈ Text.split '/' path, Path.IsProper n) :
    fileOf root path =
      root.root.text ++ Text.join "/" (root.parts ++ Text.split '/' path) := by
  have hread : Path.ofString path = ⟨.none, Text.split '/' path⟩ := by
    have htext := Path.ofString_text .none hpath
    rwa [Path.join_split, Path.Root.text, String.empty_append] at htext
  have hnames : ∀ n ∈ root.parts ++ Text.split '/' path, Path.IsProper n := fun n hn =>
    (List.mem_append.1 hn).elim (hbase n) (hpath n)
  have hrelative : ¬(Path.mk .none (Text.split '/' path)).isAbsolute = true := Bool.false_ne_true
  rw [fileOf, hread, Path.join, if_neg hrelative, Path.toString_of_root hroot]
  exact (Path.isNormal_text hroot hnames).normal

/-- The path of a file as seen from the workspace leads back to the file. -/
theorem fileOf_relativePath (h : IsNormal file) : fileOf root (relativePath root file) = file := by
  have hjoin : root.join (.ofString (relativePath root file)) = .ofString file := by
    rw [relativePath]
    split
    · rename_i names hbelow
      have hnames : ∀ n ∈ names, Path.IsProper n := by
        intro n hn
        refine h.isProper_of_mem ?_
        rw [Path.below?_eq_some_iff.1 hbelow]
        exact List.mem_append_right _ hn
      rw [Path.ofString_toString hnames, Path.join_of_below hbelow]
    · rw [h.toString_ofString, Path.join, if_pos h.isAbsolute_ofString]
  rw [fileOf, hjoin, h.toString_ofString, h.normal]

/-- The path of a feature file does not end with a digit. -/
theorem getLast?_relativePath (h : IsNormal file)
    (hsuffix : Text.endsWith file ".feature" = true) :
    ∃ c, (relativePath root file).toList.getLast? = some c ∧ Text.isDigit c = false := by
  have hfile : file.toList.getLast? = some 'e' := by
    obtain ⟨front, hfront⟩ := List.isSuffixOf_iff_suffix.1 hsuffix
    rw [← hfront, List.getLast?_append_of_ne_nil _ (by decide)]
    rfl
  rw [relativePath]
  split
  · rename_i names hbelow
    rw [Path.toString, Path.Root.text, String.empty_append]
    split
    · exact ⟨'.', rfl, by decide⟩
    · rename_i hjoin
      have hne : names ≠ [] := by
        rintro rfl
        exact hjoin rfl
      obtain ⟨start, -, hlist⟩ := h.toList_of_below hbelow hne
      rw [hlist, ← List.cons_append,
        List.getLast?_append_of_ne_nil _ (mt String.toList_eq_nil_iff.1 hjoin)] at hfile
      exact ⟨'e', hfile, by decide⟩
  · exact ⟨'e', by rwa [h.toString_ofString], by decide⟩

/-! ## Looking up a line -/

section Look

variable {c : Catalog} {disk : FileTree} {f : Feature} {text path : String} {n : Int}

/-- A path alone selects the file. -/
theorem readTarget_path (hget : c.get? file = some f) (hnormal : IsNormal file)
    (hsuffix : Text.endsWith file ".feature" = true) :
    readTarget c disk root (relativePath root file) = .ok file := by
  obtain ⟨e, hlast, he⟩ : ∃ e, (relativePath root file).toList.getLast? = some e ∧ _ :=
    getLast?_relativePath hnormal hsuffix
  simp only [readTarget, splitTarget_path hlast he, fileOf_relativePath hnormal, hget]

/-- The line of a rule selects the rule, -/
theorem readTarget_rule {r : Rule} (hget : c.get? file = some f) (hpath : fileOf root path = file)
    (hn : 0 ≤ n) (hfits : Fits n) (hrule : ruleOn? f n = some r) :
    readTarget c disk root (path ++ ":" ++ toString n) = .ok (ruleId file n) := by
  simp only [readTarget, splitTarget_line _ hn hfits, hpath, hget, hrule, Option.isSome_some,
    if_true]

/-- and any other line what the text of the file has there. -/
theorem readTarget_line {found : Option String} (hget : c.get? file = some f)
    (hpath : fileOf root path = file) (hn : 0 ≤ n) (hfits : Fits n) (hrule : ruleOn? f n = none)
    (htext : textOf disk file = .ok text) (hat : c.idAt? file text n = .ok found) :
    readTarget c disk root (path ++ ":" ++ toString n) =
      found.elim (.error (.noScenario path n)) .ok := by
  rw [textOf] at htext
  simp only [readTarget, splitTarget_line _ hn hfits, hpath, hget, hrule, Option.isSome_none,
    Bool.false_eq_true, if_false, htext, hat]
  cases found <;> rfl

theorem Holds.known?_id {x : NodeRef} (h : c.Holds file f) (hx : f.Refers file x) :
    c.known? x.id = .ok (some x.id) := by
  obtain ⟨node, hnode⟩ := h.resolve_id hx
  rw [known?, hnode]
  rfl

theorem Holds.idAt?_scenario {s : Scenario} (h : c.Holds file f)
    (hread : Feature.read text file = some f) (hs : s ∈ f.scenarios) :
    c.idAt? file text s.line = .ok (some (scenarioId file s.line)) := by
  have hknown : c.known? (scenarioId file s.line) = .ok (some (scenarioId file s.line)) :=
    h.known?_id (.scenario hs)
  simp only [idAt?, exampleAt?_scenario hread hs, scenarioAt?_scenario hread hs, hknown]

theorem Holds.idAt?_row {s : Scenario} {row : Row} (h : c.Holds file f)
    (hread : Feature.read text file = some f) (hs : s ∈ f.scenarios) (hrow : row ∈ s.rows) :
    c.idAt? file text row.line = .ok (some (rowId file s.line row.line)) := by
  have hknown : c.known? (rowId file s.line row.line) = .ok (some (rowId file s.line row.line)) :=
    h.known?_id (.row hs hrow)
  simp only [idAt?, exampleAt?_row hread hs hrow, hknown]

/-- No row is found on a line without one. -/
theorem Holds.known?_row_eq_none (h : c.Holds file f) {o : Int} (ho : Fits o) (hn : Fits n)
    (hno : ∀ t ∈ f.scenarios, ∀ row ∈ t.rows, row.line ≠ n) :
    c.known? (rowId file o n) = .ok none := by
  have hread : NodeRef.read (rowId file o n) = .ok (.row file o n) :=
    h.id.read_id rfl ⟨ho, hn⟩
  have hnode : c.node? (.row file o n) = none := by
    refine Option.eq_none_iff_forall_ne_some.2 fun node hnode => ?_
    obtain ⟨f', hget, hx⟩ := exists_denotes_of_node? hnode
    obtain rfl : f = f' := Option.some.inj (h.get.symm.trans hget)
    cases hx with
    | row hs hrow => exact hno _ hs _ hrow rfl
  rw [known?, resolve, hread, Except.map, hnode]
  rfl

/-- A line without a row is looked up by what stands above it. -/
theorem Holds.idAt?_of_no_row (h : c.Holds file f) (hn : Fits n)
    (hno : ∀ t ∈ f.scenarios, ∀ row ∈ t.rows, row.line ≠ n) :
    c.idAt? file text n =
      (scenarioAt? text n).elim (.ok none) fun s => c.known? (scenarioId file s.line) := by
  rw [idAt?]
  cases hat : exampleAt? text n with
  | none => cases scenarioAt? text n <;> rfl
  | some found =>
    obtain ⟨o, r⟩ := found
    obtain ⟨rfl, ho, hor⟩ := le_of_exampleAt? hat
    have hfits : Fits o := hn.mono (by omega)
    simp only [h.known?_row_eq_none hfits hn hno]
    cases scenarioAt? text r <;> rfl

/-! ## The target of a node -/

theorem nonzero_some {n : Int} (h : 1 ≤ n) : nonzero (some n) = some n := by
  rw [nonzero, Option.filter_some, if_pos (decide_eq_true (by omega))]

theorem text_line (path : String) {line : Int} (h : 1 ≤ line) :
    (Target.mk path (some line) none).text = path ++ ":" ++ toString line := by
  rw [Target.text, nonzero_some h]
  rfl

theorem text_row (path : String) (scenarioLine : Int) {line : Int} (h : 1 ≤ line) :
    (Target.mk path (some scenarioLine) (some line)).text = path ++ ":" ++ toString line := by
  rw [Target.text, nonzero_some h]
  rfl

/-- The target of a node, read again, selects the node. -/
theorem Holds.readTarget_targetOf (h : c.Holds file f) (hnormal : IsNormal file)
    (htext : textOf disk file = .ok text) (hread : Feature.read text file = some f) {x : NodeRef}
    (hx : f.Refers file x) : readTarget c disk root (targetOf root x).text = .ok x.id := by
  have hpos : ∀ {n : Int}, 1 ≤ n → 0 ≤ n := Int.le_trans (by decide)
  cases hx with
  | feature => exact readTarget_path h.get hnormal h.id.suffix
  | @rule r hr =>
    have hnode := mem_nodes_rule hr
    have hline : 1 ≤ r.line := one_le_line hread hnode
    rw [targetOf, text_line _ hline]
    exact readTarget_rule h.get (fileOf_relativePath hnormal) (hpos hline) (h.fits _ hnode)
      (ruleOn?_eq h.ordered hr)
  | @scenario s hs =>
    have hnode := mem_nodes_scenario hs
    have hline : 1 ≤ s.line := one_le_line hread hnode
    rw [targetOf, text_line _ hline]
    exact readTarget_line h.get (fileOf_relativePath hnormal) (hpos hline) (h.fits _ hnode)
      (ruleOn?_eq_none h.ordered hnode nofun) htext (h.idAt?_scenario hread hs)
  | @row s row hs hrow =>
    have hnode := mem_nodes_row hs hrow
    have hline : 1 ≤ row.line := one_le_line hread hnode
    rw [targetOf, text_row _ _ hline]
    exact readTarget_line h.get (fileOf_relativePath hnormal) (hpos hline) (h.fits _ hnode)
      (ruleOn?_eq_none h.ordered hnode nofun) htext (h.idAt?_row hread hs hrow)

end Look

end FeatureRun.Catalog
