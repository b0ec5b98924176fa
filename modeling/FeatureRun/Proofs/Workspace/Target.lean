import FeatureRun.Proofs.Catalog.Target
import FeatureRun.Proofs.Text.Utf8
import FeatureRun.Proofs.Watch.Filter
import FeatureRun.Workspace.Opening

/-!
# What is run for the nodes of a workspace

For a discovered file of which the catalog has what stands in it now, the target of a node selects
exactly that node, and a line typed by a user selects the row or the scenario that it belongs to.

* `Current`: such a file. `IsCurrent`: a node in one.
* `readTarget_targetFor`: the round trip, and that different nodes run as different targets.
* `readTarget_inBlock`: what the lines in the block of a scenario select.
-/
set_option autoImplicit false

namespace FeatureRun.Workspace

open Catalog

/-- A discovered file of which the catalog has what stands in it now. -/
structure Current (w : Workspace) (file : String) (f : Feature) : Prop where
  found : file ∈ w.discovered
  id : IsFileId file
  get : w.catalog.get? file = some f
  read : ∃ text, Catalog.textOf w.disk file = .ok text ∧ Feature.read text file = some f ∧
    Fits (Feature.linesOf text).length

/-- A node of such a file. -/
def IsCurrent (w : Workspace) (id : String) : Prop :=
  ∃ file f ids, w.Current file f ∧ w.catalog.descendants file = .ok ids ∧ id ∈ ids

variable {w : Workspace} {file : String} {f : Feature} {id : String}

theorem Current.holds (h : w.Current file f) : w.catalog.Holds file f := by
  obtain ⟨text, -, hread, hfits⟩ := h.read
  exact holds_of_read h.get h.id hread hfits

theorem Current.descendants_file (h : w.Current file f) :
    w.catalog.descendants file = .ok ((f.refs file).map NodeRef.id) :=
  h.holds.descendants_id (x := .feature file) .feature

/-- What is run for a node is read again as the node. -/
theorem IsCurrent.exists_target (hroot : w.root.isAbsolute = true) (h : w.IsCurrent id) :
    ∃ t, targetFor w.root id = .ok t ∧ readTarget w.catalog w.disk w.root t.text = .ok id := by
  obtain ⟨file, f, ids, hfile, hids, hid⟩ := h
  rw [hfile.descendants_file] at hids
  cases hids
  obtain ⟨x, hx, rfl⟩ := List.mem_map.1 hid
  have hrefers := Feature.mem_refs.1 hx
  obtain ⟨text, htext, hread, -⟩ := hfile.read
  refine ⟨targetOf w.root x, ?_, ?_⟩
  · rw [targetFor, hfile.holds.read_id hrefers]
    rfl
  · exact hfile.holds.readTarget_targetOf (isNormal_of_mem_discovered hroot hfile.found) htext hread
      hrefers

/-- The nodes of every discovered file of which the catalog has what stands in it now are listed;
what is run for each of them is read again as that node, and so no two of them run as the same. -/
theorem readTarget_targetFor (hroot : w.root.isAbsolute = true) :
    (∀ file f, w.Current file f → ∃ ids, w.catalog.descendants file = .ok ids) ∧
    (∀ id, w.IsCurrent id → ∃ t, targetFor w.root id = .ok t ∧
      readTarget w.catalog w.disk w.root t.text = .ok id) ∧
    ∀ id id' t t', w.IsCurrent id → w.IsCurrent id' → targetFor w.root id = .ok t →
      targetFor w.root id' = .ok t' → id ≠ id' → t.text ≠ t'.text := by
  refine ⟨fun file f h => ⟨_, h.descendants_file⟩, fun id => IsCurrent.exists_target hroot, ?_⟩
  intro id id' t t' hid hid' ht ht' hne htext
  obtain ⟨u, hu, hread⟩ := hid.exists_target hroot
  obtain ⟨u', hu', hread'⟩ := hid'.exists_target hroot
  obtain rfl : t = u := Except.ok.inj (ht.symm.trans hu)
  obtain rfl : t' = u' := Except.ok.inj (ht'.symm.trans hu')
  rw [htext, hread'] at hread
  exact hne (Except.ok.inj hread).symm

/-- An example row of a discovered file: it runs as its line, and that line selects it. -/
theorem readTarget_targetFor_of_row : ∃ (w : Workspace) (f : Feature) (t : Target),
    w.root.isAbsolute = true ∧ w.Current "/w/a.feature" f ∧
    w.IsCurrent "/w/a.feature:scenario:2:example:5" ∧
    targetFor w.root "/w/a.feature:scenario:2:example:5" = .ok t ∧ t.text = "a.feature:5" ∧
    readTarget w.catalog w.disk w.root t.text = .ok "/w/a.feature:scenario:2:example:5" := by
  let text := "Feature:\nScenario Outline:\nExamples:\n|\n|"
  let bytes := Text.Utf8.encode text
  let s : Scenario := ⟨"", 2, true, [⟨5, "|"⟩]⟩
  let f : Feature := ⟨"", 1, "/w/a.feature", [.scenario s]⟩
  let w : Workspace :=
    { Workspace.start ⟨.dir [("w", .dir [("a.feature", .file bytes)])], .empty, .new, "/w", "", 0, 0,
        [], [], .usual⟩ with
      catalog := Catalog.empty.readFile "/w/a.feature" text }
  have hwatched : Watch.IsWatched w.root w.settings.excludeDirs "/w/a.feature" :=
    ⟨⟨by decide, by decide⟩, by decide⟩
  have hbytes : w.disk.bytes? (.ofString "/w/a.feature") = some bytes := rfl
  have hfound : "/w/a.feature" ∈ w.discovered := mem_discovered hwatched (by decide) hbytes
  have htext : Catalog.textOf w.disk "/w/a.feature" = .ok text := by
    have hdisk : w.disk.readBytes (.ofString "/w/a.feature") "/w/a.feature" = .ok bytes := rfl
    have hdecode : Text.Utf8.decode bytes = .ok text := Text.Utf8.decode_encode text
    rw [Catalog.textOf, FileTree.readText, hdisk]
    simp only [hdecode]
    decide
  have hread : Feature.read text "/w/a.feature" = some f := by decide
  have hfile : w.Current "/w/a.feature" f :=
    ⟨hfound, ⟨by decide, by decide, by decide⟩, by decide, text, htext, hread, ⟨by decide⟩⟩
  have hs : s ∈ f.scenarios := List.mem_singleton.2 rfl
  have hrow : ⟨5, "|"⟩ ∈ s.rows := List.mem_singleton.2 rfl
  have hcurrent : w.IsCurrent "/w/a.feature:scenario:2:example:5" :=
    ⟨_, f, _, hfile, hfile.descendants_file,
      List.mem_map.2 ⟨_, Feature.mem_refs.2 (.row hs hrow), by decide⟩⟩
  have hroot : w.root.isAbsolute = true := rfl
  obtain ⟨t, ht, htarget⟩ := (readTarget_targetFor hroot).2.1 _ hcurrent
  have hline : targetFor w.root "/w/a.feature:scenario:2:example:5" =
      .ok ⟨"a.feature", some 2, some 5⟩ := by decide
  obtain rfl : _ = t := Except.ok.inj (hline.symm.trans ht)
  exact ⟨w, f, _, hroot, hfile, hcurrent, hline, by decide, htarget⟩

/-! ## A workspace with one file -/

/-- A workspace with one file, of which the catalog has what stands in it. -/
def single (text : String) : Workspace :=
  { Workspace.start ⟨.dir [("w", .dir [("a.feature", .file (Text.Utf8.encode text))])], .empty, .new,
      "/w", "", 0, 0, [], [], .usual⟩ with
    catalog := Catalog.empty.readFile "/w/a.feature" text }

theorem textOf_single {text : String} (hbreaks : Text.unifyBreaks text.toList = text.toList) :
    Catalog.textOf (single text).disk "/w/a.feature" = .ok text := by
  have hdisk : (single text).disk.readBytes (.ofString "/w/a.feature") "/w/a.feature" =
      .ok (Text.Utf8.encode text) := rfl
  rw [Catalog.textOf, FileTree.readText, hdisk]
  simp only [Text.Utf8.decode_encode, hbreaks, String.ofList_toList]

theorem current_single {text : String} {f : Feature}
    (hbreaks : Text.unifyBreaks text.toList = text.toList)
    (hread : Feature.read text "/w/a.feature" = some f)
    (hfits : Fits (Feature.linesOf text).length) : (single text).Current "/w/a.feature" f where
  found := by
    have hwatched : Watch.IsWatched (single "").root (single "").settings.excludeDirs
        "/w/a.feature" := ⟨⟨by decide, by decide⟩, by decide⟩
    have hroot : Path.ofString "/w/a.feature" ≠ (single "").root := by decide
    exact mem_discovered (w := single text) hwatched (fun h => absurd h hroot) rfl
  id := ⟨by decide, by decide, by decide⟩
  get := by
    rw [single, Catalog.readFile, hread]
    exact (OrderedMap.get?_insert _ _ _ _).trans (if_pos rfl)
  read := ⟨text, textOf_single hbreaks, hread, hfits⟩

/-! ## Lines -/

section Lines

open Feature (InBlock Opens strippedLines)

variable {text path : String} {s : Scenario} {n : Int}

/-- What a line in the block of a scenario selects is what looking it up in the text gives. -/
theorem Current.readTarget_of_idAt? {found : Option String} (hfile : w.Current file f)
    (htext : Catalog.textOf w.disk file = .ok text) (hread : Feature.read text file = some f)
    (hpath : fileOf w.root path = file) (hs : s ∈ f.scenarios)
    (hin : InBlock (strippedLines text) s.line n) (hn : Fits n)
    (hat : w.catalog.idAt? file text n = .ok found) :
    readTarget w.catalog w.disk w.root (path ++ ":" ++ toString n) =
      found.elim (.error (.noScenario path n)) .ok := by
  have hpos : 0 ≤ n := by
    have hline : 1 ≤ s.line := Feature.one_le_line hread (Feature.mem_nodes_scenario hs)
    have hle := hin.le
    omega
  have hrule : ruleOn? f n = none := List.find?_eq_none.2 fun r hr hline =>
    Feature.line_rule_ne hread hs hin hr (of_decide_eq_true hline)
  exact readTarget_line hfile.get hpath hpos hn hrule htext hat

/-- A line in the block of a scenario selects the example row on it, and if there is none, the
scenario. Only a further `Feature:` line in the block hides the scenario from the lines below. -/
theorem readTarget_inBlock (hfile : w.Current file f)
    (htext : Catalog.textOf w.disk file = .ok text) (hpath : fileOf w.root path = file)
    (hs : s ∈ f.scenarios) (hin : InBlock (strippedLines text) s.line n) :
    (∀ row ∈ s.rows, row.line = n →
      readTarget w.catalog w.disk w.root (path ++ ":" ++ toString n) = .ok (rowId file s.line n)) ∧
    ((∀ row ∈ s.rows, row.line ≠ n) →
      (∀ k : Nat, s.line ≤ k → k < n → ¬Opens (strippedLines text) "Feature:" k) →
      readTarget w.catalog w.disk w.root (path ++ ":" ++ toString n) =
        .ok (scenarioId file s.line)) ∧
    ((∀ row ∈ s.rows, row.line ≠ n) →
      (∃ k : Nat, s.line ≤ k ∧ k < n ∧ Opens (strippedLines text) "Feature:" k) →
      readTarget w.catalog w.disk w.root (path ++ ":" ++ toString n) =
        .error (.noScenario path n)) := by
  obtain ⟨text', htext', hread, hlength⟩ := hfile.read
  obtain rfl : text = text' := Except.ok.inj (htext.symm.trans htext')
  have hn : Fits n := by
    obtain ⟨_, j, -, rfl, -, hj, -⟩ := hin.exists_positions hread hs
    exact hlength.mono (by omega)
  have hnone : (∀ row ∈ s.rows, row.line ≠ n) → ∀ t ∈ f.scenarios, ∀ row ∈ t.rows, row.line ≠ n :=
    fun hno t ht row hrow hline =>
      hno row (Feature.eq_of_row_inBlock hread hs hin ht hrow hline ▸ hrow) hline
  refine ⟨fun row hrow hline => ?_, fun hno hclear => ?_, fun hno hfeature => ?_⟩
  · subst hline
    have hat := hfile.holds.idAt?_row hread hs hrow
    exact hfile.readTarget_of_idAt? htext hread hpath hs hin hn hat
  · have hknown : w.catalog.known? (scenarioId file s.line) = .ok (some (scenarioId file s.line)) :=
      hfile.holds.known?_id (.scenario hs)
    have hat : w.catalog.idAt? file text n = .ok (some (scenarioId file s.line)) := by
      rw [hfile.holds.idAt?_of_no_row hn (hnone hno),
        Feature.scenarioAt?_inBlock hread hs hin hclear, Option.elim_some, hknown]
    exact hfile.readTarget_of_idAt? htext hread hpath hs hin hn hat
  · have hat : w.catalog.idAt? file text n = .ok none := by
      rw [hfile.holds.idAt?_of_no_row hn (hnone hno),
        Feature.scenarioAt?_behind_feature hread hs hin hfeature, Option.elim_none]
    exact hfile.readTarget_of_idAt? htext hread hpath hs hin hn hat

/-- The heading of a table selects its outline, the row in the table itself, and the line below a
further `Feature:` line nothing. -/
theorem readTarget_inBlock_of_outline :
    ∃ (w : Workspace) (f : Feature) (s : Scenario) (text : String),
    w.Current "/w/a.feature" f ∧ Catalog.textOf w.disk "/w/a.feature" = .ok text ∧
    fileOf w.root "a.feature" = "/w/a.feature" ∧ s ∈ f.scenarios ∧
    InBlock (strippedLines text) s.line 3 ∧ InBlock (strippedLines text) s.line 5 ∧
    InBlock (strippedLines text) s.line 7 ∧
    readTarget w.catalog w.disk w.root ("a.feature" ++ ":" ++ toString (3 : Int)) =
      .ok (scenarioId "/w/a.feature" 2) ∧
    readTarget w.catalog w.disk w.root ("a.feature" ++ ":" ++ toString (5 : Int)) =
      .ok (rowId "/w/a.feature" 2 5) ∧
    readTarget w.catalog w.disk w.root ("a.feature" ++ ":" ++ toString (7 : Int)) =
      .error (.noScenario "a.feature" 7) := by
  let text := "Feature:\nScenario Outline:\nExamples:\n|\n|\nFeature:\n"
  let s : Scenario := ⟨"", 2, true, [⟨5, "|"⟩]⟩
  let f : Feature := ⟨"", 1, "/w/a.feature", [.scenario s]⟩
  have hbreaks : Text.unifyBreaks text.toList = text.toList := by decide
  have hread : Feature.read text "/w/a.feature" = some f := by decide
  have hfile : (single text).Current "/w/a.feature" f := current_single hbreaks hread ⟨by decide⟩
  have htext := textOf_single hbreaks
  have hpath : fileOf (single text).root "a.feature" = "/w/a.feature" := by decide
  have hs : s ∈ f.scenarios := List.mem_singleton.2 rfl
  have h3 : InBlock (strippedLines text) s.line 3 :=
    Feature.inBlock_of_lines (i := 1) (j := 2) (by decide) (by decide) (by decide)
  have h5 : InBlock (strippedLines text) s.line 5 :=
    Feature.inBlock_of_lines (i := 1) (j := 4) (by decide) (by decide) (by decide)
  have h7 : InBlock (strippedLines text) s.line 7 :=
    Feature.inBlock_of_lines (i := 1) (j := 6) (by decide) (by decide) (by decide)
  have hheading : ∀ k : Nat, s.line ≤ k → (k : Int) < 3 →
      ¬Opens (strippedLines text) "Feature:" k := by
    intro k hk hk3
    have hline : s.line = 2 := rfl
    obtain rfl : k = 2 := by omega
    exact Feature.not_opens_feature (l := .examples) (by decide) nofun
  exact ⟨single text, f, s, text, hfile, htext, hpath, hs, h3, h5, h7,
    (readTarget_inBlock hfile htext hpath hs h3).2.1 (by decide) hheading,
    (readTarget_inBlock hfile htext hpath hs h5).1 _ List.mem_cons_self rfl,
    (readTarget_inBlock hfile htext hpath hs h7).2.2 (by decide)
      ⟨5, by decide, by decide, "", by decide⟩⟩

/-- A blank line in the block of a scenario, below a further `Feature:` line: it does not select the
scenario. -/
theorem not_readTarget_of_further_feature :
    ∃ (w : Workspace) (f : Feature) (s : Scenario) (text : String),
    w.Current "/w/a.feature" f ∧ Catalog.textOf w.disk "/w/a.feature" = .ok text ∧
    fileOf w.root "a.feature" = "/w/a.feature" ∧ s ∈ f.scenarios ∧ f.line < s.line ∧
    InBlock (strippedLines text) s.line 4 ∧ ¬Opens (strippedLines text) "Feature:" 3 ∧
    (∀ row ∈ s.rows, row.line ≠ 4) ∧
    readTarget w.catalog w.disk w.root ("a.feature" ++ ":" ++ toString (4 : Int)) ≠
      .ok (scenarioId "/w/a.feature" s.line) := by
  let text := "Feature:\nScenario:\nFeature:\n"
  let s : Scenario := ⟨"", 2, false, []⟩
  let f : Feature := ⟨"", 1, "/w/a.feature", [.scenario s]⟩
  have hbreaks : Text.unifyBreaks text.toList = text.toList := by decide
  have hread : Feature.read text "/w/a.feature" = some f := by decide
  have hfile : (single text).Current "/w/a.feature" f := current_single hbreaks hread ⟨by decide⟩
  have htext := textOf_single hbreaks
  have hpath : fileOf (single text).root "a.feature" = "/w/a.feature" := by decide
  have hs : s ∈ f.scenarios := List.mem_singleton.2 rfl
  have hin : InBlock (strippedLines text) s.line 4 :=
    Feature.inBlock_of_lines (i := 1) (j := 3) (by decide) (by decide) (by decide)
  have hblank : ¬Opens (strippedLines text) "Feature:" 3 :=
    Feature.not_opens_feature (l := .other) (by decide) nofun
  have hnone : (single text).catalog.idAt? "/w/a.feature" text 4 = .ok none := by
    have hno : ∀ t ∈ f.scenarios, ∀ row ∈ t.rows, row.line ≠ 4 := by decide
    rw [hfile.holds.idAt?_of_no_row ⟨by decide⟩ hno,
      Feature.scenarioAt?_behind_feature hread hs hin ⟨2, by decide, by decide, "", by decide⟩,
      Option.elim_none]
  refine ⟨single text, f, s, text, hfile, htext, hpath, hs, by decide, hin, hblank, by decide, ?_⟩
  rw [hfile.readTarget_of_idAt? htext hread hpath hs hin ⟨by decide⟩ hnone]
  exact nofun

end Lines

end FeatureRun.Workspace
