import FeatureRun.Feature.Tree
import FeatureRun.Proofs.Feature.Grammar
import FeatureRun.Proofs.Feature.Leaves
import FeatureRun.Proofs.Text.Lines
import FeatureRun.Proofs.Text.Numeral

/-!
# The printed tree of a feature

The nodes of a feature stand on one list in document order, in which a scenario stands with its
rows. The tree is printed along that list: a line for every node, and behind the rows of a scenario
one more if there is a failure to tell of.

* `Listed`, `Stretch`: a node on the list, and nodes that are printed together.
* `entries`: all nodes in document order.
* `treeLines_none`, `treeLines_some`: the printed lines, entry by entry.
* `leafRefs_eq_filter`: the tests among the entries.
* `lines_treeLines`: no entry takes more than one line of text.
-/
set_option autoImplicit false

namespace FeatureRun

namespace CatalogNode

/-- A row, or a scenario that has no rows. -/
def isTest : CatalogNode → Bool
  | .row _ => true
  | .scenario s => s.rows.isEmpty
  | .rule _ => false
  | .feature _ => false

/-- What the line of a node says about it. -/
def caption : CatalogNode → String
  | .feature f => "Feature: " ++ f.name ++ Feature.lineSuffix f.line
  | .rule r => "Rule: " ++ r.name ++ Feature.lineSuffix r.line
  | .scenario s =>
    (if s.outline then "Scenario Outline" else "Scenario") ++ ": " ++ s.name ++
      Feature.lineSuffix s.line
  | .row r => "Example: " ++ r.text ++ Feature.lineSuffix r.line

end CatalogNode

namespace Feature

/-- A node that is met on the way over a feature, and how many nodes are above it. -/
structure Listed where
  ref : NodeRef
  node : CatalogNode
  depth : Nat

/-- Nodes that stand together: a feature or a rule by itself, or a scenario with its rows. -/
structure Stretch where
  head : Listed
  rows : List Listed

/-! ## The way over a feature -/

def Stretch.entries (b : Stretch) : List Listed := b.head :: b.rows

def listedRow (file : String) (s : Scenario) (depth : Nat) (r : Row) : Listed :=
  ⟨.row file s.line r.line, .row r, depth⟩

def scenarioStretch (file : String) (depth : Nat) (s : Scenario) : Stretch where
  head := ⟨.scenario file s.line, .scenario s, depth⟩
  rows := s.rows.map (listedRow file s (depth + 1))

def childStretches (file : String) : Child → List Stretch
  | .scenario s => [scenarioStretch file 1 s]
  | .rule r =>
    ⟨⟨.rule file r.line, .rule r, 1⟩, []⟩ :: r.scenarios.map (scenarioStretch file 2)

def stretches (f : Feature) (file : String) : List Stretch :=
  ⟨⟨.feature file, .feature f, 0⟩, []⟩ :: f.children.flatMap (childStretches file)

/-- The nodes of a feature in document order. -/
def entries (f : Feature) (file : String) : List Listed :=
  (f.stretches file).flatMap Stretch.entries

/-! ## Printing it -/

def indentation (depth : Nat) : String := String.ofList (List.replicate (2 * depth) ' ')

/-- The line of a node behind a mark. -/
def Listed.line (mark : String) (e : Listed) : String :=
  indentation e.depth ++ mark ++ e.node.caption

/-- The sign for the status of a node in the results. -/
def markIn (rs : Results) (e : Listed) : String := (statusIn rs e.ref.id).marker ++ " "

/-- The line about the first failure in the result of a scenario. -/
def Stretch.failureLines (rs : Results) (b : Stretch) : List String :=
  match b.head.node with
  | .scenario _ =>
    match (rs.get? b.head.ref.id).bind Result.failure? with
    | some f => [indentation (b.head.depth + 2) ++ "↳ " ++ f.label ++ lineSuffix f.line]
    | none => []
  | _ => []

/-- The lines of the nodes with their marks, and one more if there is a failure to tell of. -/
def Stretch.markedLines (rs : Results) (b : Stretch) : List String :=
  b.entries.map (fun e => e.line (markIn rs e)) ++ b.failureLines rs

variable {f : Feature} {file : String} {s : Scenario} {r : Rule} {e : Listed}

/-- The lines that a stretch of the tree takes, with results or without. -/
def Stretch.lines (results : Option Results) (b : Stretch) : List String :=
  b.entries.map (fun e => e.line (marker results e.ref.id)) ++ results.elim [] b.failureLines

/-! ### Every line is that of its entry -/

theorem indentation_succ (depth : Nat) : indentation (depth + 1) = indentation depth ++ "  " := by
  rw [indentation, indentation, Nat.mul_add, ← List.replicate_append_replicate,
    String.ofList_append]
  rfl

theorem rowLine_eq (results : Option Results) (depth : Nat) (s : Scenario) (r : Row) :
    rowLine results file s (indentation depth) r =
      (listedRow file s (depth + 1) r).line (marker results (rowId file s.line r.line)) := by
  simp only [rowLine, Listed.line, listedRow, indentation_succ, CatalogNode.caption,
    String.append_assoc]

theorem failureLines_eq (results : Option Results) (depth : Nat) (s : Scenario) :
    failureLines results file s (indentation depth) =
      results.elim [] (scenarioStretch file depth s).failureLines := by
  have hindent : indentation depth ++ "    ↳ " = indentation (depth + 2) ++ "↳ " := by
    simp only [indentation_succ, String.append_assoc]
    rfl
  cases results with
  | none => rfl
  | some rs =>
    simp only [failureLines, hindent, Option.bind_some, Option.elim_some, Stretch.failureLines,
      scenarioStretch]
    rfl

theorem scenarioLines_eq (results : Option Results) (depth : Nat) (s : Scenario) :
    scenarioLines results file (indentation depth) s =
      (scenarioStretch file depth s).lines results := by
  rw [scenarioLines, failureLines_eq, Stretch.lines, Stretch.entries]
  congr 1
  rw [List.map_cons, scenarioStretch, List.map_map]
  congr 1
  · simp only [scenarioLine, Listed.line, CatalogNode.caption, String.append_assoc]
    rfl
  · exact List.map_congr_left fun r _ => rowLine_eq results depth s r

/-- Behind a feature or a rule stands no line about a failure. -/
theorem lines_header (results : Option Results) (hno : ∀ s, e.node ≠ .scenario s) :
    Stretch.lines results ⟨e, []⟩ = [e.line (marker results e.ref.id)] := by
  have hfailure : ∀ rs, Stretch.failureLines rs ⟨e, []⟩ = [] := by
    intro rs
    rw [Stretch.failureLines]
    split
    · rename_i s hs
      exact absurd hs (hno s)
    · rfl
  cases results with
  | none => rfl
  | some rs => simp [Stretch.lines, Stretch.entries, hfailure]

theorem childLines_eq (results : Option Results) (c : Child) :
    childLines results file c = (childStretches file c).flatMap (Stretch.lines results) := by
  cases c with
  | scenario s =>
    rw [childStretches, List.flatMap_singleton]
    exact scenarioLines_eq results 1 s
  | rule r =>
    have hscenario : scenarioLines results file "    " = fun s =>
        (scenarioStretch file 2 s).lines results := funext fun s => scenarioLines_eq results 2 s
    have hrule : ∀ s, (⟨.rule file r.line, .rule r, 1⟩ : Listed).node ≠ .scenario s := nofun
    rw [childStretches, List.flatMap_cons, List.flatMap_map, childLines, hscenario,
      lines_header results hrule, List.singleton_append]
    congr 1
    simp only [Listed.line, CatalogNode.caption, String.append_assoc]
    rfl

/-- The lines of the tree are those of the stretches, one stretch after another. -/
theorem treeLines_eq (results : Option Results) (file : String) (f : Feature) :
    f.treeLines results file = (f.stretches file).flatMap (Stretch.lines results) := by
  have hchildren : childLines results file =
      fun c => (childStretches file c).flatMap (Stretch.lines results) :=
    funext fun c => childLines_eq results c
  have hfeature : ∀ s, (⟨.feature file, .feature f, 0⟩ : Listed).node ≠ .scenario s := nofun
  rw [treeLines, stretches, List.flatMap_cons, List.flatMap_assoc, hchildren,
    lines_header results hfeature, List.singleton_append]
  congr 1
  have hflush : indentation 0 = "" := rfl
  simp only [Listed.line, CatalogNode.caption, hflush, String.empty_append, String.append_assoc]
  rfl

theorem treeLines_none (f : Feature) (file : String) :
    f.treeLines none file = (f.entries file).map (Listed.line "") := by
  have hlines : Stretch.lines none = fun b => b.entries.map (Listed.line "") :=
    funext fun b => List.append_nil _
  rw [treeLines_eq, entries, List.map_flatMap, hlines]

theorem treeLines_some (rs : Results) (f : Feature) (file : String) :
    f.treeLines (some rs) file = (f.stretches file).flatMap (Stretch.markedLines rs) :=
  treeLines_eq (some rs) file f

/-! ## The entries are the nodes -/

/-- The entries of a scenario and its rows. -/
theorem refs_scenarioStretch (file : String) (depth : Nat) (s : Scenario) :
    (scenarioStretch file depth s).entries.map Listed.ref = scenarioRefs file s := by
  simp [scenarioStretch, Stretch.entries, scenarioRefs, listedRow]

/-- The nodes stand in document order. -/
theorem refs_entries (f : Feature) (file : String) :
    (f.entries file).map Listed.ref = f.refs file := by
  have hchild : ∀ c, ((childStretches file c).flatMap Stretch.entries).map Listed.ref =
      childRefs file c := by
    intro c
    cases c with
    | scenario s => simp [childStretches, childRefs, refs_scenarioStretch]
    | rule r =>
      rw [childStretches, List.flatMap_cons, List.flatMap_map, List.map_append, List.map_flatMap]
      simp only [refs_scenarioStretch]
      rfl
  rw [entries, stretches, List.flatMap_cons, List.flatMap_assoc, List.map_append, List.map_flatMap]
  simp only [hchild]
  rfl

/-- Where a scenario stands in a feature, and how many nodes are above it there. -/
inductive Nested (f : Feature) : Nat → Scenario → Prop where
  | loose {s : Scenario} (hs : s ∈ f.looseScenarios) : Nested f 1 s
  | ruled {s : Scenario} {r : Rule} (hr : r ∈ f.rules) (hs : s ∈ r.scenarios) : Nested f 2 s

/-- A stretch of the tree is the feature, a rule, or a scenario with its rows. -/
theorem mem_stretches {b : Stretch} (h : b ∈ f.stretches file) :
    b = ⟨⟨.feature file, .feature f, 0⟩, []⟩ ∨
      (∃ r ∈ f.rules, b = ⟨⟨.rule file r.line, .rule r, 1⟩, []⟩) ∨
      ∃ depth s, f.Nested depth s ∧ b = scenarioStretch file depth s := by
  rcases List.mem_cons.1 h with rfl | h
  · exact .inl rfl
  obtain ⟨c, hc, hb⟩ := List.mem_flatMap.1 h
  cases c with
  | scenario s =>
    exact .inr (.inr ⟨1, s, .loose (mem_looseScenarios.2 hc), List.mem_singleton.1 hb⟩)
  | rule r =>
    have hr := mem_rules.2 hc
    rcases List.mem_cons.1 hb with rfl | hb
    · exact .inr (.inl ⟨r, hr, rfl⟩)
    · obtain ⟨s, hs, rfl⟩ := List.mem_map.1 hb
      exact .inr (.inr ⟨2, s, .ruled hr hs, rfl⟩)

theorem Nested.mem_scenarios {depth : Nat} (h : f.Nested depth s) : s ∈ f.scenarios := by
  cases h with
  | loose hs => exact Feature.mem_scenarios.2 (.inl hs)
  | ruled hr hs => exact Feature.mem_scenarios.2 (.inr ⟨_, hr, hs⟩)

/-- The nodes above a scenario are the feature, and its rule if it has one. -/
theorem Nested.length_above {depth : Nat} (hf : f.Ordered) (h : f.Nested depth s) :
    (f.above (.scenario file s.line)).length = depth := by
  have habove : (f.above (.scenario file s.line)).length =
      (Catalog.ruleAround? f s.line).toList.length + 1 := by
    rw [above, ruleAbove]
    cases Catalog.ruleAround? f s.line <;> rfl
  rw [habove]
  cases h with
  | loose hs =>
    have hnone : Catalog.ruleAround? f s.line = none := by
      refine Option.eq_none_iff_forall_ne_some.2 fun r hr => ?_
      obtain ⟨hr, hin⟩ := (ruleAround?_eq_some_iff hf (Feature.mem_scenarios.2 (.inl hs))).1 hr
      have := line_lt_of_loose hf hs hr
      have := line_lt_of_mem_rule hf hr hin
      omega
    rw [hnone]
    rfl
  | ruled hr hs =>
    have hs' := Feature.mem_scenarios.2 (.inr ⟨_, hr, hs⟩)
    rw [(ruleAround?_eq_some_iff hf hs').2 ⟨hr, hs⟩]
    rfl

/-- An entry of a scenario is the scenario or one of its rows. -/
theorem mem_entries_scenarioStretch {depth : Nat} (h : e ∈ (scenarioStretch file depth s).entries) :
    e = ⟨.scenario file s.line, .scenario s, depth⟩ ∨
      ∃ row ∈ s.rows, e = listedRow file s (depth + 1) row := by
  rcases List.mem_cons.1 h with rfl | h
  · exact .inl rfl
  · obtain ⟨row, hrow, rfl⟩ := List.mem_map.1 h
    exact .inr ⟨row, hrow, rfl⟩

/-- Every entry has the node that it refers to. -/
theorem denotes_of_mem_entries (h : e ∈ f.entries file) : f.Denotes file e.ref e.node := by
  obtain ⟨b, hb, he⟩ := List.mem_flatMap.1 h
  obtain rfl | ⟨r, hr, rfl⟩ | ⟨depth, s, hs, rfl⟩ := mem_stretches hb
  · rw [List.mem_singleton.1 he]
    exact .feature
  · rw [List.mem_singleton.1 he]
    exact .rule hr
  · obtain rfl | ⟨row, hrow, rfl⟩ := mem_entries_scenarioStretch he
    · exact .scenario hs.mem_scenarios
    · exact .row hs.mem_scenarios hrow

/-- Every entry has as many nodes above it as it is deep. -/
theorem length_above_of_mem_entries (hf : f.Ordered) (h : e ∈ f.entries file) :
    (f.above e.ref).length = e.depth := by
  obtain ⟨b, hb, he⟩ := List.mem_flatMap.1 h
  obtain rfl | ⟨r, hr, rfl⟩ | ⟨depth, s, hs, rfl⟩ := mem_stretches hb
  · rw [List.mem_singleton.1 he]
    rfl
  · rw [List.mem_singleton.1 he]
    rfl
  · obtain rfl | ⟨row, -, rfl⟩ := mem_entries_scenarioStretch he
    · exact hs.length_above hf
    · exact congrArg Nat.succ (hs.length_above hf)

/-! ## The tests -/

/-- The tests are the entries of rows and of scenarios without rows. -/
theorem leafRefs_eq_filter (f : Feature) (file : String) :
    f.leafRefs file = ((f.entries file).filter fun e => e.node.isTest).map Listed.ref := by
  have hscenario : ∀ depth s, (((scenarioStretch file depth s).entries.filter
      fun e => e.node.isTest).map Listed.ref) = scenarioLeafRefs file s := by
    intro depth s
    have hrows : (s.rows.map (listedRow file s (depth + 1))).filter (fun e => e.node.isTest) =
        s.rows.map (listedRow file s (depth + 1)) :=
      List.filter_eq_self.2 fun e he => by
        obtain ⟨row, -, rfl⟩ := List.mem_map.1 he
        rfl
    rw [scenarioStretch, Stretch.entries, List.filter_cons, hrows, scenarioLeafRefs]
    cases hempty : s.rows.isEmpty
    · simp [CatalogNode.isTest, hempty, listedRow]
    · simp [CatalogNode.isTest, List.isEmpty_iff.1 hempty]
  have hchild : ∀ c, ((((childStretches file c).flatMap Stretch.entries).filter
      fun e => e.node.isTest).map Listed.ref) = c.scenarios.flatMap (scenarioLeafRefs file) := by
    intro c
    cases c with
    | scenario s =>
      rw [childStretches, List.flatMap_singleton, hscenario, Child.scenarios,
        List.flatMap_singleton]
    | rule r =>
      rw [childStretches, List.flatMap_cons, List.flatMap_map, List.filter_append, List.map_append,
        List.filter_flatMap, List.map_flatMap]
      simp only [hscenario]
      rfl
  rw [entries, stretches, List.flatMap_cons, List.flatMap_assoc, List.filter_append,
    List.map_append, List.filter_flatMap, List.map_flatMap]
  simp only [hchild]
  rw [leafRefs, scenarios, List.flatMap_assoc]
  rfl

/-! ## Lines of text -/

section Breaks

variable {text : String}

theorem not_mem_trimmed {t : String} (h : '\n' ∉ t.toList) : '\n' ∉ (Text.trimmed t).toList := by
  rw [Text.trimmed, String.toList_ofList]
  exact fun hmem => h ((Text.trim_isInfix t.toList).subset hmem)

/-- A stripped line has no line feed in it, -/
theorem not_mem_of_mem_strippedLines {l : String} (h : l ∈ strippedLines text) :
    '\n' ∉ l.toList := by
  obtain ⟨line, hline, rfl⟩ := List.mem_map.1 h
  obtain ⟨cs, hcs, rfl⟩ := List.mem_map.1 hline
  refine not_mem_trimmed ?_
  rw [String.toList_ofList]
  exact Text.not_mem_of_mem_pieces hcs

/-- nor has a title. -/
theorem Titled.not_mem {word title : String} {i : Nat}
    (h : Titled (strippedLines text) word title i) : '\n' ∉ title.toList := by
  obtain ⟨rest, hl, rfl⟩ := h
  have hline := not_mem_of_mem_strippedLines (List.mem_of_getElem? hl)
  rw [String.toList_append] at hline
  exact not_mem_trimmed fun hmem => hline (List.mem_append_right _ hmem)

theorem not_mem_lineSuffix (n : Int) : '\n' ∉ (lineSuffix n).toList := by
  intro h
  simp only [lineSuffix, String.toList_append, List.mem_append] at h
  rcases h with (h | h) | h
  · exact absurd h (by decide)
  · rcases Text.mem_toString h with h | h
    · exact absurd h (by decide)
    · exact absurd h (by decide)
  · exact absurd h (by decide)

/-- What a line says about a node of a text stands on one line. -/
theorem not_mem_caption (hf : Described (strippedLines text) f) {x : NodeRef} {node : CatalogNode}
    (h : f.Denotes file x node) : '\n' ∉ node.caption.toList := by
  have hcaption : ∀ (word : String) {name : String} {n : Int}, '\n' ∉ word.toList →
      '\n' ∉ name.toList → '\n' ∉ (word ++ name ++ lineSuffix n).toList := by
    intro word name n hword hname
    simp only [String.toList_append, List.mem_append, not_or]
    exact ⟨⟨hword, hname⟩, not_mem_lineSuffix n⟩
  cases h with
  | feature =>
    obtain ⟨i, htitle, -⟩ := hf.title
    exact hcaption "Feature: " (by decide) htitle.not_mem
  | @rule r hr =>
    obtain ⟨i, -, htitle⟩ := (hf.rules r.name r.line).1 ⟨r, hr, rfl, rfl⟩
    exact hcaption "Rule: " (by decide) htitle.not_mem
  | @scenario s hs =>
    obtain ⟨i, -, htitle⟩ := (hf.scenarios s.name s.line s.outline).1 ⟨s, hs, rfl, rfl, rfl⟩
    refine hcaption (_ ++ ": ") ?_ htitle.not_mem
    cases s.outline <;> decide
  | row hs hrow =>
    obtain ⟨i, -, hl⟩ := hf.row_texts _ hs _ hrow
    exact hcaption "Example: " (by decide) (not_mem_of_mem_strippedLines (List.mem_of_getElem? hl))

/-- The tree of a feature that was read has one line of text for every entry. -/
theorem lines_treeLines (hf : Described (strippedLines text) f) (file : String) :
    Text.lines (Text.join "\n" (f.treeLines none file)) =
      (f.entries file).map (Listed.line "") := by
  have hlines : ∀ l ∈ f.treeLines none file, '\n' ∉ l.toList := by
    intro l hl
    rw [treeLines_none] at hl
    obtain ⟨e, he, rfl⟩ := List.mem_map.1 hl
    rw [Listed.line, indentation]
    simp only [String.toList_append, List.mem_append, String.toList_ofList, List.mem_replicate,
      not_or]
    refine ⟨⟨fun hblank => absurd hblank.2 (by decide), by decide⟩, ?_⟩
    exact not_mem_caption hf (denotes_of_mem_entries he)
  have hsplit := Text.split_join '\n' hlines (List.cons_ne_nil _ _)
  rw [Text.lines, ← treeLines_none]
  exact hsplit

end Breaks

end Feature
end FeatureRun
