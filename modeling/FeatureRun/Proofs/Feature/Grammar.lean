import FeatureRun.Proofs.Feature.Reading

/-!
# The line grammar of feature files

Which texts are features, and what their trees look like, said about the stripped lines of the text
and the words they start with. Positions count from 0, the lines of nodes from 1.

* `Titled`, `Opens`: a line starts with a word.
* `Described`: how the rules, scenarios and rows of a feature stand in its text.
* `read_grammar`: every feature that is read is so described, and only a text without a `Feature:`
  line is none.
-/
set_option autoImplicit false

namespace FeatureRun.Feature

/-- The lines of a text without the blanks around them. -/
def strippedLines (text : String) : List String := (Text.lines text).map Text.trimmed

/-- The line at a position starts with a word. -/
def Opens (ls : List String) (word : String) (i : Nat) : Prop :=
  ∃ rest, ls[i]? = some (word ++ rest)

/-- The line at a position starts with a word, and a title follows. -/
def Titled (ls : List String) (word title : String) (i : Nat) : Prop :=
  ∃ rest, ls[i]? = some (word ++ rest) ∧ title = Text.trimmed rest

/-- The kinds of lines by the words they start with. -/
def textMarks (ls : List String) : Marks where
  header i := Opens ls "Rule:" i ∨ Opens ls "Scenario:" i ∨ Opens ls "Scenario Outline:" i
  outline := Opens ls "Scenario Outline:"
  examples := Opens ls "Examples:"
  table := Opens ls "|"

/-! ## Words and kinds of lines -/

section Words

variable {cs rest : List Char} {word title : String}

theorem title?_eq_some_iff :
    Line.title? word cs = some title ↔
      ∃ rest, cs = word.toList ++ rest ∧ title = String.ofList (Text.trim rest) := by
  unfold Line.title?
  rw [Option.map_eq_some_iff]
  constructor
  · rintro ⟨rest, hrest, rfl⟩
    exact ⟨rest, Text.afterPrefix?_eq_some_iff.1 hrest, rfl⟩
  · rintro ⟨rest, hcs, rfl⟩
    exact ⟨rest, Text.afterPrefix?_eq_some_iff.2 hcs, rfl⟩

/-- The word that a line of a kind starts with, and what is kept of the rest. -/
def Line.Wording (cs : List Char) : Line → Prop
  | .feature name => ∃ rest, cs = "Feature:".toList ++ rest ∧ name = String.ofList (Text.trim rest)
  | .rule name => ∃ rest, cs = "Rule:".toList ++ rest ∧ name = String.ofList (Text.trim rest)
  | .outline name =>
    ∃ rest, cs = "Scenario Outline:".toList ++ rest ∧ name = String.ofList (Text.trim rest)
  | .scenario name =>
    ∃ rest, cs = "Scenario:".toList ++ rest ∧ name = String.ofList (Text.trim rest)
  | .examples => ∃ rest, cs = "Examples:".toList ++ rest
  | .row text => ∃ rest, cs = "|".toList ++ rest ∧ text = String.ofList cs
  | .other => True

theorem wording_ofTrimmed (cs : List Char) : (Line.ofTrimmed cs).Wording cs := by
  unfold Line.ofTrimmed
  split
  · rename_i h; exact title?_eq_some_iff.1 h
  · split
    · rename_i h; exact title?_eq_some_iff.1 h
    · split
      · rename_i h; exact title?_eq_some_iff.1 h
      · split
        · rename_i h; exact title?_eq_some_iff.1 h
        · split
          · rename_i h
            obtain ⟨rest, hrest⟩ := List.isPrefixOf_iff_prefix.1 h
            exact ⟨rest, hrest.symm⟩
          · split
            · rename_i h
              obtain ⟨rest, rfl⟩ := List.head?_eq_some_iff.1 h
              exact ⟨rest, rfl, rfl⟩
            · trivial

/-- No two words of the grammar start one line. -/
theorem ofTrimmed_of_wording {l : Line} (h : l.Wording cs) (hl : l ≠ .other) :
    Line.ofTrimmed cs = l := by
  cases l with
  | other => exact absurd rfl hl
  | examples => obtain ⟨rest, rfl⟩ := h; rfl
  | row text => obtain ⟨rest, rfl, rfl⟩ := h; rfl
  | _ => obtain ⟨rest, rfl, rfl⟩ := h; rfl

end Words

section Lines

variable {text word title : String} {i : Nat} {l : Line}

theorem linesOf_getElem? (hl : l ≠ .other) :
    (linesOf text)[i]? = some l ↔ ∃ s, (strippedLines text)[i]? = some s ∧ l.Wording s.toList := by
  rw [linesOf, strippedLines, List.getElem?_map, List.getElem?_map]
  cases (Text.lines text)[i]? with
  | none => simp
  | some raw =>
    have hstrip : (Text.trimmed raw).toList = Text.trim raw.toList := String.toList_ofList
    simp only [Option.map_some, Option.some.injEq]
    constructor
    · rintro rfl
      exact ⟨_, rfl, hstrip ▸ wording_ofTrimmed _⟩
    · rintro ⟨s, rfl, hw⟩
      exact ofTrimmed_of_wording (hstrip ▸ hw) hl

/-- A string starts with a word exactly if its characters do. -/
theorem exists_append_iff {s word : String} {p : String → Prop} :
    (∃ rest, s = word ++ rest ∧ p rest) ↔
      ∃ rest, s.toList = word.toList ++ rest ∧ p (String.ofList rest) := by
  constructor
  · rintro ⟨rest, rfl, hp⟩
    exact ⟨rest.toList, String.toList_append, by rwa [String.ofList_toList]⟩
  · rintro ⟨rest, hs, hp⟩
    refine ⟨String.ofList rest, ?_, hp⟩
    rw [← String.toList_inj, hs, String.toList_append, String.toList_ofList]

theorem titled_iff : Titled (strippedLines text) word title i ↔
    ∃ s, (strippedLines text)[i]? = some s ∧
      ∃ rest, s.toList = word.toList ++ rest ∧ title = String.ofList (Text.trim rest) := by
  have htrim : ∀ rest, Text.trimmed (String.ofList rest) = String.ofList (Text.trim rest) :=
    fun rest => by rw [Text.trimmed, String.toList_ofList]
  simp only [← htrim]
  constructor
  · rintro ⟨rest, hs, ht⟩
    exact ⟨_, hs, (exists_append_iff (p := (title = Text.trimmed ·))).1 ⟨rest, rfl, ht⟩⟩
  · rintro ⟨s, hs, h⟩
    obtain ⟨rest, rfl, ht⟩ := (exists_append_iff (p := (title = Text.trimmed ·))).2 h
    exact ⟨rest, hs, ht⟩

theorem opens_iff_titled {ls : List String} : Opens ls word i ↔ ∃ title, Titled ls word title i :=
  ⟨fun ⟨rest, h⟩ => ⟨_, rest, h, rfl⟩, fun ⟨_, rest, h, _⟩ => ⟨rest, h⟩⟩

/-- A line of a kind that has a word and a title. -/
theorem line_iff_titled (hl : l ≠ .other) (hwording : ∀ cs, l.Wording cs ↔
      ∃ rest, cs = word.toList ++ rest ∧ title = String.ofList (Text.trim rest)) :
    (linesOf text)[i]? = some l ↔ Titled (strippedLines text) word title i := by
  rw [linesOf_getElem? hl, titled_iff]
  simp only [hwording]

theorem feature_iff : (linesOf text)[i]? = some (.feature title) ↔
    Titled (strippedLines text) "Feature:" title i :=
  line_iff_titled (by simp) fun _ => Iff.rfl

theorem rule_iff : (linesOf text)[i]? = some (.rule title) ↔
    Titled (strippedLines text) "Rule:" title i :=
  line_iff_titled (by simp) fun _ => Iff.rfl

theorem outline_iff : (linesOf text)[i]? = some (.outline title) ↔
    Titled (strippedLines text) "Scenario Outline:" title i :=
  line_iff_titled (by simp) fun _ => Iff.rfl

theorem scenario_iff : (linesOf text)[i]? = some (.scenario title) ↔
    Titled (strippedLines text) "Scenario:" title i :=
  line_iff_titled (by simp) fun _ => Iff.rfl

theorem examples_iff : (linesOf text)[i]? = some .examples ↔
    Opens (strippedLines text) "Examples:" i := by
  rw [linesOf_getElem? (by simp), opens_iff_titled]
  simp only [titled_iff]
  exact ⟨fun ⟨s, hs, rest, h⟩ => ⟨_, s, hs, rest, h, rfl⟩,
    fun ⟨_, s, hs, rest, h, _⟩ => ⟨s, hs, rest, h⟩⟩

theorem row_iff {row : String} : (linesOf text)[i]? = some (.row row) ↔
    (strippedLines text)[i]? = some row ∧ Opens (strippedLines text) "|" i := by
  rw [linesOf_getElem? (by simp), opens_iff_titled]
  simp only [titled_iff]
  constructor
  · rintro ⟨s, hs, rest, h, rfl⟩
    rw [String.ofList_toList]
    exact ⟨hs, _, s, hs, rest, h, rfl⟩
  · rintro ⟨hrow, _, s, hs, rest, h, -⟩
    obtain rfl := Option.some.inj (hrow.symm.trans hs)
    exact ⟨row, hs, rest, h, String.ofList_toList.symm⟩

theorem isOutline_iff : At (linesOf text) Line.isOutline i ↔
    Opens (strippedLines text) "Scenario Outline:" i := by
  simp only [opens_iff_titled, ← outline_iff]
  constructor
  · rintro ⟨l, hl, hp⟩
    cases l with
    | outline name => exact ⟨_, hl⟩
    | _ => nomatch hp
  · exact fun ⟨title, h⟩ => ⟨_, h, rfl⟩

theorem isExamples_iff : At (linesOf text) Line.isExamples i ↔
    Opens (strippedLines text) "Examples:" i := by
  rw [← examples_iff]
  constructor
  · rintro ⟨l, hl, hp⟩
    cases l with
    | examples => exact hl
    | _ => nomatch hp
  · exact fun h => ⟨_, h, rfl⟩

theorem isRow_iff : At (linesOf text) Line.isRow i ↔ Opens (strippedLines text) "|" i := by
  constructor
  · rintro ⟨l, hl, hp⟩
    cases l with
    | row row => exact (row_iff.1 hl).2
    | _ => nomatch hp
  · intro h
    obtain ⟨rest, hrest⟩ := h
    exact ⟨_, row_iff.2 ⟨hrest, rest, hrest⟩, rfl⟩

theorem isHeader_iff : At (linesOf text) Line.isHeader i ↔
    Opens (strippedLines text) "Rule:" i ∨ Opens (strippedLines text) "Scenario:" i ∨
      Opens (strippedLines text) "Scenario Outline:" i := by
  simp only [opens_iff_titled, ← outline_iff, ← rule_iff, ← scenario_iff]
  constructor
  · rintro ⟨l, hl, hp⟩
    cases l with
    | rule name => exact .inl ⟨_, hl⟩
    | scenario name => exact .inr (.inl ⟨_, hl⟩)
    | outline name => exact .inr (.inr ⟨_, hl⟩)
    | _ => nomatch hp
  · rintro (⟨title, h⟩ | ⟨title, h⟩ | ⟨title, h⟩) <;> exact ⟨_, h, rfl⟩

theorem marksOf_linesOf (text : String) :
    marksOf (linesOf text) = textMarks (strippedLines text) := by
  rw [marksOf, textMarks]
  congr 1 <;> funext i <;>
    first
    | exact propext isHeader_iff
    | exact propext isOutline_iff
    | exact propext isExamples_iff
    | exact propext isRow_iff

end Lines

/-! ## The tree -/

/-- A feature stands in the lines of a text as the grammar says. -/
structure Described (ls : List String) (f : Feature) : Prop where
  /-- The title is that of the first `Feature:` line. -/
  title : ∃ i : Nat, Titled ls "Feature:" f.name i ∧ f.line = (i : Int) + 1 ∧
    ∀ k, k < i → ¬Opens ls "Feature:" k
  /-- The scenarios are the lines that start with `Scenario:` or `Scenario Outline:`. -/
  scenarios : ∀ name line outline,
    (∃ s ∈ f.scenarios, s.name = name ∧ s.line = line ∧ s.outline = outline) ↔
      ∃ i : Nat, line = (i : Int) + 1 ∧
        Titled ls (if outline then "Scenario Outline:" else "Scenario:") name i
  scenario_lines : (f.scenarios.map Scenario.line).Pairwise (· < ·)
  /-- The rules are the lines that start with `Rule:`. -/
  rules : ∀ name line, (∃ r ∈ f.rules, r.name = name ∧ r.line = line) ↔
    ∃ i : Nat, line = (i : Int) + 1 ∧ Titled ls "Rule:" name i
  rule_lines : (f.rules.map Rule.line).Pairwise (· < ·)
  children : f.children = f.looseScenarios.map .scenario ++ f.rules.map .rule
  /-- A scenario lies in the rule of the nearest `Rule:` line above it. -/
  nested : ∀ s ∈ f.scenarios, ∀ r ∈ f.rules, s ∈ r.scenarios ↔
    ∃ i j : Nat, r.line = (i : Int) + 1 ∧ s.line = (j : Int) + 1 ∧ NearestAbove (Opens ls "Rule:") i j
  /-- It lies directly below the feature if there is none. -/
  loose : ∀ s ∈ f.scenarios, s ∈ f.looseScenarios ↔
    ∃ j : Nat, s.line = (j : Int) + 1 ∧ ∀ k, k < j → ¬Opens ls "Rule:" k
  /-- The example rows of the scenario on a line. -/
  rows : ∀ i r : Nat,
    (∃ s ∈ f.scenarios, s.line = (i : Int) + 1 ∧ ∃ row ∈ s.rows, row.line = (r : Int) + 1) ↔
      (textMarks ls).IsExample i r
  row_lines : ∀ s ∈ f.scenarios, (s.rows.map Row.line).Pairwise (· < ·)
  row_texts : ∀ s ∈ f.scenarios, ∀ row ∈ s.rows,
    ∃ r : Nat, row.line = (r : Int) + 1 ∧ ls[r]? = some row.text

section Tree

variable {text path : String} {f : Feature} (h : read text path = some f)

include h

theorem titled_rule_iff {name : String} {line : Int} :
    (∃ r ∈ f.rules, r.name = name ∧ r.line = line) ↔
      ∃ i : Nat, line = (i : Int) + 1 ∧ Titled (strippedLines text) "Rule:" name i := by
  rw [← rule_mem_nodes, mem_nodes_read h]
  simp only [nodeAt_eq_rule_iff, rule_iff, and_comm]

theorem titled_scenario_iff {name : String} {line : Int} {outline : Bool} :
    (∃ s ∈ f.scenarios, s.name = name ∧ s.line = line ∧ s.outline = outline) ↔
      ∃ i : Nat, line = (i : Int) + 1 ∧
        Titled (strippedLines text) (if outline then "Scenario Outline:" else "Scenario:") name
          i := by
  rw [← scenario_mem_nodes, mem_nodes_read h]
  simp only [nodeAt_eq_scenario_iff, and_comm]
  cases outline
  · simp only [Bool.false_eq_true, if_false, scenario_iff]
  · simp only [if_true, outline_iff]

/-- Every rule stands on a `Rule:` line. -/
theorem exists_rule_line {r : Rule} (hr : r ∈ f.rules) :
    ∃ i : Nat, r.line = (i : Int) + 1 ∧ Opens (strippedLines text) "Rule:" i := by
  obtain ⟨i, hi, ht⟩ := (titled_rule_iff h).1 ⟨r, hr, rfl, rfl⟩
  exact ⟨i, hi, opens_iff_titled.2 ⟨_, ht⟩⟩

/-- Every `Rule:` line opens a rule. -/
theorem exists_rule_of_opens {i : Nat} (hi : Opens (strippedLines text) "Rule:" i) :
    ∃ r ∈ f.rules, r.line = (i : Int) + 1 := by
  obtain ⟨name, ht⟩ := opens_iff_titled.1 hi
  obtain ⟨r, hr, -, hline⟩ := (titled_rule_iff h).2 ⟨i, rfl, ht⟩
  exact ⟨r, hr, hline⟩

theorem exists_scenario_line {s : Scenario} (hs : s ∈ f.scenarios) :
    ∃ j : Nat, s.line = (j : Int) + 1 ∧ At (linesOf text) Line.isHeader j := by
  obtain ⟨j, hj, ht⟩ := (titled_scenario_iff h).1 ⟨s, hs, rfl, rfl, rfl⟩
  refine ⟨j, hj, isHeader_iff.2 ?_⟩
  cases ho : s.outline <;> rw [ho] at ht
  · exact .inr (.inl (opens_iff_titled.2 ⟨_, ht⟩))
  · exact .inr (.inr (opens_iff_titled.2 ⟨_, ht⟩))

/-- A scenario of a rule has that rule nearest above it. -/
theorem nearestRule_of_mem {r : Rule} {s : Scenario} (hr : r ∈ f.rules) (hs : s ∈ r.scenarios)
    {i j : Nat} (hi : r.line = (i : Int) + 1) (hj : s.line = (j : Int) + 1) :
    NearestAbove (Opens (strippedLines text) "Rule:") i j := by
  have hf := ordered_read h
  have hlt := line_lt_of_mem_rule hf hr hs
  obtain ⟨i', hi', hopens⟩ := exists_rule_line h hr
  obtain rfl : i = i' := by omega
  refine ⟨by omega, hopens, fun k hik hkj hk => ?_⟩
  obtain ⟨r', hr', hline⟩ := exists_rule_of_opens h hk
  have := eq_line_of_rule_between hf hr hs (mem_nodes_rule hr') (by omega) (by omega)
  omega

/-- The header of a scenario is the nearest one above each of its rows. -/
theorem nearestHeader_of_mem {s : Scenario} {row : Row} (hs : s ∈ f.scenarios) (hrow : row ∈ s.rows)
    {i r : Nat} (hi : s.line = (i : Int) + 1) (hr : row.line = (r : Int) + 1) :
    NearestAbove (At (linesOf text) Line.isHeader) i r := by
  have hf := ordered_read h
  have hlt := line_lt_of_mem_rows hf hs hrow
  obtain ⟨i', hi', hheader⟩ := exists_scenario_line h hs
  obtain rfl : i = i' := by omega
  refine ⟨by omega, hheader, ?_⟩
  rintro k hik hkr ⟨l, hl, hp⟩
  have hnode : ∃ x ∈ f.nodes, x.line = (k : Int) + 1 ∧ x.isRow = false := by
    cases l with
    | rule name =>
      exact ⟨_, (mem_nodes_read h).2 ⟨k, nodeAt_eq_rule_iff.2 ⟨hl, rfl⟩⟩, rfl, rfl⟩
    | outline name =>
      exact ⟨.scenario name _ true,
        (mem_nodes_read h).2 ⟨k, nodeAt_eq_scenario_iff.2 ⟨hl, rfl⟩⟩, rfl, rfl⟩
    | scenario name =>
      exact ⟨.scenario name _ false,
        (mem_nodes_read h).2 ⟨k, nodeAt_eq_scenario_iff.2 ⟨hl, rfl⟩⟩, rfl, rfl⟩
    | _ => nomatch hp
  obtain ⟨x, hx, hline, hno⟩ := hnode
  have := isRow_of_line_between hf hs hrow hx (by omega) (by omega)
  rw [hno] at this
  nomatch this

theorem exists_row_line {s : Scenario} {row : Row} (hs : s ∈ f.scenarios) (hrow : row ∈ s.rows) :
    ∃ r : Nat, row.line = (r : Int) + 1 ∧ (linesOf text)[r]? = some (.row row.text) ∧
      ∃ i, (marksOf (linesOf text)).IsExample i r := by
  obtain ⟨r, hr⟩ := (mem_nodes_read h).1 (mem_nodes_row hs hrow)
  obtain ⟨hl, hline, hex⟩ := nodeAt_eq_row_iff.1 hr
  exact ⟨r, hline, hl, hex⟩

/-- The rows of a scenario are the example rows of its line. -/
theorem isExample_of_mem {s : Scenario} {row : Row} (hs : s ∈ f.scenarios) (hrow : row ∈ s.rows)
    {i r : Nat} (hi : s.line = (i : Int) + 1) (hr : row.line = (r : Int) + 1) :
    (marksOf (linesOf text)).IsExample i r := by
  obtain ⟨r', hr', -, i', hex⟩ := exists_row_line h hs hrow
  obtain rfl : r = r' := by omega
  obtain rfl := (nearestHeader_of_mem h hs hrow hi hr).unique (nearestHeader_of_isExample hex)
  exact hex

theorem exists_row_of_isExample {i r : Nat} (hex : (marksOf (linesOf text)).IsExample i r) :
    ∃ s ∈ f.scenarios, s.line = (i : Int) + 1 ∧ ∃ row ∈ s.rows, row.line = (r : Int) + 1 := by
  obtain ⟨l, hl, hp⟩ := hex.1
  cases l with
  | row t =>
    have hnode := (mem_nodes_read h).2 ⟨r, nodeAt_eq_row_iff.2 ⟨hl, rfl, i, hex⟩⟩
    obtain ⟨s, hs, row, hrow, hline, -⟩ := row_mem_nodes.1 hnode
    obtain ⟨j, hj, -⟩ := exists_scenario_line h hs
    obtain rfl := (nearestHeader_of_mem h hs hrow hj hline).unique (nearestHeader_of_isExample hex)
    exact ⟨s, hs, hj, row, hrow, hline⟩
  | _ => nomatch hp

/-- The title of a feature is that of the first `Feature:` line. -/
theorem titled_of_read : ∃ i : Nat, Titled (strippedLines text) "Feature:" f.name i ∧
    f.line = (i : Int) + 1 ∧ ∀ k, k < i → ¬Opens (strippedLines text) "Feature:" k := by
  obtain ⟨d, hd, -, ht, -⟩ := exists_draft_of_read h
  have htitle := hd.title
  rw [ht] at htitle
  obtain ⟨i, -, hi, hline, hfirst⟩ := htitle
  refine ⟨i, feature_iff.1 hi, hline, ?_⟩
  intro k hk hopens
  obtain ⟨name, hname⟩ := opens_iff_titled.1 hopens
  exact hfirst k hk name (feature_iff.2 hname)

/-- A scenario lies in the rule of the nearest `Rule:` line above it. -/
theorem mem_rule_iff {s : Scenario} {r : Rule} (hs : s ∈ f.scenarios) (hr : r ∈ f.rules) :
    s ∈ r.scenarios ↔ ∃ i j : Nat, r.line = (i : Int) + 1 ∧ s.line = (j : Int) + 1 ∧
      NearestAbove (Opens (strippedLines text) "Rule:") i j := by
  have hf := ordered_read h
  constructor
  · intro hmem
    obtain ⟨i, hi, -⟩ := exists_rule_line h hr
    obtain ⟨j, hj, -⟩ := exists_scenario_line h hs
    exact ⟨i, j, hi, hj, nearestRule_of_mem h hr hmem hi hj⟩
  · rintro ⟨i, j, hi, hj, hnear⟩
    rcases mem_scenarios.1 hs with hloose | ⟨r', hr', hmem⟩
    · have := line_lt_of_loose hf hloose hr
      have := hnear.1
      omega
    · obtain ⟨i', hi', -⟩ := exists_rule_line h hr'
      obtain rfl := hnear.unique (nearestRule_of_mem h hr' hmem hi' hj)
      rwa [eq_of_line_eq (lines_rules hf) hr hr' (hi.trans hi'.symm)]

/-- A scenario without a `Rule:` line above it lies directly below the feature. -/
theorem mem_looseScenarios_iff {s : Scenario} (hs : s ∈ f.scenarios) : s ∈ f.looseScenarios ↔
    ∃ j : Nat, s.line = (j : Int) + 1 ∧ ∀ k, k < j → ¬Opens (strippedLines text) "Rule:" k := by
  have hf := ordered_read h
  obtain ⟨j, hj, -⟩ := exists_scenario_line h hs
  constructor
  · intro hloose
    refine ⟨j, hj, fun k hkj hk => ?_⟩
    obtain ⟨r, hr, hline⟩ := exists_rule_of_opens h hk
    have := line_lt_of_loose hf hloose hr
    omega
  · rintro ⟨j', hj', hno⟩
    obtain rfl : j = j' := by omega
    rcases mem_scenarios.1 hs with hloose | ⟨r, hr, hmem⟩
    · exact hloose
    · obtain ⟨i, hi, hopens⟩ := exists_rule_line h hr
      have := line_lt_of_mem_rule hf hr hmem
      exact absurd hopens (hno i (by omega))

/-- The rows of the scenario on a line are the example rows of that line. -/
theorem exists_row_iff {i r : Nat} :
    (∃ s ∈ f.scenarios, s.line = (i : Int) + 1 ∧ ∃ row ∈ s.rows, row.line = (r : Int) + 1) ↔
      (textMarks (strippedLines text)).IsExample i r := by
  rw [← marksOf_linesOf]
  constructor
  · rintro ⟨s, hs, hi, row, hrow, hr⟩
    exact isExample_of_mem h hs hrow hi hr
  · exact exists_row_of_isExample h

theorem described_read : Described (strippedLines text) f where
  title := titled_of_read h
  scenarios _ _ _ := titled_scenario_iff h
  scenario_lines := lines_scenarios (ordered_read h)
  rules _ _ := titled_rule_iff h
  rule_lines := lines_rules (ordered_read h)
  children := (ordered_read h).children
  nested _ hs _ hr := mem_rule_iff h hs hr
  loose _ hs := mem_looseScenarios_iff h hs
  rows _ _ := exists_row_iff h
  row_lines _ hs := lines_rows (ordered_read h) hs
  row_texts s hs row hrow := by
    obtain ⟨r, hr, hl, -⟩ := exists_row_line h hs hrow
    exact ⟨r, hr, (row_iff.1 hl).1⟩

end Tree

theorem read_eq_none_iff {text path : String} :
    read text path = none ↔ ∀ i, ¬Opens (strippedLines text) "Feature:" i := by
  have htitle := (reads_steps (linesOf text)).title
  rw [read, ofLines, Draft.finish, Option.map_eq_none_iff]
  constructor
  · intro hnone i hi
    rw [hnone] at htitle
    obtain ⟨name, hname⟩ := opens_iff_titled.1 hi
    have hl := feature_iff.2 hname
    exact htitle i (List.getElem?_eq_some_iff.1 hl).1 name hl
  · intro hno
    cases ht : (Draft.start.steps (linesOf text) 0 (linesOf text)).title with
    | none => rfl
    | some t =>
      rw [ht] at htitle
      obtain ⟨k, -, hk, -⟩ := htitle
      exact absurd (opens_iff_titled.2 ⟨_, feature_iff.1 hk⟩) (hno k)

/-- A text is read as a feature unless none of its lines starts with `Feature:`, and the feature
stands in its lines as the grammar says. -/
theorem read_grammar (text path : String) :
    (read text path = none ↔ ∀ i, ¬Opens (strippedLines text) "Feature:" i) ∧
      ∀ f, read text path = some f → f.path = path ∧ Described (strippedLines text) f := by
  refine ⟨read_eq_none_iff, fun f h => ⟨?_, described_read h⟩⟩
  obtain ⟨d, -, -, -, hpath⟩ := exists_draft_of_read h
  exact hpath

end FeatureRun.Feature
