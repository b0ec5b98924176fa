import FeatureRun.Feature.Reading

/-!
# The nodes of a feature in document order

The tree of a feature, flattened: every rule, scenario and row on a list of its own kind of node. If
the lines of that list increase, the list determines how the tree nests: a row belongs to the last
scenario above it, and a scenario to the last rule above it.

* `nodes`: the list.
* `Ordered`: scenarios without a rule come before all rules, and the lines increase.
* `no_header_between`, `no_rule_between`, `no_rule_above`: what nesting says about lines.
-/
set_option autoImplicit false

namespace FeatureRun.Feature

open scoped List

/-- A node below a feature, as its own line describes it. -/
inductive Node where
  | rule (name : String) (line : Int)
  | scenario (name : String) (line : Int) (outline : Bool)
  | row (line : Int) (text : String)
  deriving DecidableEq, Repr

namespace Node

def line : Node → Int
  | .rule _ n => n
  | .scenario _ n _ => n
  | .row n _ => n

def isRow : Node → Bool
  | .row _ _ => true
  | _ => false

end Node

def rowNode (r : Row) : Node := .row r.line r.text

def scenarioNodes (s : Scenario) : List Node :=
  .scenario s.name s.line s.outline :: s.rows.map rowNode

def childNodes : Child → List Node
  | .scenario s => scenarioNodes s
  | .rule r => .rule r.name r.line :: r.scenarios.flatMap scenarioNodes

def nodesOf (cs : List Child) : List Node := cs.flatMap childNodes

/-- All nodes below a feature. -/
def nodes (f : Feature) : List Node := nodesOf f.children

/-- The tree reads from top to bottom. -/
structure Ordered (f : Feature) : Prop where
  children : f.children = f.looseScenarios.map .scenario ++ f.rules.map .rule
  lines : (f.nodes.map Node.line).Pairwise (· < ·)

variable {f : Feature} {s : Scenario} {r : Rule} {row : Row}

/-! ## Nodes of the tree -/

theorem nodesOf_append (as bs : List Child) : nodesOf (as ++ bs) = nodesOf as ++ nodesOf bs :=
  List.flatMap_append

theorem mem_looseScenarios : s ∈ f.looseScenarios ↔ Child.scenario s ∈ f.children := by
  simp only [looseScenarios, List.mem_filterMap]
  constructor
  · rintro ⟨c, hc, hs⟩
    cases c <;> simp_all [Child.scenario?]
  · exact fun h => ⟨_, h, rfl⟩

theorem mem_rules : r ∈ f.rules ↔ Child.rule r ∈ f.children := by
  simp only [rules, List.mem_filterMap]
  constructor
  · rintro ⟨c, hc, hr⟩
    cases c <;> simp_all [Child.rule?]
  · exact fun h => ⟨_, h, rfl⟩

/-- A scenario stands directly below the feature or in one of its rules. -/
theorem mem_scenarios :
    s ∈ f.scenarios ↔ s ∈ f.looseScenarios ∨ ∃ r ∈ f.rules, s ∈ r.scenarios := by
  simp only [mem_looseScenarios, mem_rules, scenarios, List.mem_flatMap]
  constructor
  · rintro ⟨c, hc, hs⟩
    cases c with
    | scenario t => exact .inl (by simp_all [Child.scenarios])
    | rule r => exact .inr ⟨r, hc, hs⟩
  · rintro (h | ⟨r, hr, hs⟩)
    · exact ⟨_, h, by simp [Child.scenarios]⟩
    · exact ⟨_, hr, hs⟩

theorem mem_nodes_rule (h : r ∈ f.rules) : Node.rule r.name r.line ∈ f.nodes :=
  List.mem_flatMap.2 ⟨_, mem_rules.1 h, List.mem_cons_self⟩

theorem isRow_of_mem_rows {x : Node} (h : x ∈ s.rows.map rowNode) : x.isRow = true := by
  obtain ⟨r, -, rfl⟩ := List.mem_map.1 h
  rfl

/-- The nodes of a scenario stand together. -/
theorem scenarioNodes_isInfix (h : s ∈ f.scenarios) : scenarioNodes s <:+: f.nodes := by
  obtain ⟨c, hc, hs⟩ := List.mem_flatMap.1 h
  have hchild : scenarioNodes s <:+: childNodes c := by
    cases c with
    | scenario t => rw [List.mem_singleton.1 hs]; exact List.infix_rfl
    | rule r =>
      have hin : scenarioNodes s <:+: r.scenarios.flatMap scenarioNodes :=
        List.infix_of_mem_flatten (List.mem_map_of_mem hs)
      exact hin.trans (List.suffix_cons _ _).isInfix
  exact hchild.trans (List.infix_of_mem_flatten (List.mem_map_of_mem hc))

/-- So do those of a rule. -/
theorem childNodes_isInfix (h : r ∈ f.rules) : childNodes (.rule r) <:+: f.nodes :=
  List.infix_of_mem_flatten (List.mem_map_of_mem (mem_rules.1 h))

theorem mem_nodes_scenario (h : s ∈ f.scenarios) : Node.scenario s.name s.line s.outline ∈ f.nodes :=
  (scenarioNodes_isInfix h).subset List.mem_cons_self

theorem mem_nodes_row (h : s ∈ f.scenarios) (hr : row ∈ s.rows) : rowNode row ∈ f.nodes :=
  (scenarioNodes_isInfix h).subset (List.mem_cons_of_mem _ (List.mem_map_of_mem hr))

theorem mem_nodes {x : Node} :
    x ∈ f.nodes ↔
      (∃ r ∈ f.rules, x = .rule r.name r.line) ∨ ∃ s ∈ f.scenarios, x ∈ scenarioNodes s := by
  constructor
  · intro h
    obtain ⟨c, hc, hx⟩ := List.mem_flatMap.1 h
    cases c with
    | scenario s => exact .inr ⟨s, mem_scenarios.2 (.inl (mem_looseScenarios.2 hc)), hx⟩
    | rule r =>
      have hr := mem_rules.2 hc
      rcases List.mem_cons.1 hx with rfl | hx
      · exact .inl ⟨r, hr, rfl⟩
      · obtain ⟨s, hs, hx⟩ := List.mem_flatMap.1 hx
        exact .inr ⟨s, mem_scenarios.2 (.inr ⟨r, hr, hs⟩), hx⟩
  · rintro (⟨r, hr, rfl⟩ | ⟨s, hs, hx⟩)
    · exact mem_nodes_rule hr
    · exact (scenarioNodes_isInfix hs).subset hx

theorem rule_mem_nodes {name : String} {line : Int} :
    Node.rule name line ∈ f.nodes ↔ ∃ r ∈ f.rules, r.name = name ∧ r.line = line := by
  rw [mem_nodes]
  constructor
  · rintro (⟨r, hr, hx⟩ | ⟨s, -, hx⟩)
    · cases hx
      exact ⟨r, hr, rfl, rfl⟩
    · simp [scenarioNodes, rowNode] at hx
  · rintro ⟨r, hr, rfl, rfl⟩
    exact .inl ⟨r, hr, rfl⟩

theorem scenario_mem_nodes {name : String} {line : Int} {outline : Bool} :
    Node.scenario name line outline ∈ f.nodes ↔
      ∃ s ∈ f.scenarios, s.name = name ∧ s.line = line ∧ s.outline = outline := by
  rw [mem_nodes]
  constructor
  · rintro (⟨r, -, hx⟩ | ⟨s, hs, hx⟩)
    · nomatch hx
    · simp only [scenarioNodes, rowNode, List.mem_cons, List.mem_map, reduceCtorEq, and_false,
        exists_false, or_false, Node.scenario.injEq] at hx
      obtain ⟨rfl, rfl, rfl⟩ := hx
      exact ⟨s, hs, rfl, rfl, rfl⟩
  · rintro ⟨s, hs, rfl, rfl, rfl⟩
    exact .inr ⟨s, hs, List.mem_cons_self⟩

theorem row_mem_nodes {line : Int} {text : String} :
    Node.row line text ∈ f.nodes ↔
      ∃ s ∈ f.scenarios, ∃ row ∈ s.rows, row.line = line ∧ row.text = text := by
  rw [mem_nodes]
  constructor
  · rintro (⟨r, -, hx⟩ | ⟨s, hs, hx⟩)
    · nomatch hx
    · rcases List.mem_cons.1 hx with hx | hx
      · nomatch hx
      · obtain ⟨row, hrow, hx⟩ := List.mem_map.1 hx
        cases hx
        exact ⟨s, hs, row, hrow, rfl, rfl⟩
  · rintro ⟨s, hs, row, hrow, rfl, rfl⟩
    exact .inr ⟨s, hs, List.mem_cons_of_mem _ (List.mem_map_of_mem hrow)⟩

/-! ## Nesting and lines -/

/-- What stands on different lines is told apart by its line. -/
theorem eq_of_line_eq {α : Type} {line : α → Int} {xs : List α}
    (h : (xs.map line).Pairwise (· < ·)) {x y : α} (hx : x ∈ xs) (hy : y ∈ xs)
    (hl : line x = line y) : x = y := by
  induction xs with
  | nil => simp at hx
  | cons a xs ih =>
    obtain ⟨ha, h⟩ := List.pairwise_cons.1 h
    have hlt : ∀ b ∈ xs, line a < line b := fun b hb => ha _ (List.mem_map_of_mem hb)
    rcases List.mem_cons.1 hx with rfl | hx' <;> rcases List.mem_cons.1 hy with rfl | hy'
    · rfl
    · have := hlt y hy'; omega
    · have := hlt x hx'; omega
    · exact ih h hx' hy'

/-- In a list of increasing lines a stretch holds all that lies between two of its nodes. -/
theorem mem_of_line_between {ns part : List Node} (h : (ns.map Node.line).Pairwise (· < ·))
    (hpart : part <:+: ns) {a b x : Node} (ha : a ∈ part) (hb : b ∈ part) (hx : x ∈ ns)
    (hax : a.line ≤ x.line) (hxb : x.line ≤ b.line) : x ∈ part := by
  obtain ⟨before, after, rfl⟩ := hpart
  rw [List.pairwise_map, List.pairwise_append, List.pairwise_append] at h
  obtain ⟨⟨-, -, hbefore⟩, -, hafter⟩ := h
  rcases List.mem_append.1 hx with hx | hx
  · rcases List.mem_append.1 hx with hx | hx
    · have := hbefore x hx a ha; omega
    · exact hx
  · have := hafter b (List.mem_append_right _ hb) x hx; omega

theorem lines_scenarioNodes (hf : f.Ordered) (h : s ∈ f.scenarios) :
    ((scenarioNodes s).map Node.line).Pairwise (· < ·) :=
  hf.lines.sublist ((scenarioNodes_isInfix h).sublist.map _)

/-- A row stands below the header of its scenario. -/
theorem line_lt_of_mem_rows (hf : f.Ordered) (h : s ∈ f.scenarios) (hr : row ∈ s.rows) :
    s.line < row.line := by
  have hlines := lines_scenarioNodes hf h
  rw [scenarioNodes, List.map_cons, List.pairwise_cons] at hlines
  exact hlines.1 _ (List.mem_map_of_mem (List.mem_map_of_mem hr))

/-- Between the header of a scenario and one of its rows stand only rows. -/
theorem isRow_of_line_between (hf : f.Ordered) (h : s ∈ f.scenarios) (hr : row ∈ s.rows)
    {x : Node} (hx : x ∈ f.nodes) (hsx : s.line < x.line) (hxr : x.line ≤ row.line) :
    x.isRow = true := by
  have hhead : Node.scenario s.name s.line s.outline ∈ scenarioNodes s := List.mem_cons_self
  have hrow : rowNode row ∈ scenarioNodes s := List.mem_cons_of_mem _ (List.mem_map_of_mem hr)
  have hmem := mem_of_line_between hf.lines (scenarioNodes_isInfix h) hhead hrow hx
    (Int.le_of_lt hsx) hxr
  rcases List.mem_cons.1 hmem with rfl | hmem
  · exact absurd hsx (Int.lt_irrefl _)
  · exact isRow_of_mem_rows hmem

/-- The scenarios of a rule stand below it. -/
theorem line_lt_of_mem_rule (hf : f.Ordered) (h : r ∈ f.rules) (hs : s ∈ r.scenarios) :
    r.line < s.line := by
  have hlines := hf.lines.sublist ((childNodes_isInfix h).sublist.map Node.line)
  rw [childNodes, List.map_cons, List.pairwise_cons] at hlines
  refine hlines.1 _ (List.mem_map.2 ⟨.scenario s.name s.line s.outline, ?_, rfl⟩)
  exact List.mem_flatMap.2 ⟨s, hs, List.mem_cons_self⟩

theorem eq_head_of_rule_mem_childNodes {name : String} {line : Int}
    (h : Node.rule name line ∈ childNodes (.rule r)) : line = r.line := by
  rcases List.mem_cons.1 h with h | h
  · exact (Node.rule.inj h).2
  · obtain ⟨s, -, hx⟩ := List.mem_flatMap.1 h
    rcases List.mem_cons.1 hx with hx | hx
    · nomatch hx
    · exact absurd (isRow_of_mem_rows hx) (by simp [Node.isRow])

/-- Between a rule and one of its scenarios stands no other rule. -/
theorem eq_line_of_rule_between (hf : f.Ordered) (h : r ∈ f.rules) (hs : s ∈ r.scenarios)
    {name : String} {line : Int} (hx : Node.rule name line ∈ f.nodes) (hrl : r.line ≤ line)
    (hls : line ≤ s.line) : line = r.line := by
  have hhead : Node.rule r.name r.line ∈ childNodes (.rule r) := List.mem_cons_self
  have hscen : Node.scenario s.name s.line s.outline ∈ childNodes (.rule r) :=
    List.mem_cons_of_mem _ (List.mem_flatMap.2 ⟨s, hs, List.mem_cons_self⟩)
  exact eq_head_of_rule_mem_childNodes
    (mem_of_line_between hf.lines (childNodes_isInfix h) hhead hscen hx hrl hls)

theorem nodes_eq_of_ordered (hf : f.Ordered) :
    f.nodes = f.looseScenarios.flatMap scenarioNodes ++ nodesOf (f.rules.map .rule) := by
  rw [nodes, hf.children, nodesOf_append, nodesOf, List.flatMap_map]
  rfl

/-- A scenario without a rule stands above all rules. -/
theorem line_lt_of_loose (hf : f.Ordered) (h : s ∈ f.looseScenarios) (hr : r ∈ f.rules) :
    s.line < r.line := by
  have hlines := hf.lines
  rw [nodes_eq_of_ordered hf, List.pairwise_map, List.pairwise_append] at hlines
  refine hlines.2.2 (.scenario s.name s.line s.outline) ?_ (.rule r.name r.line) ?_
  · exact List.mem_flatMap.2 ⟨s, h, List.mem_cons_self⟩
  · exact List.mem_flatMap.2 ⟨_, List.mem_map_of_mem hr, List.mem_cons_self⟩

theorem map_sublist_flatMap {α β : Type} {head : α → β} {parts : α → List β} {xs : List α}
    (h : ∀ a ∈ xs, head a ∈ parts a) : xs.map head <+ xs.flatMap parts := by
  induction xs with
  | nil => exact List.Sublist.refl _
  | cons a xs ih =>
    rw [List.map_cons, List.flatMap_cons, ← List.singleton_append]
    exact (List.singleton_sublist.2 (h a List.mem_cons_self)).append
      (ih fun b hb => h b (List.mem_cons_of_mem _ hb))

/-- The lines of the rules increase. -/
theorem lines_rules (hf : f.Ordered) : (f.rules.map Rule.line).Pairwise (· < ·) := by
  have hsub : f.rules.map (fun r => Node.rule r.name r.line) <+ f.nodes := by
    rw [nodes_eq_of_ordered hf, nodesOf, List.flatMap_map]
    exact (map_sublist_flatMap fun r _ => List.mem_cons_self).trans (List.sublist_append_right _ _)
  have hlines := hf.lines.sublist (hsub.map Node.line)
  rwa [List.map_map] at hlines

/-- The scenarios without a rule come first, then those of each rule. -/
theorem scenarios_eq_of_ordered (hf : f.Ordered) :
    f.scenarios = f.looseScenarios ++ f.rules.flatMap Rule.scenarios := by
  rw [scenarios, hf.children, List.flatMap_append, List.flatMap_map, List.flatMap_map]
  congr 1
  exact List.flatMap_singleton' _

theorem scenarioNode_sublist (hf : f.Ordered) :
    f.scenarios.map (fun s => Node.scenario s.name s.line s.outline) <+ f.nodes := by
  have hhead : ∀ ss : List Scenario,
      ss.map (fun s => Node.scenario s.name s.line s.outline) <+ ss.flatMap scenarioNodes :=
    fun ss => map_sublist_flatMap fun s _ => List.mem_cons_self
  have hrule : ∀ rs : List Rule, (rs.flatMap Rule.scenarios).flatMap scenarioNodes <+
      nodesOf (rs.map .rule) := by
    intro rs
    induction rs with
    | nil => exact List.Sublist.refl _
    | cons r rs ih =>
      rw [List.flatMap_cons, List.flatMap_append, List.map_cons, nodesOf, List.flatMap_cons]
      exact (List.sublist_cons_self _ _).append ih
  rw [scenarios_eq_of_ordered hf, nodes_eq_of_ordered hf, List.map_append]
  exact (hhead _).append ((hhead _).trans (hrule _))

/-- The lines of the scenarios increase. -/
theorem lines_scenarios (hf : f.Ordered) : (f.scenarios.map Scenario.line).Pairwise (· < ·) := by
  have hlines := hf.lines.sublist ((scenarioNode_sublist hf).map Node.line)
  rwa [List.map_map] at hlines

/-- The lines of the rows of a scenario increase. -/
theorem lines_rows (hf : f.Ordered) (h : s ∈ f.scenarios) :
    (s.rows.map Row.line).Pairwise (· < ·) := by
  have hlines := lines_scenarioNodes hf h
  rw [scenarioNodes, List.map_cons, List.pairwise_cons, List.map_map] at hlines
  exact hlines.2

end FeatureRun.Feature
