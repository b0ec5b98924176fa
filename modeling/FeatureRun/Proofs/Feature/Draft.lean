import FeatureRun.Proofs.Feature.Nodes

/-!
# What one line adds to a draft

A draft already stands for a tree: the one that `finish` would give. Taking in a line adds at most
one node to it, behind all others.

* `nodes_step`: the nodes of a draft after one more line.
* `layout_step`: rules stay behind the scenarios without a rule.
-/
set_option autoImplicit false

namespace FeatureRun.Feature.Draft

/-- The children that finishing the draft now would give. -/
def tree (d : Draft) : List Child := d.closeRule.children.reverse

def nodes (d : Draft) : List Node := nodesOf d.tree

/-- The open scenario with its rows in order. -/
def upright (s : Scenario) : Scenario := { s with rows := s.rows.reverse }

def openRuleNodes (r : Rule) : List Node :=
  .rule r.name r.line :: r.scenarios.reverse.flatMap scenarioNodes

theorem nodes_eq (d : Draft) :
    d.nodes = nodesOf d.children.reverse ++ d.rule.toList.flatMap openRuleNodes ++
      d.scenario.toList.flatMap fun s => scenarioNodes (upright s) := by
  obtain ⟨title, children, rule, scenario, block⟩ := d
  cases rule <;> cases scenario <;>
    simp [nodes, tree, closeRule, closeScenario, nodesOf, childNodes, openRuleNodes, upright]

/-- A table row is taken as an example. -/
def TakesRow (lines : List Line) (index : Nat) (d : Draft) : Prop :=
  d.block ≠ .outside ∧
    ∃ s, d.scenario = some s ∧ s.outline = true ∧
      (owner? lines index).map Int.ofNat = some s.line

instance (lines : List Line) (index : Nat) (d : Draft) : Decidable (TakesRow lines index d) := by
  unfold TakesRow
  cases h : d.scenario with
  | none => exact isFalse (by simp)
  | some s =>
    exact decidable_of_iff
      (d.block ≠ .outside ∧ s.outline = true ∧ (owner? lines index).map Int.ofNat = some s.line)
      (by simp)

/-- The node that a line adds. -/
def emits (lines : List Line) (index : Nat) (d : Draft) : Line → List Node
  | .rule name => [.rule name (index + 1)]
  | .outline name => [.scenario name (index + 1) true]
  | .scenario name => [.scenario name (index + 1) false]
  | .row text => if d.TakesRow lines index then [.row (index + 1) text] else []
  | _ => []

/-- A line that is no row ends the table above it. -/
def settleBlock (d : Draft) (line : Line) : Draft :=
  if d.block = .rows && !line.isRow then { d with block := .outside } else d

@[simp] theorem nodes_settleBlock (d : Draft) (line : Line) :
    (d.settleBlock line).nodes = d.nodes := by
  unfold settleBlock
  split
  · simp [nodes_eq]
  · rfl

theorem nodes_openScenario (d : Draft) (name : String) (number : Int) (outline : Bool) :
    (d.openScenario name number outline).nodes = d.nodes ++ [.scenario name number outline] := by
  obtain ⟨title, children, rule, scenario, block⟩ := d
  cases rule <;> cases scenario <;>
    simp [nodes_eq, openScenario, closeScenario, nodesOf, childNodes, openRuleNodes, upright,
      scenarioNodes]

theorem nodes_openRule (d : Draft) (name : String) (number : Int) (block : Block) :
    Draft.nodes { d.closeRule with rule := some ⟨name, number, []⟩, block := block } =
      d.nodes ++ [.rule name number] := by
  obtain ⟨title, children, rule, scenario, block'⟩ := d
  cases rule <;> cases scenario <;>
    simp [nodes_eq, closeRule, closeScenario, nodesOf, childNodes, openRuleNodes, upright]

theorem nodes_addRow (lines : List Line) (index : Nat) (text : String) (d : Draft) :
    (d.addRow lines index text).nodes = d.nodes ++ d.emits lines index (.row text) := by
  obtain ⟨title, children, rule, scenario, block⟩ := d
  by_cases hb : block = .outside
  · simp [addRow, emits, TakesRow, hb]
  · cases scenario with
    | none => simp [addRow, emits, TakesRow, hb, nodes_eq]
    | some s =>
      by_cases hs : s.outline = true ∧ (owner? lines index).map Int.ofNat = some s.line
      · have htakes : TakesRow lines index ⟨title, children, rule, some s, block⟩ :=
          ⟨hb, s, rfl, hs⟩
        simp only [emits, if_pos htakes, addRow, if_neg hb, hs.1, hs.2, decide_true, Bool.and_true,
          if_true]
        simp [nodes_eq, upright, scenarioNodes, rowNode, hs.1]
      · have hno : ¬TakesRow lines index ⟨title, children, rule, some s, block⟩ := by
          rintro ⟨-, t, ht, h⟩
          exact hs (Option.some.inj ht ▸ h)
        have hcond : ¬(s.outline &&
            decide ((owner? lines index).map Int.ofNat = some s.line)) = true := by
          rwa [Bool.and_eq_true, decide_eq_true_eq]
        simp only [emits, if_neg hno, addRow, if_neg hb, if_neg hcond]
        simp [nodes_eq]

/-- One line adds what it emits, and nothing else. -/
theorem nodes_step (lines : List Line) (d : Draft) (index : Nat) (line : Line) :
    (d.step lines index line).nodes =
      d.nodes ++ (d.settleBlock line).emits lines index line := by
  have hstep : (d.step lines index line).nodes =
      (d.settleBlock line).nodes ++ (d.settleBlock line).emits lines index line := by
    cases line with
    | rule name => exact nodes_openRule _ _ _ _
    | outline name => exact nodes_openScenario _ _ _ _
    | scenario name => exact nodes_openScenario _ _ _ _
    | row text => exact nodes_addRow _ _ _ _
    | feature name => simp [step, settleBlock, emits, nodes_eq]
    | examples => simp [step, settleBlock, emits, nodes_eq]
    | other => simp [step, settleBlock, emits]
  rw [hstep, nodes_settleBlock]

/-! ## Rules stay behind -/

/-- Scenarios without a rule come first, and only they come as long as no rule is open. -/
def Layered (d : Draft) : Prop :=
  ∃ (ss : List Scenario) (rs : List Rule),
    d.children.reverse = ss.map .scenario ++ rs.map .rule ∧ (d.rule = none → rs = [])

theorem layered_start : start.Layered := ⟨[], [], rfl, fun _ => rfl⟩

theorem Layered.closeScenario {d : Draft} (h : d.Layered) : d.closeScenario.Layered := by
  obtain ⟨ss, rs, hd, hrule⟩ := h
  obtain ⟨title, children, rule, scenario, block⟩ := d
  cases scenario with
  | none => exact ⟨ss, rs, hd, hrule⟩
  | some s =>
    cases rule with
    | some r => exact ⟨ss, rs, hd, nofun⟩
    | none =>
      obtain rfl := hrule rfl
      refine ⟨ss ++ [upright s], [], ?_, fun _ => rfl⟩
      simp only [Draft.closeScenario, List.reverse_cons, upright] at hd ⊢
      simp [hd]

/-- What finishing a draft gives: scenarios without a rule, then rules. -/
theorem Layered.tree {d : Draft} (h : d.Layered) :
    ∃ (ss : List Scenario) (rs : List Rule), d.tree = ss.map .scenario ++ rs.map .rule := by
  obtain ⟨ss, rs, hd, hrule⟩ := h.closeScenario
  unfold Draft.tree closeRule
  cases hr : d.closeScenario.rule with
  | none =>
    refine ⟨ss, rs, ?_⟩
    simp only [hr, hd]
  | some r =>
    refine ⟨ss, rs ++ [{ r with scenarios := r.scenarios.reverse }], ?_⟩
    simp only [hr, List.reverse_cons, hd, List.map_append, List.append_assoc, List.map_cons,
      List.map_nil]

theorem layered_addRow {d : Draft} (h : d.Layered) (lines : List Line) (index : Nat)
    (text : String) : (d.addRow lines index text).Layered := by
  unfold addRow
  split
  · exact h
  · split
    · split <;> exact h
    · exact h

theorem layered_step {d : Draft} (h : d.Layered) (lines : List Line) (index : Nat) (line : Line) :
    (d.step lines index line).Layered := by
  have hsettled : (d.settleBlock line).Layered := by
    unfold settleBlock
    split <;> exact h
  cases line with
  | rule name =>
    obtain ⟨ss, rs, htree⟩ := hsettled.tree
    exact ⟨ss, rs, htree, nofun⟩
  | outline name => exact hsettled.closeScenario
  | scenario name => exact hsettled.closeScenario
  | row text => exact layered_addRow hsettled _ _ _
  | feature name => exact hsettled
  | examples => exact hsettled
  | other => exact hsettled

end FeatureRun.Feature.Draft
