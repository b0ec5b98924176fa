import FeatureRun.Catalog.Node
import FeatureRun.Proofs.Feature.Nodes

/-!
# The references to the nodes of a feature

The nodes of a feature, named by what refers to them, and the tree that they form: what lies below a
reference in document order, and the chain of references above it. The two agree.

* `Refers`: a reference to a node of a feature, one case for each kind of node.
* `Denotes`: the node that it refers to.
* `above`, `below`: the chain of parents, and the subtree.
* `mem_below_iff`: a node lies in the subtree of another one if that one is in its chain.
-/
set_option autoImplicit false

namespace FeatureRun.Feature

open Catalog

/-- The references to a scenario and its rows. -/
def scenarioRefs (file : String) (s : Scenario) : List NodeRef :=
  .scenario file s.line :: s.rows.map fun r => .row file s.line r.line

def ruleRefs (file : String) (r : Rule) : List NodeRef :=
  .rule file r.line :: r.scenarios.flatMap (scenarioRefs file)

def childRefs (file : String) : Child → List NodeRef
  | .scenario s => scenarioRefs file s
  | .rule r => ruleRefs file r

/-- The references to a feature and all its nodes, in document order. -/
def refs (f : Feature) (file : String) : List NodeRef :=
  .feature file :: f.children.flatMap (childRefs file)

/-- A reference to a node of a feature. -/
inductive Refers (f : Feature) (file : String) : NodeRef → Prop where
  | feature : Refers f file (.feature file)
  | rule {r : Rule} (hr : r ∈ f.rules) : Refers f file (.rule file r.line)
  | scenario {s : Scenario} (hs : s ∈ f.scenarios) : Refers f file (.scenario file s.line)
  | row {s : Scenario} {row : Row} (hs : s ∈ f.scenarios) (hrow : row ∈ s.rows) :
    Refers f file (.row file s.line row.line)

/-- What a reference to a node of a feature stands for. -/
inductive Denotes (f : Feature) (file : String) : NodeRef → CatalogNode → Prop where
  | feature : Denotes f file (.feature file) (.feature f)
  | rule {r : Rule} (hr : r ∈ f.rules) : Denotes f file (.rule file r.line) (.rule r)
  | scenario {s : Scenario} (hs : s ∈ f.scenarios) :
    Denotes f file (.scenario file s.line) (.scenario s)
  | row {s : Scenario} {row : Row} (hs : s ∈ f.scenarios) (hrow : row ∈ s.rows) :
    Denotes f file (.row file s.line row.line) (.row row)

/-- What the parent of a node is referred to by. -/
def parent? (f : Feature) : NodeRef → Option NodeRef
  | .feature _ => none
  | .rule file _ => some (.feature file)
  | .scenario file line =>
    match ruleAround? f line with
    | some r => some (.rule file r.line)
    | none => some (.feature file)
  | .row file scenarioLine _ => some (.scenario file scenarioLine)

/-- The rule around a scenario, if there is one. -/
def ruleAbove (f : Feature) (file : String) (line : Int) : List NodeRef :=
  ((ruleAround? f line).map fun r => .rule file r.line).toList

/-- The parent of a node, its parent, and so on. -/
def above (f : Feature) : NodeRef → List NodeRef
  | .feature _ => []
  | .rule file _ => [.feature file]
  | .scenario file line => f.ruleAbove file line ++ [.feature file]
  | .row file scenarioLine _ =>
    .scenario file scenarioLine :: (f.ruleAbove file scenarioLine ++ [.feature file])

/-- A node and everything below it in document order. -/
def below (f : Feature) : NodeRef → List NodeRef
  | .feature file => f.refs file
  | .rule file line => ((ruleOn? f line).map (ruleRefs file)).getD []
  | .scenario file line => ((scenarioOn? f line).map (scenarioRefs file)).getD []
  | .row file scenarioLine line => [.row file scenarioLine line]

variable {f : Feature} {file : String} {s : Scenario} {r : Rule} {x y : NodeRef}

theorem Refers.file_eq (h : f.Refers file x) : x.file = file := by
  cases h <;> rfl

theorem Denotes.refers {node : CatalogNode} (h : f.Denotes file x node) : f.Refers file x := by
  cases h with
  | feature => exact .feature
  | rule hr => exact .rule hr
  | scenario hs => exact .scenario hs
  | row hs hrow => exact .row hs hrow

theorem Refers.exists_denotes (h : f.Refers file x) : ∃ node, f.Denotes file x node := by
  cases h with
  | feature => exact ⟨_, .feature⟩
  | rule hr => exact ⟨_, .rule hr⟩
  | scenario hs => exact ⟨_, .scenario hs⟩
  | row hs hrow => exact ⟨_, .row hs hrow⟩

theorem mem_scenarioRefs : x ∈ scenarioRefs file s ↔
    x = .scenario file s.line ∨ ∃ row ∈ s.rows, x = .row file s.line row.line := by
  simp [scenarioRefs, eq_comm]

theorem mem_ruleRefs : x ∈ ruleRefs file r ↔
    x = .rule file r.line ∨ ∃ s ∈ r.scenarios, x ∈ scenarioRefs file s := by
  simp [ruleRefs]

theorem refers_of_mem_scenarioRefs (hs : s ∈ f.scenarios) (h : x ∈ scenarioRefs file s) :
    f.Refers file x := by
  rcases mem_scenarioRefs.1 h with rfl | ⟨row, hrow, rfl⟩
  · exact .scenario hs
  · exact .row hs hrow

theorem refers_of_mem_ruleRefs (hr : r ∈ f.rules) (h : x ∈ ruleRefs file r) : f.Refers file x := by
  rcases mem_ruleRefs.1 h with rfl | ⟨s, hs, h⟩
  · exact .rule hr
  · exact refers_of_mem_scenarioRefs (mem_scenarios.2 (.inr ⟨r, hr, hs⟩)) h

theorem mem_refs_of_mem_scenarioRefs (hs : s ∈ f.scenarios) (h : x ∈ scenarioRefs file s) :
    x ∈ f.refs file := by
  refine List.mem_cons_of_mem _ (List.mem_flatMap.2 ?_)
  rcases mem_scenarios.1 hs with hs | ⟨r, hr, hs⟩
  · exact ⟨_, mem_looseScenarios.1 hs, h⟩
  · exact ⟨_, mem_rules.1 hr, mem_ruleRefs.2 (.inr ⟨s, hs, h⟩)⟩

/-- The list of references has exactly those to nodes of the feature. -/
theorem mem_refs : x ∈ f.refs file ↔ f.Refers file x := by
  constructor
  · intro h
    rcases List.mem_cons.1 h with rfl | h
    · exact .feature
    obtain ⟨c, hc, hx⟩ := List.mem_flatMap.1 h
    cases c with
    | scenario s =>
      exact refers_of_mem_scenarioRefs (mem_scenarios.2 (.inl (mem_looseScenarios.2 hc))) hx
    | rule r => exact refers_of_mem_ruleRefs (mem_rules.2 hc) hx
  · intro h
    cases h with
    | feature => exact List.mem_cons_self
    | rule hr =>
      refine List.mem_cons_of_mem _ (List.mem_flatMap.2 ⟨_, mem_rules.1 hr, ?_⟩)
      exact List.mem_cons_self
    | scenario hs => exact mem_refs_of_mem_scenarioRefs hs List.mem_cons_self
    | row hs hrow =>
      exact mem_refs_of_mem_scenarioRefs hs (mem_scenarioRefs.2 (.inr ⟨_, hrow, rfl⟩))

/-! ## Looking up lines -/

section Lines

variable (hf : f.Ordered)

include hf

/-- A rule is found by its line. -/
theorem ruleOn?_eq (hr : r ∈ f.rules) : ruleOn? f r.line = some r := by
  obtain ⟨t, ht⟩ : ∃ t, ruleOn? f r.line = some t :=
    Option.isSome_iff_exists.1 (List.find?_isSome.2 ⟨r, hr, by simp⟩)
  have hline : t.line = r.line := by simpa using List.find?_some ht
  rw [ht, eq_of_line_eq (lines_rules hf) (List.mem_of_find?_eq_some ht) hr hline]

/-- So is a scenario. -/
theorem scenarioOn?_eq (hs : s ∈ f.scenarios) : scenarioOn? f s.line = some s := by
  obtain ⟨t, ht⟩ : ∃ t, scenarioOn? f s.line = some t :=
    Option.isSome_iff_exists.1 (List.find?_isSome.2 ⟨s, hs, by simp⟩)
  have hline : t.line = s.line := by simpa using List.find?_some ht
  rw [ht, eq_of_line_eq (lines_scenarios hf) (List.mem_of_find?_eq_some ht) hs hline]

theorem rowOn?_eq {row : Row} (hs : s ∈ f.scenarios) (hrow : row ∈ s.rows) :
    rowOn? s row.line = some row := by
  obtain ⟨t, ht⟩ : ∃ t, rowOn? s row.line = some t :=
    Option.isSome_iff_exists.1 (List.find?_isSome.2 ⟨row, hrow, by simp⟩)
  have hline : t.line = row.line := by simpa using List.find?_some ht
  rw [ht, eq_of_line_eq (lines_rows hf hs) (List.mem_of_find?_eq_some ht) hrow hline]

/-- No rule is found on the line of another node. -/
theorem ruleOn?_eq_none {x : Node} (hx : x ∈ f.nodes) (hno : ∀ name line, x ≠ .rule name line) :
    ruleOn? f x.line = none := by
  rw [ruleOn?, List.find?_eq_none]
  intro r hr hline
  have hsame : (Node.rule r.name r.line).line = x.line := of_decide_eq_true hline
  exact hno _ _ (eq_of_line_eq hf.lines (mem_nodes_rule hr) hx hsame).symm

/-- Two scenarios on one line are the same. -/
theorem scenario_eq_of_line {t : Scenario} (hs : s ∈ f.scenarios) (ht : t ∈ f.scenarios)
    (hline : s.line = t.line) : s = t :=
  eq_of_line_eq (lines_scenarios hf) hs ht hline

/-- The rule around a scenario is the one that holds it. -/
theorem ruleAround?_eq_some_iff (hs : s ∈ f.scenarios) :
    ruleAround? f s.line = some r ↔ r ∈ f.rules ∧ s ∈ r.scenarios := by
  have holds : ∀ {t : Rule}, t ∈ f.rules → (t.scenarios.any fun u => u.line = s.line) = true →
      s ∈ t.scenarios := by
    intro t ht hany
    obtain ⟨u, hu, hline⟩ := List.any_eq_true.1 hany
    have hmem : u ∈ f.scenarios := mem_scenarios.2 (.inr ⟨t, ht, hu⟩)
    rwa [← scenario_eq_of_line hf hmem hs (by simpa using hline)]
  constructor
  · intro h
    have hr := List.mem_of_find?_eq_some h
    have hany := List.find?_some h
    exact ⟨hr, holds hr hany⟩
  · rintro ⟨hr, hin⟩
    obtain ⟨t, ht⟩ : ∃ t, ruleAround? f s.line = some t :=
      Option.isSome_iff_exists.1
        (List.find?_isSome.2 ⟨r, hr, List.any_eq_true.2 ⟨s, hin, by simp⟩⟩)
    have htr := List.mem_of_find?_eq_some ht
    have hany := List.find?_some ht
    have hst := holds htr hany
    have hlt := line_lt_of_mem_rule hf hr hin
    have hlt' := line_lt_of_mem_rule hf htr hst
    -- of two rules above the scenario, the lower one would stand between the other and it
    have hline : t.line = r.line := by
      rcases Int.le_total t.line r.line with hle | hle
      · exact (eq_line_of_rule_between hf htr hst (mem_nodes_rule hr) hle (Int.le_of_lt hlt)).symm
      · exact eq_line_of_rule_between hf hr hin (mem_nodes_rule htr) hle (Int.le_of_lt hlt')
    rw [ht, eq_of_line_eq (lines_rules hf) htr hr hline]

end Lines

/-! ## The tree of references -/

theorem above_eq (x : NodeRef) :
    f.above x = match f.parent? x with | none => [] | some p => p :: f.above p := by
  cases x with
  | feature => rfl
  | rule => rfl
  | scenario file line =>
    simp only [above, parent?, ruleAbove]
    cases ruleAround? f line <;> rfl
  | row => rfl

/-- The first node above another one goes on with the rest of the chain. -/
theorem above_of_cons {p : NodeRef} {ps : List NodeRef} (h : f.above x = p :: ps) :
    f.above p = ps := by
  rw [above_eq] at h
  split at h
  · nomatch h
  · obtain ⟨rfl, hps⟩ := List.cons.inj h
    exact hps

/-- What is above a node is above everything below it. -/
theorem above_trans {z : NodeRef} (hy : y ∈ f.above x) (hz : z ∈ f.above y) : z ∈ f.above x := by
  induction habove : f.above x generalizing x with
  | nil => simp [habove] at hy
  | cons p ps ih =>
    have hstep := above_of_cons habove
    rw [habove] at hy
    refine List.mem_cons_of_mem _ ?_
    rcases List.mem_cons.1 hy with rfl | hy
    · rwa [← hstep]
    · exact ih (hstep ▸ hy) hstep

/-- The nodes above a node form a chain. -/
theorem above_total {z : NodeRef} (hy : y ∈ f.above x) (hz : z ∈ f.above x) :
    y = z ∨ y ∈ f.above z ∨ z ∈ f.above y := by
  induction habove : f.above x generalizing x with
  | nil => simp [habove] at hy
  | cons p ps ih =>
    have hstep := above_of_cons habove
    rw [habove] at hy hz
    rcases List.mem_cons.1 hy with rfl | hy'
    · rcases List.mem_cons.1 hz with rfl | hz'
      · exact .inl rfl
      · exact .inr (.inr (hstep ▸ hz'))
    · rcases List.mem_cons.1 hz with rfl | hz'
      · exact .inr (.inl (hstep ▸ hy'))
      · exact ih (hstep ▸ hy') (hstep ▸ hz') hstep

/-- A node above another one has fewer nodes above it. -/
theorem length_above_lt (hy : y ∈ f.above x) : (f.above y).length < (f.above x).length := by
  induction habove : f.above x generalizing x with
  | nil => simp [habove] at hy
  | cons p ps ih =>
    have hstep := above_of_cons habove
    rw [habove] at hy
    rcases List.mem_cons.1 hy with rfl | hy
    · simp [hstep]
    · exact Nat.lt_succ_of_lt (ih (hstep ▸ hy) hstep)

theorem length_above_le (f : Feature) (x : NodeRef) : (f.above x).length ≤ 3 := by
  have hrule : ∀ file line, (f.ruleAbove file line).length ≤ 1 := by
    intro file line
    unfold ruleAbove
    cases ruleAround? f line <;> simp
  cases x with
  | feature => simp [above]
  | rule => simp [above]
  | scenario file line => have := hrule file line; simp only [above, List.length_append]; simp; omega
  | row file line => have := hrule file line; simp [above]; omega

theorem mem_above_row {scenarioLine line : Int} : y ∈ f.above (.row file scenarioLine line) ↔
    y = .scenario file scenarioLine ∨ y ∈ f.above (.scenario file scenarioLine) := List.mem_cons

section Tree

variable (hf : f.Ordered)

include hf

theorem mem_ruleAbove (hs : s ∈ f.scenarios) :
    y ∈ f.ruleAbove file s.line ↔ ∃ r ∈ f.rules, s ∈ r.scenarios ∧ y = .rule file r.line := by
  simp only [ruleAbove, Option.mem_toList, Option.map_eq_some_iff, ruleAround?_eq_some_iff hf hs]
  exact ⟨fun ⟨r, ⟨hr, hin⟩, he⟩ => ⟨r, hr, hin, he.symm⟩,
    fun ⟨r, hr, hin, he⟩ => ⟨r, ⟨hr, hin⟩, he.symm⟩⟩

theorem mem_above_scenario (hs : s ∈ f.scenarios) : y ∈ f.above (.scenario file s.line) ↔
    y = .feature file ∨ ∃ r ∈ f.rules, s ∈ r.scenarios ∧ y = .rule file r.line := by
  rw [above, List.mem_append, mem_ruleAbove hf hs, List.mem_singleton, or_comm]

theorem Refers.parent? (h : f.Refers file x) {p : NodeRef} (hp : f.parent? x = some p) :
    f.Refers file p := by
  cases h with
  | feature => nomatch hp
  | rule =>
    cases hp
    exact .feature
  | scenario hs =>
    simp only [Feature.parent?] at hp
    split at hp
    · rename_i r hr
      cases hp
      exact .rule ((ruleAround?_eq_some_iff hf hs).1 hr).1
    · cases hp
      exact .feature
  | row hs =>
    cases hp
    exact .scenario hs

/-- Everything above a node of a feature is a node of the feature. -/
theorem Refers.above (h : f.Refers file x) (hy : y ∈ f.above x) : f.Refers file y := by
  have hscenario : ∀ {s : Scenario}, s ∈ f.scenarios →
      y ∈ f.above (.scenario file s.line) → f.Refers file y := by
    intro s hs hy
    rcases (mem_above_scenario hf hs).1 hy with rfl | ⟨r, hr, -, rfl⟩
    · exact .feature
    · exact .rule hr
  cases h with
  | feature => nomatch hy
  | rule =>
    rw [List.mem_singleton.1 hy]
    exact .feature
  | scenario hs => exact hscenario hs hy
  | row hs =>
    rcases mem_above_row.1 hy with rfl | hy
    · exact .scenario hs
    · exact hscenario hs hy

theorem below_rule (hr : r ∈ f.rules) : f.below (.rule file r.line) = ruleRefs file r := by
  rw [below, ruleOn?_eq hf hr]
  rfl

theorem below_scenario (hs : s ∈ f.scenarios) :
    f.below (.scenario file s.line) = scenarioRefs file s := by
  rw [below, scenarioOn?_eq hf hs]
  rfl

theorem self_mem_below (h : f.Refers file x) : x ∈ f.below x := by
  cases h with
  | feature => exact List.mem_cons_self
  | rule hr => exact below_rule hf hr ▸ List.mem_cons_self
  | scenario hs => exact below_scenario hf hs ▸ List.mem_cons_self
  | row => exact List.mem_cons_self

/-- Whatever lies in a subtree has its root above it. -/
theorem mem_above_of_mem_below (hx : f.Refers file x) (hy : f.Refers file y) (h : y ∈ f.below x) :
    x = y ∨ x ∈ f.above y := by
  cases hx with
  | feature =>
    cases hy with
    | feature => exact .inl rfl
    | rule => exact .inr (List.mem_singleton.2 rfl)
    | scenario hs => exact .inr ((mem_above_scenario hf hs).2 (.inl rfl))
    | row hs => exact .inr (mem_above_row.2 (.inr ((mem_above_scenario hf hs).2 (.inl rfl))))
  | rule hr =>
    rw [below_rule hf hr, mem_ruleRefs] at h
    rcases h with rfl | ⟨s, hin, h⟩
    · exact .inl rfl
    have hs := mem_scenarios.2 (.inr ⟨_, hr, hin⟩)
    have habove : .rule file _ ∈ f.above (.scenario file s.line) :=
      (mem_above_scenario hf hs).2 (.inr ⟨_, hr, hin, rfl⟩)
    rcases mem_scenarioRefs.1 h with rfl | ⟨row, -, rfl⟩
    · exact .inr habove
    · exact .inr (mem_above_row.2 (.inr habove))
  | scenario hs =>
    rw [below_scenario hf hs] at h
    rcases mem_scenarioRefs.1 h with rfl | ⟨row, -, rfl⟩
    · exact .inl rfl
    · exact .inr (mem_above_row.2 (.inl rfl))
  | row => exact .inl (List.mem_singleton.1 h).symm

/-- A subtree holds every node that has its root above it. -/
theorem mem_below_of_mem_above (hy : f.Refers file y) (h : x ∈ f.above y) : y ∈ f.below x := by
  cases hy with
  | feature => nomatch h
  | rule hr =>
    rw [List.mem_singleton.1 h]
    exact mem_refs.2 (.rule hr)
  | scenario hs =>
    rcases (mem_above_scenario hf hs).1 h with rfl | ⟨r, hr, hin, rfl⟩
    · exact mem_refs.2 (.scenario hs)
    · rw [below_rule hf hr]
      exact mem_ruleRefs.2 (.inr ⟨_, hin, List.mem_cons_self⟩)
  | row hs hrow =>
    have hmem : .row file _ _ ∈ scenarioRefs file _ := mem_scenarioRefs.2 (.inr ⟨_, hrow, rfl⟩)
    rcases mem_above_row.1 h with rfl | h
    · rwa [below_scenario hf hs]
    · rcases (mem_above_scenario hf hs).1 h with rfl | ⟨r, hr, hin, rfl⟩
      · exact mem_refs.2 (.row hs hrow)
      · rw [below_rule hf hr]
        exact mem_ruleRefs.2 (.inr ⟨_, hin, hmem⟩)

/-- A node lies in the subtree of another one if that one is the node itself or above it. -/
theorem mem_below_iff (hx : f.Refers file x) (hy : f.Refers file y) :
    y ∈ f.below x ↔ x = y ∨ x ∈ f.above y := by
  refine ⟨mem_above_of_mem_below hf hx hy, ?_⟩
  rintro (rfl | h)
  · exact self_mem_below hf hx
  · exact mem_below_of_mem_above hf hy h

/-- Everything in the subtree of a node of a feature is a node of the feature. -/
theorem Refers.below (hx : f.Refers file x) (h : y ∈ f.below x) : f.Refers file y := by
  cases hx with
  | feature => exact mem_refs.1 h
  | rule hr => exact refers_of_mem_ruleRefs hr (below_rule hf hr ▸ h)
  | scenario hs => exact refers_of_mem_scenarioRefs hs (below_scenario hf hs ▸ h)
  | row hs hrow =>
    rw [List.mem_singleton.1 h]
    exact .row hs hrow

end Tree

end FeatureRun.Feature
