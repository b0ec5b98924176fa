import FeatureRun.Proofs.Feature.Table

/-!
# The nodes that reading gives

The one pass over the lines of a text, seen as a list of nodes: every line describes at most one
node, and the tree that is read holds these nodes in the order of their lines.

* `nodeAt`: the node that a line describes.
* `Draft.Reads`: a draft is what the lines above say; `Draft.Reads.step` keeps it line by line.
* `nodes_read`, `ordered_read`: the nodes of the feature that is read, and how its tree is ordered.
-/
set_option autoImplicit false

namespace FeatureRun.Feature

/-! ## From lines to nodes -/

open Classical in
/-- The node that the line at a position describes. -/
noncomputable def nodeAt (lines : List Line) (i : Nat) : Option Node :=
  match lines[i]? with
  | some (.rule name) => some (.rule name (i + 1))
  | some (.outline name) => some (.scenario name (i + 1) true)
  | some (.scenario name) => some (.scenario name (i + 1) false)
  | some (.row text) =>
    if ∃ s, (marksOf lines).IsExample s i then some (.row (i + 1) text) else none
  | _ => none

/-- The title is that of the first `Feature:` line above `n`. -/
def TitleFits (lines : List Line) (n : Nat) : Option (String × Int) → Prop
  | none => ∀ k, k < n → ∀ name, lines[k]? ≠ some (.feature name)
  | some (name, number) => ∃ k, k < n ∧ lines[k]? = some (.feature name) ∧ number = (k : Int) + 1 ∧
      ∀ j, j < k → ∀ other, lines[j]? ≠ some (.feature other)

/-- The draft is what the lines above `n` say. -/
structure Draft.Reads (lines : List Line) (n : Nat) (d : Draft) : Prop where
  tracks : d.Tracks lines n
  layered : d.Layered
  nodes : d.nodes = (List.range n).filterMap (nodeAt lines)
  title : TitleFits lines n d.title

section Run

variable {lines : List Line} {n : Nat} {d : Draft} {l : Line}

theorem emits_eq (h : d.Tracks lines n) (hl : lines[n]? = some l) :
    (d.settleBlock l).emits lines n l = (nodeAt lines n).toList := by
  unfold nodeAt
  rw [hl]
  cases l with
  | row text =>
    have hd : d.settleBlock (.row text) = d := by simp [Draft.settleBlock, Line.isRow]
    have htakes := h.takesRow_iff ⟨_, hl, rfl⟩
    rw [hd]
    simp only [Draft.emits]
    by_cases hex : ∃ s, (marksOf lines).IsExample s n
    · rw [if_pos (htakes.2 hex), if_pos hex]
      rfl
    · rw [if_neg fun ht => hex (htakes.1 ht), if_neg hex]
      rfl
  | _ => rfl

theorem closeScenario_title (d : Draft) : d.closeScenario.title = d.title := by
  unfold Draft.closeScenario
  split
  · rfl
  · split <;> rfl

theorem closeRule_title (d : Draft) : d.closeRule.title = d.title := by
  unfold Draft.closeRule
  dsimp only
  split <;> exact closeScenario_title d

theorem addRow_title (text : String) : (d.addRow lines n text).title = d.title := by
  unfold Draft.addRow
  split
  · rfl
  · split
    · split <;> rfl
    · rfl

theorem settleBlock_title (d : Draft) (l : Line) : (d.settleBlock l).title = d.title := by
  unfold Draft.settleBlock
  split <;> rfl

theorem TitleFits.succ {t : Option (String × Int)} (h : TitleFits lines n t)
    (hn : ∀ name, lines[n]? ≠ some (.feature name)) : TitleFits lines (n + 1) t := by
  cases t with
  | none =>
    intro k hk
    rcases Nat.lt_succ_iff_lt_or_eq.1 hk with hk | rfl
    · exact h k hk
    · exact hn
  | some t =>
    obtain ⟨k, hk, hrest⟩ := h
    exact ⟨k, Nat.lt_succ_of_lt hk, hrest⟩

/-- The first `Feature:` line counts. -/
theorem TitleFits.orElse {t : Option (String × Int)} (h : TitleFits lines n t) {name : String}
    (hl : lines[n]? = some (.feature name)) :
    TitleFits lines (n + 1) (t <|> some (name, (n : Int) + 1)) := by
  cases t with
  | none => exact ⟨n, Nat.lt_succ_self n, hl, rfl, h⟩
  | some t =>
    obtain ⟨k, hk, hrest⟩ := h
    exact ⟨k, Nat.lt_succ_of_lt hk, hrest⟩

theorem step_title (d : Draft) (l : Line) :
    (d.step lines n l).title =
      match l with
      | .feature name => d.title <|> some (name, (n : Int) + 1)
      | _ => d.title := by
  have hsettled := settleBlock_title d l
  cases l with
  | feature name => exact congrArg (· <|> some (name, (n : Int) + 1)) hsettled
  | rule name => exact (closeRule_title _).trans hsettled
  | outline name => exact (closeScenario_title _).trans hsettled
  | scenario name => exact (closeScenario_title _).trans hsettled
  | row text => exact (addRow_title text).trans hsettled
  | examples => exact hsettled
  | other => exact hsettled

theorem TitleFits.step (h : TitleFits lines n d.title) (hl : lines[n]? = some l) :
    TitleFits lines (n + 1) (d.step lines n l).title := by
  rw [step_title]
  cases l with
  | feature name => exact h.orElse hl
  | _ => exact h.succ (by simp [hl])

/-- One line more. -/
theorem Draft.Reads.step (h : d.Reads lines n) (hl : lines[n]? = some l) :
    (d.step lines n l).Reads lines (n + 1) where
  tracks := tracks_step h.tracks hl
  layered := Draft.layered_step h.layered _ _ _
  nodes := by
    rw [Draft.nodes_step, emits_eq h.tracks hl, h.nodes, List.range_succ, List.filterMap_append]
    rw [List.filterMap_cons, List.filterMap_nil]
    cases nodeAt lines n <;> rfl
  title := h.title.step hl

theorem reads_start (lines : List Line) : Draft.start.Reads lines 0 where
  tracks := tracks_start lines
  layered := Draft.layered_start
  nodes := rfl
  title := fun _ hk => absurd hk (Nat.not_lt_zero _)

/-- All lines that are left. -/
theorem Draft.Reads.steps {above rest : List Line} (hlines : lines = above ++ rest)
    (h : d.Reads lines above.length) :
    (d.steps lines above.length rest).Reads lines lines.length := by
  induction rest generalizing above d with
  | nil => simpa [Draft.steps, hlines] using h
  | cons l rest ih =>
    have hl : lines[above.length]? = some l := by simp [hlines]
    have hnext := h.step hl
    have hlines' : lines = (above ++ [l]) ++ rest := by simp [hlines]
    have := ih hlines' (by simpa using hnext)
    simpa [Draft.steps] using this

end Run

/-- The draft at the end of the lines of a text. -/
theorem reads_steps (lines : List Line) :
    (Draft.start.steps lines 0 lines).Reads lines lines.length :=
  Draft.Reads.steps (List.nil_append lines).symm (reads_start lines)

theorem layers_eq {cs : List Child} {ss : List Scenario} {rs : List Rule}
    (h : cs = ss.map .scenario ++ rs.map .rule) :
    cs.filterMap Child.scenario? = ss ∧ cs.filterMap Child.rule? = rs := by
  subst h
  have hs : ∀ l : List Scenario, (l.map Child.scenario).filterMap Child.rule? = [] := fun l => by
    simp [List.filterMap_map, Function.comp_def, Child.rule?]
  have hr : ∀ l : List Rule, (l.map Child.rule).filterMap Child.scenario? = [] := fun l => by
    simp [List.filterMap_map, Function.comp_def, Child.scenario?]
  refine ⟨?_, ?_⟩
  · rw [List.filterMap_append, hr, List.append_nil, List.filterMap_map]
    exact List.filterMap_some
  · rw [List.filterMap_append, hs, List.nil_append, List.filterMap_map]
    exact List.filterMap_some

/-- A node carries the number of the line it was read from. -/
theorem line_of_nodeAt {lines : List Line} {i : Nat} {x : Node} (h : nodeAt lines i = some x) :
    x.line = (i : Int) + 1 := by
  unfold nodeAt at h
  split at h
  · cases h; rfl
  · cases h; rfl
  · cases h; rfl
  · split at h
    · cases h; rfl
    · nomatch h
  · nomatch h

section NodeAt

variable {lines : List Line} {i : Nat} {name text : String} {line : Int} {outline : Bool}

theorem nodeAt_eq_rule_iff : nodeAt lines i = some (.rule name line) ↔
    lines[i]? = some (.rule name) ∧ line = (i : Int) + 1 := by
  unfold nodeAt
  cases lines[i]? with
  | none => simp
  | some l =>
    cases l with
    | row text => dsimp only; split <;> simp
    | _ => simp [eq_comm]

theorem nodeAt_eq_scenario_iff : nodeAt lines i = some (.scenario name line outline) ↔
    lines[i]? = some (if outline then .outline name else .scenario name) ∧
      line = (i : Int) + 1 := by
  unfold nodeAt
  cases lines[i]? with
  | none => simp
  | some l =>
    cases l with
    | row text => dsimp only; cases outline <;> split <;> simp
    | _ => cases outline <;> simp [eq_comm]

theorem nodeAt_eq_row_iff : nodeAt lines i = some (.row line text) ↔
    lines[i]? = some (.row text) ∧ line = (i : Int) + 1 ∧ ∃ s, (marksOf lines).IsExample s i := by
  unfold nodeAt
  cases lines[i]? with
  | none => simp
  | some l =>
    cases l with
    | row t =>
      dsimp only
      split
      · rename_i h; simp [h, eq_comm, and_comm]
      · rename_i h; simp [h]
    | _ => simp

end NodeAt

theorem lines_filterMap_nodeAt (lines : List Line) (n : Nat) :
    (((List.range n).filterMap (nodeAt lines)).map Node.line).Pairwise (· < ·) := by
  rw [List.pairwise_map, List.pairwise_filterMap]
  refine List.pairwise_lt_range.imp fun {i j} hij x hx y hy => ?_
  rw [line_of_nodeAt hx, line_of_nodeAt hy]
  omega

/-! ## The feature that is read -/

section Read

variable {text path : String} {f : Feature}

/-- The feature that a text describes is what the draft at its end stands for. -/
theorem exists_draft_of_read (h : read text path = some f) :
    ∃ d : Draft, d.Reads (linesOf text) (linesOf text).length ∧ f.children = d.tree ∧
      d.title = some (f.name, f.line) ∧ f.path = path := by
  refine ⟨_, reads_steps (linesOf text), ?_⟩
  obtain ⟨⟨name, number⟩, ht, rfl⟩ := Option.map_eq_some_iff.1 h
  exact ⟨rfl, ht, rfl⟩

/-- The nodes of a feature are what its lines describe. -/
theorem nodes_read (h : read text path = some f) :
    f.nodes = (List.range (linesOf text).length).filterMap (nodeAt (linesOf text)) := by
  obtain ⟨d, hd, hchildren, -⟩ := exists_draft_of_read h
  rw [nodes, hchildren]
  exact hd.nodes

theorem ordered_read (h : read text path = some f) : f.Ordered where
  children := by
    obtain ⟨d, hd, hchildren, -⟩ := exists_draft_of_read h
    obtain ⟨ss, rs, htree⟩ := hd.layered.tree
    rw [← hchildren] at htree
    obtain ⟨hs, hr⟩ := layers_eq htree
    rw [looseScenarios, rules, hs, hr]
    exact htree
  lines := by
    rw [nodes_read h]
    exact lines_filterMap_nodeAt _ _

theorem mem_nodes_read (h : read text path = some f) {x : Node} :
    x ∈ f.nodes ↔ ∃ i, nodeAt (linesOf text) i = some x := by
  rw [nodes_read h, List.mem_filterMap]
  refine ⟨fun ⟨i, _, hi⟩ => ⟨i, hi⟩, fun ⟨i, hi⟩ => ⟨i, List.mem_range.2 ?_, hi⟩⟩
  refine Nat.lt_of_not_le fun hle => ?_
  rw [nodeAt, List.getElem?_eq_none hle] at hi
  nomatch hi

end Read

end FeatureRun.Feature
