import FeatureRun.Proofs.Feature.Reading
import FeatureRun.Proofs.Text.Lines

/-!
# Text that is added to a feature file

Reading goes on where the text ended before: no line changes what was read from the lines above it,
and a row is judged by these alone. So the tree of a text grows at its end when text is added: the
last rule may get further scenarios, the last scenario further rows, and further nodes may follow.

* `Grown`, `Feature.Grows`: a list, and a tree, that have gone on at the end.
* `grown_step`, `grown_steps`: every line lets the tree of a draft grow.
* `owner?_congr`: the owner of a row does not depend on the lines below it.
* `exists_grows_of_append`: the feature of a text that goes on.
-/
set_option autoImplicit false

namespace FeatureRun

/-! ## Trees that go on -/

/-- A list goes on: its last element may have grown, and others may follow. -/
inductive Grown {α : Type} (R : α → α → Prop) : List α → List α → Prop where
  | more (ys : List α) : Grown R [] ys
  | last {x y : α} (ys : List α) (h : R x y) : Grown R [x] (y :: ys)
  | keep (x : α) {xs ys : List α} (h : Grown R xs ys) : Grown R (x :: xs) (x :: ys)

/-- A scenario got further rows. -/
def Scenario.Grows (s t : Scenario) : Prop := ∃ rows, t = { s with rows := s.rows ++ rows }

/-- The scenarios of a rule went on. -/
def Rule.Grows (r q : Rule) : Prop :=
  ∃ ss, q = { r with scenarios := ss } ∧ Grown Scenario.Grows r.scenarios ss

inductive Child.Grows : Child → Child → Prop where
  | scenario {s t : Scenario} (h : s.Grows t) : Grows (.scenario s) (.scenario t)
  | rule {r q : Rule} (h : r.Grows q) : Grows (.rule r) (.rule q)

/-- The tree of a feature went on. -/
structure Feature.Grows (f g : Feature) : Prop where
  name : g.name = f.name
  line : g.line = f.line
  children : Grown Child.Grows f.children g.children

namespace Grown

variable {α β : Type} {R : α → α → Prop} {xs ys zs : List α}

theorem append (xs ys : List α) : Grown R xs (xs ++ ys) := by
  induction xs with
  | nil => exact .more ys
  | cons x xs ih => exact .keep x ih

theorem refl (xs : List α) : Grown R xs xs := by
  have h := append (R := R) xs []
  rwa [List.append_nil] at h

theorem behind (as : List α) (h : Grown R xs ys) : Grown R (as ++ xs) (as ++ ys) := by
  induction as with
  | nil => exact h
  | cons a as ih => exact .keep a ih

/-- The last element of a list grows. -/
theorem append_last {x y : α} (as : List α) (h : R x y) : Grown R (as ++ [x]) (as ++ [y]) :=
  behind as (.last [] h)

theorem eq_nil (h : Grown R xs []) : xs = [] := by
  cases h
  rfl

theorem trans (hR : ∀ a b c, R a b → R b c → R a c) (h : Grown R xs ys) (h' : Grown R ys zs) :
    Grown R xs zs := by
  induction h generalizing zs with
  | more => exact .more zs
  | last _ hxy =>
    cases h' with
    | last zs hyz => exact .last zs (hR _ _ _ hxy hyz)
    | keep _ _ => exact .last _ hxy
  | keep x h ih =>
    cases h' with
    | last zs hyz =>
      rw [h.eq_nil]
      exact .last zs hyz
    | keep _ h' => exact .keep x (ih h')

/-- If parts of elements only go on when these grow, so do the parts of a list that grows. -/
theorem flatMap_prefix {parts : α → List β} (hparts : ∀ a b, R a b → parts a <+: parts b)
    (h : Grown R xs ys) : xs.flatMap parts <+: ys.flatMap parts := by
  induction h with
  | more ys => exact List.nil_prefix
  | last ys hxy =>
    rw [List.flatMap_cons, List.flatMap_cons, List.flatMap_nil, List.append_nil]
    exact (hparts _ _ hxy).trans (List.prefix_append _ _)
  | keep x _ ih =>
    rw [List.flatMap_cons, List.flatMap_cons]
    exact (List.prefix_append_right_inj _).2 ih

/-- Every element is still there, or has grown. -/
theorem exists_mem {x : α} (hrefl : ∀ a, R a a) (h : Grown R xs ys) (hx : x ∈ xs) :
    ∃ y ∈ ys, R x y := by
  induction h with
  | more => nomatch hx
  | last ys hxy =>
    rw [List.mem_singleton.1 hx]
    exact ⟨_, List.mem_cons_self, hxy⟩
  | keep a _ ih =>
    rcases List.mem_cons.1 hx with rfl | hx
    · exact ⟨_, List.mem_cons_self, hrefl _⟩
    · obtain ⟨y, hy, hxy⟩ := ih hx
      exact ⟨y, List.mem_cons_of_mem _ hy, hxy⟩

end Grown

theorem Scenario.Grows.refl (s : Scenario) : s.Grows s := ⟨[], by rw [List.append_nil]⟩

theorem Scenario.Grows.trans (s t u : Scenario) (h : s.Grows t) (h' : t.Grows u) : s.Grows u := by
  obtain ⟨more, rfl⟩ := h
  obtain ⟨more', rfl⟩ := h'
  exact ⟨more ++ more', by simp only [List.append_assoc]⟩

theorem Rule.Grows.refl (r : Rule) : r.Grows r := ⟨_, rfl, .refl _⟩

theorem Rule.Grows.trans (r q p : Rule) (h : r.Grows q) (h' : q.Grows p) : r.Grows p := by
  obtain ⟨ss, rfl, hs⟩ := h
  obtain ⟨ss', rfl, hs'⟩ := h'
  exact ⟨ss', rfl, hs.trans Scenario.Grows.trans hs'⟩

theorem Child.Grows.refl (c : Child) : c.Grows c := by
  cases c with
  | scenario s => exact .scenario (.refl s)
  | rule r => exact .rule (.refl r)

theorem Child.Grows.trans (a b c : Child) (h : a.Grows b) (h' : b.Grows c) : a.Grows c := by
  cases h with
  | scenario h =>
    cases h' with
    | scenario h' => exact .scenario (h.trans _ _ _ h')
  | rule h =>
    cases h' with
    | rule h' => exact .rule (h.trans _ _ _ h')

namespace Feature

theorem scenarioNodes_prefix (s t : Scenario) (h : s.Grows t) :
    scenarioNodes s <+: scenarioNodes t := by
  obtain ⟨more, rfl⟩ := h
  exact ⟨more.map rowNode, by simp [scenarioNodes]⟩

theorem childNodes_prefix (a b : Child) (h : a.Grows b) : childNodes a <+: childNodes b := by
  cases h with
  | scenario h => exact scenarioNodes_prefix _ _ h
  | rule h =>
    obtain ⟨ss, rfl, hs⟩ := h
    exact List.cons_prefix_cons.2 ⟨rfl, hs.flatMap_prefix scenarioNodes_prefix⟩

/-- The nodes of a feature that grows stay at the front. -/
theorem Grows.nodes_prefix {f g : Feature} (h : f.Grows g) : f.nodes <+: g.nodes :=
  h.children.flatMap_prefix childNodes_prefix

theorem Grows.exists_rule {f g : Feature} (h : f.Grows g) {r : Rule} (hr : r ∈ f.rules) :
    ∃ q ∈ g.rules, r.Grows q := by
  obtain ⟨c, hc, hgrows⟩ := h.children.exists_mem Child.Grows.refl (mem_rules.1 hr)
  cases hgrows with
  | rule hgrows => exact ⟨_, mem_rules.2 hc, hgrows⟩

theorem Grows.exists_scenario {f g : Feature} (h : f.Grows g) {s : Scenario}
    (hs : s ∈ f.scenarios) : ∃ t ∈ g.scenarios, s.Grows t := by
  rcases mem_scenarios.1 hs with hloose | ⟨r, hr, hin⟩
  · obtain ⟨c, hc, hgrows⟩ :=
      h.children.exists_mem Child.Grows.refl (mem_looseScenarios.1 hloose)
    cases hgrows with
    | scenario hgrows => exact ⟨_, mem_scenarios.2 (.inl (mem_looseScenarios.2 hc)), hgrows⟩
  · obtain ⟨_, hq, ss, rfl, hgrown⟩ := h.exists_rule hr
    obtain ⟨t, ht, hgrows⟩ := hgrown.exists_mem Scenario.Grows.refl hin
    exact ⟨t, mem_scenarios.2 (.inr ⟨_, hq, ht⟩), hgrows⟩

/-! ## The tree of a draft grows -/

namespace Draft

variable {lines : List Line} {d : Draft}

/-- The children that are still open. -/
def openTree : Option Rule → Option Scenario → List Child
  | none, s => s.toList.map fun s => .scenario (upright s)
  | some r, s =>
    [.rule { r with scenarios := r.scenarios.reverse ++ s.toList.map upright }]

theorem tree_eq (d : Draft) : d.tree = d.children.reverse ++ openTree d.rule d.scenario := by
  obtain ⟨title, children, rule, scenario, block⟩ := d
  cases rule <;> cases scenario <;> simp [tree, closeRule, closeScenario, openTree, upright]

/-- The title and the block of a draft are no part of the tree. -/
theorem tree_congr {d e : Draft} (hchildren : d.children = e.children) (hrule : d.rule = e.rule)
    (hscenario : d.scenario = e.scenario) : d.tree = e.tree := by
  rw [tree_eq, tree_eq, hchildren, hrule, hscenario]

theorem settleBlock_tree (d : Draft) (line : Line) : (d.settleBlock line).tree = d.tree := by
  unfold settleBlock
  split
  · exact tree_congr rfl rfl rfl
  · rfl

theorem grown_openScenario (d : Draft) (name : String) (number : Int) (outline : Bool) :
    Grown Child.Grows d.tree (d.openScenario name number outline).tree := by
  obtain ⟨title, children, rule, scenario, block⟩ := d
  rw [tree_eq, tree_eq]
  cases rule with
  | none =>
    cases scenario with
    | none =>
      simp only [openScenario, closeScenario, openTree, Option.toList_none, List.map_nil,
        List.append_nil]
      exact .append _ _
    | some s =>
      simp only [openScenario, closeScenario, openTree, Option.toList_some, List.map_cons,
        List.map_nil, List.reverse_cons]
      exact .append _ _
  | some r =>
    have hrule : ∀ ss more, Child.Grows (.rule { r with scenarios := ss })
        (.rule { r with scenarios := ss ++ more }) :=
      fun ss more => .rule ⟨ss ++ more, rfl, .append ss more⟩
    cases scenario with
    | none =>
      simp only [openScenario, closeScenario, openTree, Option.toList_none, List.map_nil,
        List.append_nil]
      exact .append_last _ (hrule _ _)
    | some s =>
      simp only [openScenario, closeScenario, openTree, Option.toList_some, List.map_cons,
        List.map_nil, List.reverse_cons]
      exact .append_last _ (hrule _ _)

theorem grown_openRule (d : Draft) (name : String) (number : Int) (block : Block) :
    Grown Child.Grows d.tree
      (tree { d.closeRule with rule := some ⟨name, number, []⟩, block := block }) := by
  have htree : d.tree = d.closeRule.children.reverse := rfl
  rw [htree, tree_eq]
  exact .append _ _

theorem grown_addRow (d : Draft) (index : Nat) (text : String) :
    Grown Child.Grows d.tree (d.addRow lines index text).tree := by
  have hblock : ∀ block, Grown Child.Grows d.tree (tree { d with block := block }) := by
    intro block
    have hsame : tree { d with block := block } = d.tree := tree_congr rfl rfl rfl
    exact hsame ▸ .refl _
  unfold addRow
  split
  · exact .refl _
  · split
    · rename_i s hs
      split
      · have hgrows : (upright s).Grows
            (upright { s with rows := ⟨(index : Int) + 1, text⟩ :: s.rows }) :=
          ⟨[⟨(index : Int) + 1, text⟩], by simp [upright]⟩
        rw [tree_eq, tree_eq, hs]
        cases d.rule with
        | none => exact .append_last _ (.scenario hgrows)
        | some r => exact .append_last _ (.rule ⟨_, rfl, .append_last _ hgrows⟩)
      · exact hblock _
    · exact hblock _

/-- Every line lets the tree of a draft grow. -/
theorem grown_step (d : Draft) (index : Nat) (line : Line) :
    Grown Child.Grows d.tree (d.step lines index line).tree := by
  rw [← settleBlock_tree d line]
  cases line with
  | rule name => exact grown_openRule _ _ _ _
  | outline name => exact grown_openScenario _ _ _ _
  | scenario name => exact grown_openScenario _ _ _ _
  | row text => exact grown_addRow _ _ _
  | feature name =>
    have hsame : (d.step lines index (.feature name)).tree =
        (d.settleBlock (.feature name)).tree := tree_congr rfl rfl rfl
    exact hsame ▸ .refl _
  | examples =>
    have hsame : (d.step lines index .examples).tree = (d.settleBlock .examples).tree :=
      tree_congr rfl rfl rfl
    exact hsame ▸ .refl _
  | other => exact .refl _

theorem grown_steps (d : Draft) (index : Nat) (rest : List Line) :
    Grown Child.Grows d.tree (d.steps lines index rest).tree := by
  induction rest generalizing d index with
  | nil => exact .refl _
  | cons line rest ih => exact (grown_step d index line).trans Child.Grows.trans (ih _ _)

/-- The title stays. -/
theorem steps_title {title : String × Int} (h : d.title = some title) (index : Nat)
    (rest : List Line) : (d.steps lines index rest).title = some title := by
  induction rest generalizing d index with
  | nil => exact h
  | cons line rest ih =>
    refine ih ?_ _
    rw [step_title, h]
    cases line <;> rfl

end Draft

/-! ## Lines further down do not matter -/

section Locality

variable {lines lines' : List Line} {l : Line} {r index : Nat}

theorem NearestAbove.congr {p q : Nat → Prop} {i j : Nat} (h : NearestAbove p i j)
    (hpq : ∀ k, k < j → (p k ↔ q k)) : NearestAbove q i j :=
  ⟨h.1, (hpq i h.1).1 h.2.1, fun k hik hkj hk => h.2.2 k hik hkj ((hpq k hkj).2 hk)⟩

theorem FirstBelow.congr {p q : Nat → Prop} {i j : Nat} (h : FirstBelow p i j)
    (hpq : ∀ k, k ≤ j → (p k ↔ q k)) : FirstBelow q i j :=
  ⟨h.1, (hpq j (Nat.le_refl j)).1 h.2.1,
    fun k hik hkj hk => h.2.2 k hik hkj ((hpq k (Nat.le_of_lt hkj)).2 hk)⟩

theorem at_congr (hagree : ∀ k, k ≤ r → lines[k]? = lines'[k]?) (p : Line → Bool) {k : Nat}
    (hk : k ≤ r) : At lines p k ↔ At lines' p k := by
  rw [At, At, hagree k hk]

theorem owner?_of_agree (hagree : ∀ k, k ≤ r → lines[k]? = lines'[k]?)
    (hr : At lines Line.isRow r) {o : Nat} (ho : owner? lines r = some o) :
    owner? lines' r = some o := by
  obtain ⟨e, h, s, rfl, he, hh, hhr, hs⟩ := (owner?_eq_some_iff hr).1 ho
  have her := he.1
  have hr' := (at_congr hagree _ (Nat.le_refl r)).1 hr
  refine (owner?_eq_some_iff hr').2 ⟨e, h, s, rfl, ?_, ?_, hhr, ?_⟩
  · exact he.congr fun k hk => at_congr hagree _ (by omega)
  · exact hh.congr fun k hk => at_congr hagree _ (by omega)
  · exact hs.congr fun k hk => at_congr hagree _ (by omega)

/-- The owner of a row does not depend on the lines below it. -/
theorem owner?_congr (hagree : ∀ k, k ≤ r → lines[k]? = lines'[k]?)
    (hr : At lines Line.isRow r) : owner? lines r = owner? lines' r := by
  have hr' := (at_congr hagree _ (Nat.le_refl r)).1 hr
  exact Option.ext fun o =>
    ⟨owner?_of_agree hagree hr, owner?_of_agree (fun k hk => (hagree k hk).symm) hr'⟩

theorem step_congr (hagree : ∀ k, k ≤ index → lines[k]? = lines'[k]?)
    (hl : lines[index]? = some l) (d : Draft) : d.step lines index l = d.step lines' index l := by
  cases l with
  | row text => simp only [Draft.step, Draft.addRow, owner?_congr hagree ⟨_, hl, rfl⟩]
  | _ => rfl

/-- What is read from lines does not depend on those below them. -/
theorem steps_congr {part : List Line}
    (hagree : ∀ k, k < index + part.length → lines[k]? = lines'[k]?)
    (hpart : ∀ k, k < part.length → lines[index + k]? = part[k]?) (d : Draft) :
    d.steps lines index part = d.steps lines' index part := by
  induction part generalizing index d with
  | nil => rfl
  | cons l part ih =>
    rw [List.length_cons] at hagree hpart
    have hstep : d.step lines index l = d.step lines' index l :=
      step_congr (fun k hk => hagree k (by omega)) (hpart 0 (by omega)) d
    rw [Draft.steps, Draft.steps, hstep]
    refine ih (fun k hk => hagree k (by omega)) (fun k hk => ?_) _
    have hnext := hpart (k + 1) (by omega)
    rwa [List.getElem?_cons_succ, Nat.add_left_comm, Nat.add_comm] at hnext

theorem steps_append (d : Draft) (part rest : List Line) : d.steps lines index (part ++ rest) =
    (d.steps lines index part).steps lines (index + part.length) rest := by
  induction part generalizing index d with
  | nil => rfl
  | cons l part ih =>
    rw [List.cons_append, Draft.steps, ih, Draft.steps, List.length_cons, Nat.add_assoc,
      Nat.add_comm 1]

/-- Reading goes on where the lines ended before. -/
theorem steps_start_append (above rest : List Line) :
    Draft.start.steps (above ++ rest) 0 (above ++ rest) =
      (Draft.start.steps above 0 above).steps (above ++ rest) above.length rest := by
  have habove : Draft.start.steps (above ++ rest) 0 above = Draft.start.steps above 0 above := by
    refine steps_congr (fun k hk => ?_) (fun k hk => ?_) _
    · exact List.getElem?_append_left (by omega)
    · rw [Nat.zero_add, List.getElem?_append_left hk]
  rw [steps_append, habove, Nat.zero_add]

end Locality

/-! ## Text that goes on -/

section Append

variable {t path : String} {f : Feature}

/-- The last line feed of a text ends its last line, and added text stands on lines of its own. -/
theorem linesOf_append (h : Text.endsWith t "\n" = true) : ∃ above,
    linesOf t = above ++ [.other] ∧ ∀ u, linesOf (t ++ u) = above ++ linesOf u := by
  obtain ⟨front, hfront⟩ := List.isSuffixOf_iff_suffix.1 h
  refine ⟨(Text.pieces '\n' front).map fun p => Line.ofText (String.ofList p), ?_, fun u => ?_⟩
  · have hcut : Text.pieces '\n' (front ++ ['\n']) = Text.pieces '\n' front ++ [[]] :=
      Text.pieces_append_sep front []
    rw [linesOf, Text.lines, Text.split, List.map_map, ← hfront]
    exact (congrArg _ hcut).trans List.map_append
  · have hcut : Text.pieces '\n' (front ++ '\n' :: u.toList) =
        Text.pieces '\n' front ++ Text.pieces '\n' u.toList := Text.pieces_append_sep front u.toList
    rw [linesOf, linesOf, Text.lines, Text.lines, Text.split, Text.split, List.map_map,
      List.map_map, String.toList_append, ← hfront, List.append_assoc]
    exact (congrArg _ hcut).trans List.map_append

theorem finish_eq_some_iff {d : Draft} : d.finish path = some f ↔
    d.title = some (f.name, f.line) ∧ f.path = path ∧ f.children = d.tree := by
  obtain ⟨name, line, file, children⟩ := f
  rw [Draft.finish, Option.map_eq_some_iff]
  constructor
  · rintro ⟨⟨name', line'⟩, ht, he⟩
    cases he
    exact ⟨ht, rfl, rfl⟩
  · rintro ⟨ht, rfl, rfl⟩
    exact ⟨_, ht, rfl⟩

/-- When text is added behind the last line of a text, its feature grows. -/
theorem exists_grows_of_append (hend : Text.endsWith t "\n" = true) (h : read t path = some f)
    (u : String) : ∃ g, read (t ++ u) path = some g ∧ f.Grows g := by
  obtain ⟨above, ht, hu⟩ := linesOf_append hend
  let d := Draft.start.steps above 0 above
  rw [read, ht, ofLines, steps_start_append] at h
  obtain ⟨htitle, -, hchildren⟩ := finish_eq_some_iff.1 h
  have hlast : d.steps (above ++ [.other]) above.length [.other] = d.settleBlock .other := rfl
  rw [hlast, settleBlock_title] at htitle
  rw [hlast, Draft.settleBlock_tree] at hchildren
  let e := d.steps (above ++ linesOf u) above.length (linesOf u)
  refine ⟨⟨f.name, f.line, path, e.tree⟩, ?_, rfl, rfl, hchildren ▸ Draft.grown_steps d _ _⟩
  rw [read, hu, ofLines, steps_start_append]
  exact finish_eq_some_iff.2 ⟨Draft.steps_title htitle _ _, rfl, rfl⟩

end Append

end Feature
end FeatureRun
