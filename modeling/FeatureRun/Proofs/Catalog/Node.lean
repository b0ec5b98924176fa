import FeatureRun.Catalog.Selection
import FeatureRun.Proofs.Catalog.Refs
import FeatureRun.Proofs.Feature.Reading
import FeatureRun.Proofs.NodeId

/-!
# The catalog's ids as a tree

In a catalog of features that were read from files, the operations on ids are those on references:
looking up, the parent, the chain of ancestors and the subtree.

* `Catalog.Parsed`: every feature was read from a text, under the id of a file.
* `Catalog.Holds`: what follows from it for one feature.
* `scenarioListing`, `ruleListing`, `childListing`: what is listed below a node, whatever the id of
  the file.
* `Catalog.Readable`: the ids of the nodes of a feature can be read, so that all of them are listed.
* `Catalog.Names`: they are even read back as what they were made for.
* `ancestors_id`, `descendants_id`: chains and subtrees of ids.
* `IsNode`: the ids of the nodes in a catalog.
-/
set_option autoImplicit false

namespace FeatureRun.Catalog

open Feature

/-- Every feature was read from a text under the id of a file, and its lines have numbers that can
be read back. -/
def Parsed (c : Catalog) : Prop :=
  ∀ file f, c.get? file = some f →
    IsFileId file ∧ ∃ text, Feature.read text file = some f ∧ Fits (linesOf text).length

/-- A feature of the catalog whose nodes can be told by their ids. -/
structure Holds (c : Catalog) (file : String) (f : Feature) : Prop where
  get : c.get? file = some f
  path : f.path = file
  id : IsFileId file
  ordered : f.Ordered
  fits : ∀ x ∈ f.nodes, Fits x.line

/-- A feature of the catalog all of whose nodes are read back from their ids. -/
structure Names (c : Catalog) (file : String) (f : Feature) : Prop where
  get : c.get? file = some f
  ordered : f.Ordered
  read_id : ∀ x, f.Refers file x → NodeRef.read x.id = .ok x

/-- The ids of all nodes of a feature can be read, be it as those of other nodes. -/
def Readable (file : String) (f : Feature) : Prop :=
  ∀ x, f.Refers file x → ∃ ref, NodeRef.read x.id = .ok ref

/-- The id of a node of a feature in the catalog. -/
def IsNode (c : Catalog) (id : String) : Prop :=
  ∃ file f below, c.get? file = some f ∧ c.descendants file = .ok below ∧ id ∈ below

/-- The ids of a scenario and its rows, if it can be told by its id. -/
def scenarioListing (file : String) (s : Scenario) : Lookup (List String) :=
  (NodeRef.read (scenarioId file s.line)).map fun _ => (scenarioRefs file s).map NodeRef.id

def ruleListing (file : String) (r : Rule) : Lookup (List String) :=
  match NodeRef.read (ruleId file r.line) with
  | .error e => .error e
  | .ok _ => (concat (r.scenarios.map (scenarioListing file))).map (ruleId file r.line :: ·)

def childListing (file : String) : Child → Lookup (List String)
  | .rule r => ruleListing file r
  | .scenario s => scenarioListing file s

variable {c : Catalog} {file : String} {f : Feature} {x y : NodeRef}

/-- The nodes of a text have lines whose numbers are read back, if that of its last line is. -/
theorem fits_of_read {text path : String} (hread : Feature.read text path = some f)
    (hfits : Fits (linesOf text).length) : ∀ x ∈ f.nodes, Fits x.line := by
  intro x hx
  obtain ⟨i, hi⟩ := (mem_nodes_read hread).1 hx
  have hlt : i < (linesOf text).length := by
    refine Nat.lt_of_not_le fun hle => ?_
    rw [nodeAt, List.getElem?_eq_none hle] at hi
    cases hi
  rw [line_of_nodeAt hi]
  exact hfits.mono (by omega)

/-- A feature that was read under the id of a file can be told by the ids of its nodes. -/
theorem holds_of_read {text : String} (hget : c.get? file = some f) (hid : IsFileId file)
    (hread : Feature.read text file = some f) (hfits : Fits (linesOf text).length) :
    c.Holds file f := by
  obtain ⟨-, -, -, -, hpath⟩ := exists_draft_of_read hread
  exact ⟨hget, hpath, hid, ordered_read hread, fits_of_read hread hfits⟩

theorem linesFit_of_refers (hfits : ∀ x ∈ f.nodes, Fits x.line) (hx : f.Refers file x) :
    x.LinesFit := by
  cases hx with
  | feature => trivial
  | rule hr => exact hfits _ (mem_nodes_rule hr)
  | scenario hs => exact hfits _ (mem_nodes_scenario hs)
  | row hs hrow => exact ⟨hfits _ (mem_nodes_scenario hs), hfits _ (mem_nodes_row hs hrow)⟩

/-- The nodes of a feature that was read are named, unless the id of its file could be taken for
something else. -/
theorem names_of_read {text : String} (hget : c.get? file = some f) (hplain : NodeRef.IsPlain file)
    (hread : Feature.read text file = some f) (hfits : Fits (linesOf text).length) :
    c.Names file f where
  get := hget
  ordered := ordered_read hread
  read_id _ hx :=
    (hx.file_eq.symm ▸ hplain).read_id (linesFit_of_refers (fits_of_read hread hfits) hx)

theorem Parsed.holds (hc : c.Parsed) (h : c.get? file = some f) : c.Holds file f := by
  obtain ⟨hid, text, hread, hlength⟩ := hc file f h
  exact holds_of_read h hid hread hlength

theorem length_above_le_chainBound (f : Feature) (x : NodeRef) (id : String) :
    (f.above x).length ≤ chainBound id :=
  Nat.le_trans (length_above_le f x) (Nat.le_add_left 3 _)

theorem parsed_empty : empty.Parsed := fun _ _ h => nomatch h

/-- Reading a file leaves a catalog of features that were read. -/
theorem Parsed.readFile (hc : c.Parsed) {text : String} (hid : IsFileId file)
    (hfits : Fits (linesOf text).length) : (c.readFile file text).Parsed := by
  intro name g hget
  rw [Catalog.readFile] at hget
  split at hget
  · rename_i f hread
    rw [get?, OrderedMap.get?_insert] at hget
    split at hget
    · rename_i hname
      cases hget
      subst hname
      exact ⟨hid, text, hread, hfits⟩
    · exact hc name g hget
  · rw [get?, OrderedMap.get?_erase] at hget
    split at hget
    · cases hget
    · exact hc name g hget

/-! ## Looking up and listing -/

/-- What is looked up is a node of a feature in the catalog. -/
theorem exists_denotes_of_node? {node : CatalogNode}
    (h : c.node? x = some node) :
    ∃ f, c.get? x.file = some f ∧ f.Denotes x.file x node := by
  obtain ⟨f, hget, hnode⟩ := Option.bind_eq_some_iff.1 h
  refine ⟨f, hget, ?_⟩
  cases x with
  | feature file =>
    cases hnode
    exact .feature
  | rule file line =>
    obtain ⟨r, hr, rfl⟩ := Option.map_eq_some_iff.1 hnode
    obtain rfl : r.line = line := by simpa using List.find?_some hr
    exact .rule (List.mem_of_find?_eq_some hr)
  | scenario file line =>
    obtain ⟨s, hs, rfl⟩ := Option.map_eq_some_iff.1 hnode
    obtain rfl : s.line = line := by simpa using List.find?_some hs
    exact .scenario (List.mem_of_find?_eq_some hs)
  | row file scenarioLine line =>
    obtain ⟨row, hrow, rfl⟩ := Option.map_eq_some_iff.1 hnode
    obtain ⟨s, hs, hon⟩ := Option.bind_eq_some_iff.1 hrow
    obtain rfl : s.line = scenarioLine := by simpa using List.find?_some hs
    obtain rfl : row.line = line := by simpa using List.find?_some hon
    exact .row (List.mem_of_find?_eq_some hs) (List.mem_of_find?_eq_some hon)

/-- What is above an id that can be read is above the node that it refers to. -/
theorem parent_of_read {id : String} (hread : NodeRef.read id = .ok x)
    (hget : c.get? x.file = some f) : c.parent id = .ok ((f.parent? x).map NodeRef.id) := by
  have hparent : c.parentOf? x = (f.parent? x).map NodeRef.id := by
    rw [parentOf?, hget]
    cases x with
    | scenario file line =>
      simp only [Option.bind_some, Feature.parent?]
      cases ruleAround? f line <;> rfl
    | _ => rfl
  rw [parent, hread, ← hparent]
  rfl

section Listing

variable (hget : c.get? file = some f) (hf : f.Ordered) {id : String}

include hget hf

theorem node?_eq {node : CatalogNode} (hx : f.Denotes file x node) : c.node? x = some node := by
  rw [node?, hx.refers.file_eq, hget]
  cases hx with
  | feature => rfl
  | rule hr => simp [ruleOn?_eq hf hr]
  | scenario hs => simp [scenarioOn?_eq hf hs]
  | row hs hrow => simp [scenarioOn?_eq hf hs, rowOn?_eq hf hs hrow]

theorem descendantsFrom_of_read_row {s : Scenario} {row : Row} (hs : s ∈ f.scenarios)
    (hrow : row ∈ s.rows) (hread : NodeRef.read id = .ok (.row file s.line row.line)) (n : Nat) :
    c.descendantsFrom (n + 1) id = .ok [id] := by
  have hnode := node?_eq hget hf (.row hs hrow)
  rw [descendantsFrom, hread]
  simp only [hnode]

theorem descendantsFrom_of_read_scenario {s : Scenario} (hs : s ∈ f.scenarios)
    (hread : NodeRef.read id = .ok (.scenario file s.line)) (n : Nat) :
    c.descendantsFrom (n + 1) id = .ok (id :: s.rows.map fun r => rowId file s.line r.line) := by
  have hnode := node?_eq hget hf (.scenario hs)
  rw [descendantsFrom, hread]
  simp only [hnode, NodeRef.file]

theorem descendantsFrom_scenario {s : Scenario} (hs : s ∈ f.scenarios) (n : Nat) :
    c.descendantsFrom (n + 1) (scenarioId file s.line) = scenarioListing file s := by
  rw [scenarioListing]
  cases hread : NodeRef.read (scenarioId file s.line) with
  | error e =>
    rw [descendantsFrom, hread]
    rfl
  | ok x =>
    obtain rfl := NodeRef.eq_of_read_scenarioId hread
    rw [descendantsFrom_of_read_scenario hget hf hs hread, scenarioRefs, List.map_cons,
      List.map_map]
    rfl

theorem descendantsFrom_of_read_rule {r : Rule} (hr : r ∈ f.rules)
    (hread : NodeRef.read id = .ok (.rule file r.line)) (n : Nat) :
    c.descendantsFrom (n + 2) id =
      (concat (r.scenarios.map (scenarioListing file))).map (id :: ·) := by
  have hnode := node?_eq hget hf (.rule hr)
  have hbelow : ∀ s ∈ r.scenarios, c.descendantsFrom (n + 1) (scenarioId file s.line) =
      scenarioListing file s := fun s hs =>
    descendantsFrom_scenario hget hf (mem_scenarios.2 (.inr ⟨r, hr, hs⟩)) n
  rw [descendantsFrom, hread]
  simp only [hnode, NodeRef.file, List.map_congr_left hbelow]

theorem descendantsFrom_rule {r : Rule} (hr : r ∈ f.rules) (n : Nat) :
    c.descendantsFrom (n + 2) (ruleId file r.line) = ruleListing file r := by
  rw [ruleListing]
  cases hread : NodeRef.read (ruleId file r.line) with
  | error e => rw [descendantsFrom, hread]
  | ok x =>
    obtain rfl := NodeRef.eq_of_read_ruleId hread
    exact descendantsFrom_of_read_rule hget hf hr hread n

theorem descendantsFrom_of_read_feature (hread : NodeRef.read id = .ok (.feature file)) (n : Nat) :
    c.descendantsFrom (n + 3) id =
      (concat (f.children.map (childListing file))).map (file :: ·) := by
  have hnode := node?_eq hget hf .feature
  rw [descendantsFrom, hread]
  simp only [hnode, NodeRef.file]
  rw [List.map_congr_left (g := childListing file)]
  intro child hchild
  cases child with
  | rule r => exact descendantsFrom_rule hget hf (mem_rules.2 hchild) n
  | scenario s =>
    exact descendantsFrom_scenario hget hf
      (mem_scenarios.2 (.inl (mem_looseScenarios.2 hchild))) (n + 1)

end Listing

theorem concat_map_ok {α β : Type} {g : α → Lookup (List β)} {p : α → List β} {xs : List α}
    (hg : ∀ a ∈ xs, g a = .ok (p a)) : concat (xs.map g) = .ok (xs.flatMap p) := by
  induction xs with
  | nil => rfl
  | cons a xs ih =>
    have htail := ih fun b hb => hg b (List.mem_cons_of_mem _ hb)
    rw [List.map_cons, hg a List.mem_cons_self, concat, htail]
    rfl

section Readable

variable (h : Readable file f)

include h

theorem scenarioListing_eq {s : Scenario} (hs : s ∈ f.scenarios) :
    scenarioListing file s = .ok ((scenarioRefs file s).map NodeRef.id) := by
  obtain ⟨ref, hread⟩ := h _ (.scenario hs)
  rw [scenarioListing, scenarioId, hread]
  rfl

theorem concat_scenarios {r : Rule} (hr : r ∈ f.rules) :
    concat (r.scenarios.map (scenarioListing file)) =
      .ok (r.scenarios.flatMap fun s => (scenarioRefs file s).map NodeRef.id) :=
  concat_map_ok fun _ hs => scenarioListing_eq h (mem_scenarios.2 (.inr ⟨r, hr, hs⟩))

theorem ruleListing_eq {r : Rule} (hr : r ∈ f.rules) :
    ruleListing file r = .ok ((ruleRefs file r).map NodeRef.id) := by
  obtain ⟨ref, hread⟩ := h _ (.rule hr)
  rw [ruleListing, ruleId, hread]
  simp only [concat_scenarios h hr, ruleRefs, List.map_cons, List.map_flatMap]
  rfl

theorem childListing_eq {child : Child} (hchild : child ∈ f.children) :
    childListing file child = .ok ((childRefs file child).map NodeRef.id) := by
  cases child with
  | rule r => exact ruleListing_eq h (mem_rules.2 hchild)
  | scenario s => exact scenarioListing_eq h (mem_scenarios.2 (.inl (mem_looseScenarios.2 hchild)))

/-- Something is listed below every id that refers to a node of the feature, however it is
spelled. -/
theorem exists_descendants (hget : c.get? file = some f) (hf : f.Ordered) {id : String}
    (hread : NodeRef.read id = .ok x) (hx : f.Refers file x) :
    ∃ below, c.descendants id = .ok below := by
  rw [descendants]
  cases hx with
  | feature =>
    rw [descendantsFrom_of_read_feature hget hf hread, concat_map_ok fun _ => childListing_eq h]
    exact ⟨_, rfl⟩
  | rule hr =>
    rw [descendantsFrom_of_read_rule hget hf hr hread, concat_scenarios h hr]
    exact ⟨_, rfl⟩
  | scenario hs => exact ⟨_, descendantsFrom_of_read_scenario hget hf hs hread 2⟩
  | row hs hrow => exact ⟨_, descendantsFrom_of_read_row hget hf hs hrow hread 2⟩

end Readable

namespace Names

variable (h : c.Names file f)

include h

theorem readable : Readable file f := fun x hx => ⟨x, h.read_id x hx⟩

/-- The descendants of a node are its subtree. -/
theorem descendants_id (hx : f.Refers file x) :
    c.descendants x.id = .ok ((f.below x).map NodeRef.id) := by
  have hread := h.read_id x hx
  cases hx with
  | feature =>
    rw [descendants, descendantsFrom_of_read_feature h.get h.ordered hread,
      concat_map_ok fun _ => childListing_eq h.readable, below, refs, List.map_cons,
      List.map_flatMap]
    rfl
  | rule hr =>
    rw [below_rule h.ordered hr, ← ruleListing_eq h.readable hr]
    exact descendantsFrom_rule h.get h.ordered hr 1
  | scenario hs =>
    rw [below_scenario h.ordered hs, ← scenarioListing_eq h.readable hs]
    exact descendantsFrom_scenario h.get h.ordered hs 2
  | row hs hrow => exact descendantsFrom_of_read_row h.get h.ordered hs hrow hread 2

end Names

namespace Holds

variable (h : c.Holds file f)

include h

/-- The id of a node is read back as what refers to it. -/
theorem read_id (hx : f.Refers file x) : NodeRef.read x.id = .ok x :=
  h.id.read_id hx.file_eq (linesFit_of_refers h.fits hx)

theorem names : c.Names file f := ⟨h.get, h.ordered, fun _ => h.read_id⟩

/-- Different nodes have different ids. -/
theorem id_inj (hx : f.Refers file x) (hy : f.Refers file y) (he : x.id = y.id) : x = y := by
  have := h.read_id hx
  rw [he, h.read_id hy] at this
  exact (Except.ok.inj this).symm

omit h in
/-- An id names a node of one feature only. -/
theorem unique {file' : String} {f' : Feature} (h : c.Holds file f) (h' : c.Holds file' f')
    (hx : f.Refers file x) (hy : f'.Refers file' y) (he : x.id = y.id) :
    x = y ∧ file = file' ∧ f = f' := by
  have hread := h.read_id hx
  rw [he, h'.read_id hy] at hread
  obtain rfl : y = x := Except.ok.inj hread
  obtain rfl : file = file' := hx.file_eq.symm.trans hy.file_eq
  exact ⟨rfl, rfl, Option.some.inj (h.get.symm.trans h'.get)⟩

/-! ## Looking up -/

/-- The id of a node names it. -/
theorem resolve_of_denotes {node : CatalogNode} (hx : f.Denotes file x node) :
    c.resolve x.id = .ok (some node) := by
  rw [resolve, h.read_id hx.refers, ← node?_eq h.get h.ordered hx]
  rfl

/-- The id of a node names something. -/
theorem resolve_id (hx : f.Refers file x) : ∃ node, c.resolve x.id = .ok (some node) := by
  obtain ⟨node, hnode⟩ := hx.exists_denotes
  exact ⟨node, h.resolve_of_denotes hnode⟩

/-! ## The nodes above -/

theorem parent_id (hx : f.Refers file x) : c.parent x.id = .ok ((f.parent? x).map NodeRef.id) :=
  parent_of_read (h.read_id hx) (hx.file_eq.symm ▸ h.get)

theorem ancestorsFrom_id (hx : f.Refers file x) {fuel : Nat} (hfuel : (f.above x).length ≤ fuel) :
    c.ancestorsFrom fuel x.id = .ok ((f.above x).map NodeRef.id) := by
  induction fuel generalizing x with
  | zero => rw [List.length_eq_zero_iff.1 (Nat.le_zero.1 hfuel)]; rfl
  | succ n ih =>
    rw [ancestorsFrom, h.parent_id hx]
    rw [above_eq] at hfuel ⊢
    cases hp : f.parent? x with
    | none => rfl
    | some p =>
      rw [hp] at hfuel
      simp only [Option.map_some, ih (hx.parent? h.ordered hp) (Nat.le_of_succ_le_succ hfuel)]
      rfl

/-- The ancestors of a node are the nodes above it. -/
theorem ancestors_id (hx : f.Refers file x) :
    c.ancestors x.id = .ok ((f.above x).map NodeRef.id) :=
  h.ancestorsFrom_id hx (length_above_le_chainBound f x _)

theorem coveredFrom_id (hx : f.Refers file x) (chosen : List String) {fuel : Nat}
    (hfuel : (f.above x).length ≤ fuel) :
    c.coveredFrom chosen fuel x.id = .ok ((f.above x).any fun y => chosen.contains y.id) := by
  induction fuel generalizing x with
  | zero => rw [List.length_eq_zero_iff.1 (Nat.le_zero.1 hfuel)]; rfl
  | succ n ih =>
    rw [coveredFrom, h.parent_id hx]
    rw [above_eq] at hfuel ⊢
    cases hp : f.parent? x with
    | none => rfl
    | some p =>
      rw [hp] at hfuel
      simp only [Option.map_some, ih (hx.parent? h.ordered hp) (Nat.le_of_succ_le_succ hfuel),
        List.any_cons]
      cases chosen.contains p.id <;> rfl

/-- A node is covered if one of the nodes above it has been chosen. -/
theorem covered_id (hx : f.Refers file x) (chosen : List String) :
    c.covered chosen x.id = .ok ((f.above x).any fun y => chosen.contains y.id) :=
  h.coveredFrom_id hx chosen (length_above_le_chainBound f x _)

/-! ## The nodes below -/

/-- The descendants of a node are its subtree. -/
theorem descendants_id (hx : f.Refers file x) :
    c.descendants x.id = .ok ((f.below x).map NodeRef.id) :=
  h.names.descendants_id hx

end Holds

/-- The nodes of a catalog are what references to nodes of its features name. -/
theorem isNode_iff (hc : c.Parsed) {id : String} :
    c.IsNode id ↔ ∃ file f x, c.Holds file f ∧ f.Refers file x ∧ x.id = id := by
  constructor
  · rintro ⟨file, f, below, hget, hbelow, hid⟩
    have h := hc.holds hget
    have hdesc : c.descendants file = .ok ((f.refs file).map NodeRef.id) :=
      h.descendants_id (x := .feature file) .feature
    rw [hbelow] at hdesc
    cases hdesc
    obtain ⟨x, hx, rfl⟩ := List.mem_map.1 hid
    exact ⟨file, f, x, h, mem_refs.1 hx, rfl⟩
  · rintro ⟨file, f, x, h, hx, rfl⟩
    have hall := h.descendants_id (x := .feature file) .feature
    exact ⟨file, f, _, h.get, hall, List.mem_map_of_mem (mem_refs.2 hx)⟩

end FeatureRun.Catalog
