import FeatureRun.Proofs.Catalog.Selection

/-!
# What accepting a selection tells of its roots

To accept a selection, each of its roots is looked up and the chain of its parents is climbed to the
end. So the id of a root, those of the nodes above it and that of its file can be read, whatever the
catalog. The nodes below a root have not been looked at: their ids can be read too, unless the mark
of a rule stands in the id of the file or begins at its end.

* `Accepted`: what is known of a root, `accepted_of_select`.
* `RuleFree`: files whose nodes can all be read if the file can; `ruleFree_of_feature_ends`.
* `Accepted.exists_descendants`: then everything below a root is listed.
-/
set_option autoImplicit false

namespace FeatureRun.Catalog

open Feature

/-- What accepting a selection tells of one of its roots. -/
structure Accepted (c : Catalog) (id : String) (x : NodeRef) (f : Feature) : Prop where
  read : NodeRef.read id = .ok x
  get : c.get? x.file = some f
  refers : f.Refers x.file x
  readFile : ∃ ref, NodeRef.read x.file = .ok ref
  ancestors : ∃ above, c.ancestors id = .ok above

/-- The mark of a rule neither stands in the id of a file nor begins at its end, if that id can be
read at all. -/
def RuleFree (c : Catalog) : Prop :=
  ∀ file f, c.get? file = some f → (∃ ref, NodeRef.read file = .ok ref) →
    ¬":rule:".toList <:+: file.toList ∧ ¬":rule".toList <:+ file.toList

variable {c : Catalog} {selected roots : List String} {ids : Option (List String)} {id : String}
  {n : Nat} {f : Feature} {x y p : NodeRef}

/-! ## Climbing -/

theorem exists_read_of_coveredFrom (h : c.coveredFrom selected (n + 1) id = .ok false) :
    ∃ ref, NodeRef.read id = .ok ref := by
  have hparent : ∃ p?, c.parent id = .ok p? :=
    (coveredFrom_succ_iff.1 h).elim (fun hp => ⟨_, hp⟩) fun ⟨_, hp, _⟩ => ⟨_, hp⟩
  obtain ⟨_, hp⟩ := hparent
  obtain ⟨ref, hread, -⟩ := exists_of_map_ok hp
  exact ⟨ref, hread⟩

/-- Whoever has climbed without meeting a chosen node knows all nodes on the way. -/
theorem exists_ancestorsFrom (h : c.coveredFrom selected n id = .ok false) :
    ∃ above, c.ancestorsFrom n id = .ok above := by
  induction n generalizing id with
  | zero => exact ⟨_, rfl⟩
  | succ n ih =>
    rw [ancestorsFrom]
    rcases coveredFrom_succ_iff.1 h with hparent | ⟨p, hparent, -, hrest⟩
    · exact ⟨_, by rw [hparent]⟩
    · obtain ⟨above, habove⟩ := ih hrest
      exact ⟨p :: above, by rw [hparent]; simp only [habove]; rfl⟩

/-- The parents there are: the feature of the file, rules, and scenarios. -/
theorem parent?_cases (h : f.parent? x = some p) : p = .feature x.file ∨
    (∃ line, p = .rule x.file line) ∨ ∃ line, p = .scenario x.file line := by
  cases x with
  | feature => nomatch h
  | rule =>
    cases h
    exact .inl rfl
  | scenario =>
    simp only [Feature.parent?] at h
    split at h
    · cases h
      exact .inr (.inl ⟨_, rfl⟩)
    · cases h
      exact .inl rfl
  | row =>
    cases h
    exact .inr (.inr ⟨_, rfl⟩)

theorem eq_feature_of_parent? (h : f.parent? x = none) : x = .feature x.file := by
  cases x with
  | feature => rfl
  | scenario =>
    simp only [Feature.parent?] at h
    split at h <;> cases h
  | _ => cases h

/-- Where the climb ends the id of the file has been read. -/
theorem exists_read_file (hread : NodeRef.read id = .ok x) (hget : c.get? x.file = some f)
    (hfuel : (f.above x).length < n) (h : c.coveredFrom selected n id = .ok false) :
    ∃ ref, NodeRef.read x.file = .ok ref := by
  induction n generalizing id x with
  | zero => nomatch hfuel
  | succ n ih =>
    have hparent := parent_of_read hread hget
    have habove := f.above_eq x
    cases hp : f.parent? x with
    | none =>
      have hx := eq_feature_of_parent? hp
      rw [hx] at hread
      rw [(NodeRef.of_read_feature hread).1]
      exact ⟨_, hread⟩
    | some p =>
      rw [hp] at hparent habove
      rcases coveredFrom_succ_iff.1 h with hnone | ⟨_, hsome, -, hrest⟩
      · nomatch hparent.symm.trans hnone
      cases hparent.symm.trans hsome
      have hfuel' : (f.above p).length < n := by simpa [habove] using hfuel
      obtain ⟨m, rfl⟩ : ∃ m, n = m + 1 := Nat.exists_eq_add_one.2 (Nat.zero_lt_of_lt hfuel')
      -- the next step reads the id of the parent, which says what it is unless it is the file's
      obtain ⟨y, hy⟩ := exists_read_of_coveredFrom hrest
      rcases parent?_cases hp with rfl | ⟨line, rfl⟩ | ⟨line, rfl⟩
      · exact ⟨y, hy⟩
      · obtain rfl := NodeRef.eq_of_read_ruleId hy
        exact ih (x := .rule x.file line) hy hget hfuel' hrest
      · obtain rfl := NodeRef.eq_of_read_scenarioId hy
        exact ih (x := .scenario x.file line) hy hget hfuel' hrest

/-- The climb that a selection makes is long enough. -/
theorem length_above_lt_chainBound (f : Feature) (hread : NodeRef.read id = .ok x) :
    (f.above x).length < chainBound id := by
  have hle := length_above_le f x
  by_cases hempty : id = ""
  · subst hempty
    cases hread
    exact Nat.zero_lt_succ _
  · have hpos : 0 < id.length := Nat.pos_of_ne_zero fun h => hempty (String.length_eq_zero_iff.1 h)
    rw [chainBound]
    omega

/-- Each root of a selection that is accepted has been found, its file and its ancestors with it. -/
theorem accepted_of_select (h : c.select ids = .ok roots) :
    ∀ id ∈ roots, ∃ x f, c.Accepted id x f := by
  intro id hid
  obtain ⟨hroots, hknown⟩ := of_select h
  obtain ⟨node, hnode⟩ := unknownIn_eq_nil_iff.1 hknown id hid
  obtain ⟨x, hread, hx⟩ := exists_of_map_ok hnode
  obtain ⟨f, hget, hdenotes⟩ := exists_denotes_of_node? hx
  have hclimb := covered_of_uncovered hroots id hid
  exact ⟨x, f, hread, hget, hdenotes.refers,
    exists_read_file hread hget (length_above_lt_chainBound f hread) hclimb,
    exists_ancestorsFrom hclimb⟩

/-! ## Below a root -/

/-- Files of features whose ids end as such ids do have no other mark in them, if they can be
read. -/
theorem ruleFree_of_feature_ends
    (h : ∀ file f, c.get? file = some f → Text.endsWith file ".feature" = true) : c.RuleFree := by
  rintro file f hget ⟨ref, hread⟩
  have hend := h file f hget
  obtain ⟨-, hrule, hscenario⟩ := NodeRef.eq_feature_of_read hend hread
  have hfile : IsFileId file := ⟨hend, NodeRef.occursIn_eq_false_iff.2 hrule,
    NodeRef.occursIn_eq_false_iff.2 hscenario⟩
  exact ⟨hrule, hfile.isPlain.noRuleEnd⟩

namespace Accepted

variable (h : c.Accepted id x f) (hfree : c.RuleFree) (hfits : ∀ y ∈ f.nodes, Fits y.line)

include h hfree hfits

/-- With the id of its file those of all nodes of a feature can be read. -/
theorem readable : Readable x.file f := by
  intro y hy
  have hmarks := hfree _ _ h.get h.readFile
  have hlines := linesFit_of_refers hfits hy
  cases hy with
  | feature => exact h.readFile
  | rule => exact ⟨_, NodeRef.read_ruleId _ hlines⟩
  | scenario => exact ⟨_, (NodeRef.read_scenarioId_iff hlines).2 hmarks⟩
  | row => exact ⟨_, (NodeRef.read_rowId_iff hlines.1 hlines.2).2 hmarks⟩

/-- So everything below the root is listed. -/
theorem exists_descendants (hf : f.Ordered) : ∃ below, c.descendants id = .ok below :=
  Catalog.exists_descendants (h.readable hfree hfits) h.get hf h.read h.refers

end Accepted

end FeatureRun.Catalog
