import FeatureRun.Proofs.Catalog.Selection

/-!
# What a selection covers

A selection spans the subtrees of its nodes. Its roots span the same nodes, each of them once: no
root lies in the subtree of another one, and the subtrees of different roots have no node in common.
Which nodes are roots depends on what is spanned only, not on how the selection lists it.

* `Within`, `Over`: the subtree of a node and the nodes above it, by ids.
* `Spans`: a node lies in the subtree of a selected one.
* `isRoot_congr`: selections that span the same nodes have the same roots.
* `MinimalCover`: what the roots of a selection are to it; `selectRoots_minimalCover`.
-/
set_option autoImplicit false

namespace FeatureRun.Catalog

open Feature

/-- A node lies in the subtree of another one. -/
def Within (c : Catalog) (n root : String) : Prop :=
  ∃ below, c.descendants root = .ok below ∧ n ∈ below

/-- A node lies strictly above another one. -/
def Over (c : Catalog) (n root : String) : Prop := ∃ above, c.ancestors root = .ok above ∧ n ∈ above

/-- A node lies in the subtree of one of the listed nodes. -/
def Spans (c : Catalog) (ids : List String) (n : String) : Prop := ∃ id ∈ ids, c.Within n id

/-- Some of the selected nodes, in the order in which they are listed first, that span what the
selection spans without overlapping. -/
structure MinimalCover (c : Catalog) (ids roots : List String) : Prop where
  sublist : roots.Sublist ids.eraseDups
  /-- No root lies in the subtree of another one. -/
  antichain : ∀ a ∈ roots, ∀ b ∈ roots, c.Within b a → a = b
  /-- Every selected node lies in the subtree of exactly one root. -/
  covers : ∀ id ∈ ids, ∃ root ∈ roots, c.Within id root ∧
    ∀ other ∈ roots, c.Within id other → other = root
  spans : ∀ n, c.Spans roots n ↔ c.Spans ids n

variable {c : Catalog} {file file' : String} {f f' : Feature} {x x' y y' : NodeRef}
  {ids ids₁ ids₂ roots : List String} {n : String}

/-! ## Subtrees -/

theorem Holds.within_iff (h : c.Holds file f) (hx : f.Refers file x) :
    c.Within n x.id ↔ ∃ y ∈ f.below x, y.id = n := by
  simp only [Within, h.descendants_id hx, Except.ok.injEq, exists_eq_left', List.mem_map]

theorem Holds.over_iff (h : c.Holds file f) (hx : f.Refers file x) :
    c.Over n x.id ↔ ∃ y ∈ f.above x, y.id = n := by
  simp only [Over, h.ancestors_id hx, Except.ok.injEq, exists_eq_left', List.mem_map]

/-! ## What is spanned -/

/-- Of listed nodes exactly those nodes are spanned that are listed or have a listed one above. -/
theorem Holds.spans_iff (hc : c.Parsed) (hids : ∀ id ∈ ids, c.IsNode id) (h : c.Holds file f)
    (hx : f.Refers file x) :
    c.Spans ids x.id ↔ x.id ∈ ids ∨ ∃ y ∈ f.above x, y.id ∈ ids := by
  constructor
  · rintro ⟨id, hid, hwithin⟩
    obtain ⟨file', f', z, h', hz, rfl⟩ := (isNode_iff hc).1 (hids id hid)
    obtain ⟨y, hy, hyx⟩ := (h'.within_iff hz).1 hwithin
    obtain ⟨rfl, rfl, rfl⟩ := h'.unique h (hz.below h'.ordered hy) hx hyx
    rcases mem_above_of_mem_below h.ordered hz hx hy with rfl | habove
    · exact .inl hid
    · exact .inr ⟨z, habove, hid⟩
  · rintro (hid | ⟨y, hy, hid⟩)
    · exact ⟨x.id, hid, (h.within_iff hx).2 ⟨x, self_mem_below h.ordered hx, rfl⟩⟩
    · exact ⟨y.id, hid, (h.within_iff (hx.above h.ordered hy)).2
        ⟨x, mem_below_of_mem_above h.ordered hx hy, rfl⟩⟩

/-- What lies in the subtree of a node of a subtree lies in that subtree. -/
theorem Within.trans {m n root : String} (hc : c.Parsed) (hroot : c.IsNode root)
    (h : c.Within n m) (hm : c.Within m root) : c.Within n root := by
  obtain ⟨file, f, x, hf, hx, rfl⟩ := (isNode_iff hc).1 hroot
  obtain ⟨y, hy, rfl⟩ := (hf.within_iff hx).1 hm
  have hyref := hx.below hf.ordered hy
  obtain ⟨z, hz, rfl⟩ := (hf.within_iff hyref).1 h
  refine (hf.within_iff hx).2 ⟨z, ?_, rfl⟩
  have hzref := hyref.below hf.ordered hz
  rcases mem_above_of_mem_below hf.ordered hx hyref hy with rfl | hxy
  · exact hz
  rcases mem_above_of_mem_below hf.ordered hyref hzref hz with rfl | hyz
  · exact hy
  · exact mem_below_of_mem_above hf.ordered hzref (above_trans hyz hxy)

/-- Selections span the same nodes if each spans what the other one lists. So the order, repetitions
and nodes below other ones make no difference. -/
theorem spans_congr (hc : c.Parsed) (hids₁ : ∀ id ∈ ids₁, c.IsNode id)
    (hids₂ : ∀ id ∈ ids₂, c.IsNode id) (h₁ : ∀ id ∈ ids₁, c.Spans ids₂ id)
    (h₂ : ∀ id ∈ ids₂, c.Spans ids₁ id) (n : String) : c.Spans ids₁ n ↔ c.Spans ids₂ n := by
  constructor
  · rintro ⟨id, hid, hn⟩
    obtain ⟨root, hroot, hwithin⟩ := h₁ id hid
    exact ⟨root, hroot, hn.trans hc (hids₂ root hroot) hwithin⟩
  · rintro ⟨id, hid, hn⟩
    obtain ⟨root, hroot, hwithin⟩ := h₂ id hid
    exact ⟨root, hroot, hn.trans hc (hids₁ root hroot) hwithin⟩

/-- Of a selected node and those above it, the topmost selected one is a root. -/
theorem Holds.exists_isRoot (h : c.Holds file f) (hx : f.Refers file x) (hid : x.id ∈ ids) :
    ∃ y, c.IsRoot ids file f y ∧ (y = x ∨ y ∈ f.above x) := by
  induction hlength : (f.above x).length using Nat.strongRecOn generalizing x with
  | ind n ih =>
    by_cases habove : ∃ y ∈ f.above x, y.id ∈ ids
    · obtain ⟨y, hy, hyid⟩ := habove
      have hlt := length_above_lt hy
      rw [hlength] at hlt
      obtain ⟨z, hroot, hz⟩ := ih _ hlt (hx.above h.ordered hy) hyid rfl
      refine ⟨z, hroot, .inr ?_⟩
      rcases hz with rfl | hz
      · exact hy
      · exact above_trans hy hz
    · exact ⟨x, ⟨h, hx, hid, fun y hy hyid => habove ⟨y, hy, hyid⟩⟩, .inl rfl⟩

/-- A node is spanned if and only if it lies in the subtree of a root. -/
theorem spans_iff_exists_isRoot (hc : c.Parsed) (hids : ∀ id ∈ ids, c.IsNode id) :
    c.Spans ids n ↔ ∃ file f x, c.IsRoot ids file f x ∧ ∃ y ∈ f.below x, y.id = n := by
  constructor
  · rintro ⟨id, hid, hwithin⟩
    obtain ⟨file, f, x, h, hx, rfl⟩ := (isNode_iff hc).1 (hids id hid)
    obtain ⟨y, hroot, hyx⟩ := h.exists_isRoot hx hid
    have hxy : c.Within x.id y.id :=
      (h.within_iff hroot.refers).2 ⟨x, (mem_below_iff h.ordered hroot.refers hx).2 hyx, rfl⟩
    have hroot' : c.IsNode y.id := (isNode_iff hc).2 ⟨file, f, y, h, hroot.refers, rfl⟩
    exact ⟨file, f, y, hroot, (h.within_iff hroot.refers).1 (hwithin.trans hc hroot' hxy)⟩
  · rintro ⟨file, f, x, hroot, hbelow⟩
    exact ⟨x.id, hroot.mem, (hroot.holds.within_iff hroot.refers).2 hbelow⟩

/-- A root is a node that is spanned while none of those above it is. -/
theorem isRoot_iff (hc : c.Parsed) (hids : ∀ id ∈ ids, c.IsNode id) :
    c.IsRoot ids file f x ↔ c.Holds file f ∧ f.Refers file x ∧ c.Spans ids x.id ∧
      ∀ y ∈ f.above x, ¬c.Spans ids y.id := by
  constructor
  · rintro ⟨h, hx, hmem, halone⟩
    refine ⟨h, hx, (h.spans_iff hc hids hx).2 (.inl hmem), fun y hy hspans => ?_⟩
    rcases (h.spans_iff hc hids (hx.above h.ordered hy)).1 hspans with hid | ⟨z, hz, hid⟩
    · exact halone y hy hid
    · exact halone z (above_trans hy hz) hid
  · rintro ⟨h, hx, hspans, hout⟩
    have habove : ∀ y ∈ f.above x, y.id ∉ ids := fun y hy hid =>
      hout y hy ((h.spans_iff hc hids (hx.above h.ordered hy)).2 (.inl hid))
    rcases (h.spans_iff hc hids hx).1 hspans with hid | ⟨y, hy, hid⟩
    · exact ⟨h, hx, hid, habove⟩
    · exact absurd hid (habove y hy)

/-- Selections that span the same nodes have the same roots. -/
theorem isRoot_congr (hc : c.Parsed) (hids₁ : ∀ id ∈ ids₁, c.IsNode id)
    (hids₂ : ∀ id ∈ ids₂, c.IsNode id) (hsame : ∀ n, c.Spans ids₁ n ↔ c.Spans ids₂ n) :
    c.IsRoot ids₁ file f x ↔ c.IsRoot ids₂ file f x := by
  rw [isRoot_iff hc hids₁, isRoot_iff hc hids₂]
  simp only [hsame]

/-! ## The cover -/

/-- The subtrees of different roots have no node in common. -/
theorem IsRoot.eq_of_common (h : c.IsRoot ids file f x) (h' : c.IsRoot ids file' f' x')
    (hy : y ∈ f.below x) (hy' : y' ∈ f'.below x') (he : y.id = y'.id) : x = x' := by
  have hyref := h.refers.below h.holds.ordered hy
  obtain ⟨rfl, rfl, rfl⟩ := h.holds.unique h'.holds hyref
    (h'.refers.below h'.holds.ordered hy') he
  -- both roots are the common node or above it, so if they differ, one is above the other
  rcases mem_above_of_mem_below h.holds.ordered h.refers hyref hy with rfl | hx
  · rcases mem_above_of_mem_below h.holds.ordered h'.refers hyref hy' with rfl | hx'
    · rfl
    · exact absurd h'.mem (h.alone _ hx')
  · rcases mem_above_of_mem_below h.holds.ordered h'.refers hyref hy' with rfl | hx'
    · exact absurd h.mem (h'.alone _ hx)
    · rcases above_total hx hx' with rfl | hbelow | hbelow
      · rfl
      · exact absurd h.mem (h'.alone _ hbelow)
      · exact absurd h'.mem (h.alone _ hbelow)

theorem IsNode.within_self (hc : c.Parsed) (h : c.IsNode n) : c.Within n n := by
  obtain ⟨file, f, x, hf, hx, rfl⟩ := (isNode_iff hc).1 h
  exact (hf.within_iff hx).2 ⟨x, self_mem_below hf.ordered hx, rfl⟩

section Roots

variable (hroots : ∀ id, id ∈ roots ↔ ∃ file f x, c.IsRoot ids file f x ∧ x.id = id)

include hroots

/-- A node lies in the subtree of one root at most. -/
theorem eq_of_within_roots {a b : String} (ha : a ∈ roots) (hb : b ∈ roots) (hna : c.Within n a)
    (hnb : c.Within n b) : a = b := by
  obtain ⟨file, f, x, hx, rfl⟩ := (hroots a).1 ha
  obtain ⟨file', f', x', hx', rfl⟩ := (hroots b).1 hb
  obtain ⟨y, hy, rfl⟩ := (hx.holds.within_iff hx.refers).1 hna
  obtain ⟨y', hy', he⟩ := (hx'.holds.within_iff hx'.refers).1 hnb
  rw [hx.eq_of_common hx' hy hy' he.symm]

/-- The roots span what the selection spans. -/
theorem spans_roots_iff (hc : c.Parsed) (hids : ∀ id ∈ ids, c.IsNode id) :
    c.Spans roots n ↔ c.Spans ids n := by
  rw [spans_iff_exists_isRoot hc hids]
  constructor
  · rintro ⟨root, hroot, hn⟩
    obtain ⟨file, f, x, hx, rfl⟩ := (hroots root).1 hroot
    exact ⟨file, f, x, hx, (hx.holds.within_iff hx.refers).1 hn⟩
  · rintro ⟨file, f, x, hx, hn⟩
    exact ⟨x.id, (hroots x.id).2 ⟨file, f, x, hx, rfl⟩, (hx.holds.within_iff hx.refers).2 hn⟩

theorem minimalCover_of_roots (hc : c.Parsed) (hids : ∀ id ∈ ids, c.IsNode id)
    (hsublist : roots.Sublist ids.eraseDups) : c.MinimalCover ids roots where
  sublist := hsublist
  antichain a ha b hb hwithin := by
    have hself : c.Within b b := (hids b (List.mem_eraseDups.1 (hsublist.subset hb))).within_self hc
    exact eq_of_within_roots hroots ha hb hwithin hself
  covers id hid := by
    have hspans : c.Spans ids id := ⟨id, hid, (hids id hid).within_self hc⟩
    obtain ⟨root, hroot, hwithin⟩ := (spans_roots_iff hroots hc hids).2 hspans
    exact ⟨root, hroot, hwithin, fun other hother hwithin' =>
      eq_of_within_roots hroots hother hroot hwithin' hwithin⟩
  spans _ := spans_roots_iff hroots hc hids

end Roots

/-- The roots of a selection are a minimal cover of it, and selecting them again, or some of them,
leaves them as they are. -/
theorem selectRoots_minimalCover (hc : c.Parsed) (hids : ∀ id ∈ ids, c.IsNode id) :
    ∃ roots, c.selectRoots ids = .ok roots ∧ c.MinimalCover ids roots ∧
      ∀ part, part.Sublist roots → c.selectRoots part = .ok part := by
  obtain ⟨roots, hselect, hroots⟩ := selectRoots_eq hc hids
  have hsublist : roots.Sublist ids.eraseDups := sublist_of_uncovered hselect
  exact ⟨roots, hselect, minimalCover_of_roots hroots hc hids hsublist,
    fun part => selectRoots_of_sublist hselect⟩

/-- A scenario with the rule around it, and another file that is listed twice. -/
theorem selectRoots_minimalCover_of_two : ∃ c : Catalog, c.Parsed ∧
    (∀ id ∈ ["a.feature:scenario:3", "b.feature", "a.feature:rule:2", "b.feature"],
      c.IsNode id) ∧
    ∃ roots, c.selectRoots ["a.feature:scenario:3", "b.feature", "a.feature:rule:2", "b.feature"] =
        .ok roots ∧
      c.MinimalCover ["a.feature:scenario:3", "b.feature", "a.feature:rule:2", "b.feature"] roots ∧
      (∀ part, part.Sublist roots → c.selectRoots part = .ok part) ∧
      roots = ["b.feature", "a.feature:rule:2"] := by
  let c : Catalog := (Catalog.empty.readFile "a.feature" "Feature: A\nRule: R\nScenario: B").readFile
    "b.feature" "Feature: C"
  have hc : c.Parsed := (parsed_empty.readFile ⟨by decide, by decide, by decide⟩ ⟨by decide⟩).readFile
    ⟨by decide, by decide, by decide⟩ ⟨by decide⟩
  let b : Scenario := ⟨"B", 3, false, []⟩
  have h₁ : c.Holds "a.feature" ⟨"A", 1, "a.feature", [.rule ⟨"R", 2, [b]⟩]⟩ := hc.holds (by decide)
  have h₂ : c.Holds "b.feature" ⟨"C", 1, "b.feature", []⟩ := hc.holds (by decide)
  have hfile : c.IsNode "b.feature" :=
    (isNode_iff hc).2 ⟨_, _, .feature "b.feature", h₂, .feature, rfl⟩
  have hrule : c.IsNode "a.feature:rule:2" :=
    (isNode_iff hc).2 ⟨_, _, _, h₁, .rule (r := ⟨"R", 2, [b]⟩) (by decide), by decide⟩
  have hscenario : c.IsNode "a.feature:scenario:3" :=
    (isNode_iff hc).2 ⟨_, _, _, h₁, .scenario (s := b) (by decide), by decide⟩
  have hids : ∀ id ∈ ["a.feature:scenario:3", "b.feature", "a.feature:rule:2", "b.feature"],
      c.IsNode id := by simp [hfile, hrule, hscenario]
  obtain ⟨roots, hroots, hcover, hagain⟩ := selectRoots_minimalCover hc hids
  refine ⟨c, hc, hids, roots, hroots, hcover, hagain, ?_⟩
  have hvalue : c.selectRoots
      ["a.feature:scenario:3", "b.feature", "a.feature:rule:2", "b.feature"] =
        .ok ["b.feature", "a.feature:rule:2"] := rfl
  exact Except.ok.inj (hroots.symm.trans hvalue)

end FeatureRun.Catalog
