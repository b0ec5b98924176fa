import FeatureRun.Proofs.Catalog.Selection
import FeatureRun.Proofs.Catalog.Update

/-!
# Selecting everything

Without a selection all features of a catalog are selected, by the ids of their files. As ids are
read before they are looked up, this works out exactly if each of them is read as the id of a file.

* `Lists`: the ids of all files in order.
* `select_none_of_read`, `select_none_of_error`: what becomes of selecting everything.
-/
set_option autoImplicit false

namespace FeatureRun.Catalog

/-- All files that the catalog has a feature of, in order and each once. -/
structure Lists (c : Catalog) (files : List String) : Prop where
  sorted : files.Pairwise (· < ·)
  mem_iff : ∀ file, file ∈ files ↔ (c.get? file).isSome = true

variable {c : Catalog} {file id : String} {f : Feature} {ids selected : List String}
  {e : Text.NumeralError}

/-! ## The files in order -/

theorem FromTexts.path (hc : c.FromTexts) (h : c.get? file = some f) : f.path = file := by
  obtain ⟨text, hread⟩ := hc file f h
  obtain ⟨-, -, -, -, hpath⟩ := Feature.exists_draft_of_read hread
  exact hpath

theorem Lists.nodup (h : c.Lists ids) : ids.Nodup := by
  refine h.sorted.imp fun {a b} hlt heq => ?_
  subst heq
  exact String.lt_irrefl a hlt

/-- The features that are selected without a selection are those of all files in order. -/
theorem lists_chosen (hc : c.FromTexts) : c.Lists (c.chosen none) := by
  let le (a b : String × Feature) : Bool := decide (a.1 ≤ b.1)
  let sorted := c.features.entries.mergeSort le
  have hperm : sorted.Perm c.features.entries := List.mergeSort_perm _ _
  have hchosen : c.chosen none = sorted.map Prod.fst := by
    refine (List.map_map (l := sorted)).trans (List.map_congr_left fun entry hentry => ?_)
    exact hc.path (OrderedMap.mem_entries_iff.1 (hperm.mem_iff.1 hentry))
  rw [hchosen]
  constructor
  · have hle : sorted.Pairwise fun a b => le a b = true :=
      List.pairwise_mergeSort (fun a b c => by simpa [le] using String.le_trans)
        (fun a b => by simpa [le] using String.le_total a.1 b.1) _
    -- no key occurs twice, so the order is strict
    have hne : (sorted.map Prod.fst).Nodup := (hperm.map _).nodup_iff.2 c.features.nodup_keys
    exact List.pairwise_map.2 (hle.imp₂ (fun a b hab hdistinct =>
      Std.lt_of_le_of_ne (of_decide_eq_true hab) hdistinct) (List.pairwise_map.1 hne))
  · intro file
    rw [(hperm.map Prod.fst).mem_iff]
    exact OrderedMap.mem_keys_iff

/-! ## Files without anything above them -/

theorem covered_of_read (h : NodeRef.read file = .ok (.feature file)) :
    c.covered selected file = .ok false := by
  have hparent : c.parent file = .ok none := by
    rw [parent, h]
    exact congrArg Except.ok (Option.bind_fun_none _)
  rw [covered, chainBound, coveredFrom, hparent]

theorem covered_of_error (h : NodeRef.read id = .error e) :
    c.covered selected id = .error e := by
  rw [covered, chainBound, coveredFrom, parent, h]
  rfl

/-- Everything is kept of files that are read as such. -/
theorem uncovered_of_read (h : ∀ file ∈ ids, NodeRef.read file = .ok (.feature file)) :
    c.uncovered selected ids = .ok ids := by
  have hcovered : ∀ file ∈ ids, c.coveredBy selected file = false := by
    intro file hfile
    rw [coveredBy, covered_of_read (h file hfile)]
  rw [uncovered_eq fun file hfile => by rw [hcovered file hfile, covered_of_read (h file hfile)]]
  refine congrArg Except.ok (List.filter_eq_self.2 fun file hfile => ?_)
  rw [hcovered file hfile]
  rfl

/-- One id that cannot be read is enough for nothing to be kept. -/
theorem uncovered_of_error (hid : id ∈ ids) (h : NodeRef.read id = .error e) :
    ∃ e, c.uncovered selected ids = .error e := by
  induction ids with
  | nil => nomatch hid
  | cons a ids ih =>
    rw [uncovered]
    rcases List.mem_cons.1 hid with rfl | hid
    · exact ⟨e, by rw [covered_of_error h]⟩
    · obtain ⟨e', he⟩ := ih hid
      split
      · exact ⟨_, rfl⟩
      · exact ⟨e', he⟩
      · exact ⟨e', by rw [he]; rfl⟩

theorem unknownIn_of_read (h : ∀ file ∈ ids, NodeRef.read file = .ok (.feature file))
    (hget : ∀ file ∈ ids, (c.get? file).isSome = true) : c.unknownIn ids = .ok [] := by
  induction ids with
  | nil => rfl
  | cons file ids ih =>
    obtain ⟨f, hf⟩ := Option.isSome_iff_exists.1 (hget file List.mem_cons_self)
    have hnode : c.resolve file = .ok (some (.feature f)) := by
      rw [resolve, h file List.mem_cons_self]
      refine congrArg Except.ok ?_
      rw [node?, NodeRef.file, hf]
      rfl
    rw [unknownIn, hnode]
    exact ih (fun b hb => h b (List.mem_cons_of_mem _ hb))
      fun b hb => hget b (List.mem_cons_of_mem _ hb)

/-! ## Everything -/

/-- If the id of every file is read as such, selecting everything gives all files. -/
theorem select_none_of_read (hc : c.FromTexts)
    (h : ∀ file, (c.get? file).isSome = true → NodeRef.read file = .ok (.feature file)) :
    c.select none = .ok (c.chosen none) := by
  have hlists := lists_chosen hc
  have hdups : (c.chosen none).eraseDups = c.chosen none := eraseDups_of_nodup hlists.nodup
  have hget : ∀ file ∈ c.chosen none, (c.get? file).isSome = true := fun file =>
    (hlists.mem_iff file).1
  have hread : ∀ file ∈ c.chosen none, NodeRef.read file = .ok (.feature file) := fun file hfile =>
    h file (hget file hfile)
  rw [select, ← chosen, selectRoots, hdups, uncovered_of_read hread]
  simp only [unknownIn_of_read hread hget]

/-- If the id of one file cannot be read, nothing is selected. -/
theorem select_none_of_error (hc : c.FromTexts) (hget : (c.get? file).isSome = true)
    (h : NodeRef.read file = .error e) : ∃ e, c.select none = .error (.badId e) := by
  have hmem : file ∈ (c.chosen none).eraseDups :=
    List.mem_eraseDups.2 (((lists_chosen hc).mem_iff file).2 hget)
  have huncovered : ∃ e, c.selectRoots (c.chosen none) = .error e := uncovered_of_error hmem h
  obtain ⟨e', he⟩ := huncovered
  exact ⟨e', by rw [select, ← chosen, he]⟩

end FeatureRun.Catalog
