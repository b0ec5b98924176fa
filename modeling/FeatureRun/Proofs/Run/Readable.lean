import FeatureRun.Proofs.Run.Course
import FeatureRun.Proofs.Run.Picked

/-!
# The results of a run can be told by their ids

What has looked up a node has read its id, and the ids below it are read on the way down. So the ids
of all results of a run or an import can be read, also in files whose own names cannot be, as long
as the numbers of lines have no more digits than are read back.

* `LinesFit`: the numbers of lines of all features.
* `isRead_of_descendants`: the ids of a subtree.
* `legible_of_run`, `legible_of_importReport`: the ids of results.
-/
set_option autoImplicit false

namespace FeatureRun

open Feature

/-- An id that says what it refers to. -/
def NodeRef.IsRead (id : String) : Prop := ∃ ref, NodeRef.read id = .ok ref

open NodeRef (IsRead)

namespace NodeRef

variable {id file : String} {line s e : Int}

/-- The file of a feature whose id can be read has an id that can be. -/
theorem isRead_of_read_feature (h : read id = .ok (.feature file)) : IsRead file := by
  obtain ⟨rfl, -⟩ := of_read_feature h
  exact ⟨_, h⟩

/-- The rows of a scenario whose id can be read have ids that can be. -/
theorem isRead_rowId (h : read id = .ok (.scenario file line)) (hs : Fits s) (he : Fits e) :
    IsRead (rowId file s e) := by
  rcases read_cases h with ⟨_, _, _, -, -, he⟩ | ⟨-, ⟨file', rest, rfl, hscenario⟩ | ⟨-, he⟩⟩
  · cases he
  · rcases readScenario_cases hscenario with ⟨_, hfile⟩ | ⟨_, _, hfile⟩
    · cases hfile
      exact ⟨_, (read_rowId_iff hs he).2 (noRule_of_read h nofun)⟩
    · cases hfile
  · cases he

end NodeRef

namespace Catalog

/-- The numbers of all lines can be read back. -/
def LinesFit (c : Catalog) : Prop :=
  ∀ file f, c.get? file = some f → ∀ x ∈ f.nodes, Fits x.line

variable {c : Catalog} {id : String} {ids below : List String}

theorem mem_concat {α : Type} {ls : List (Lookup (List α))} {as : List α}
    (h : concat ls = .ok as) : ∀ a ∈ as, ∃ bs, .ok bs ∈ ls ∧ a ∈ bs := by
  induction ls generalizing as with
  | nil =>
    cases h
    nofun
  | cons l ls ih =>
    cases l with
    | error e => nomatch h
    | ok bs =>
      obtain ⟨rest, hrest, rfl⟩ := exists_of_map_ok h
      intro a ha
      rcases List.mem_append.1 ha with ha | ha
      · exact ⟨bs, List.mem_cons_self, ha⟩
      · obtain ⟨cs, hcs, ha⟩ := ih hrest a ha
        exact ⟨cs, List.mem_cons_of_mem _ hcs, ha⟩

/-- The ids of a subtree can be read if there is one. -/
theorem isRead_of_descendantsFrom (hc : c.LinesFit) {depth : Nat}
    (h : c.descendantsFrom depth id = .ok below) : ∀ n ∈ below, IsRead n := by
  induction depth generalizing id below with
  | zero =>
    cases h
    exact List.forall_mem_nil _
  | succ depth ih =>
    have hconcat : ∀ {ls : List (Lookup (List String))} {ns : List String},
        (∀ l ∈ ls, ∃ i, l = c.descendantsFrom depth i) → concat ls = .ok ns →
        ∀ n ∈ ns, IsRead n := by
      intro ls ns hls hns n hn
      obtain ⟨bs, hbs, hn⟩ := mem_concat hns n hn
      obtain ⟨i, hi⟩ := hls _ hbs
      exact ih hi.symm n hn
    rw [descendantsFrom] at h
    cases hread : NodeRef.read id with
    | error e =>
      rw [hread] at h
      cases h
    | ok ref =>
      simp only [hread] at h
      split at h
      · cases h
        exact List.forall_mem_nil _
      · cases h
        exact List.forall_mem_singleton.2 ⟨ref, hread⟩
      · rename_i s hnode
        cases h
        obtain ⟨f, hget, hdenotes⟩ := exists_denotes_of_node? hnode
        refine List.forall_mem_cons.2 ⟨⟨ref, hread⟩, fun n hn => ?_⟩
        obtain ⟨row, hrow, rfl⟩ := List.mem_map.1 hn
        generalize ref.file = file at *
        cases hdenotes with
        | scenario hs =>
          exact NodeRef.isRead_rowId hread (hc _ _ hget _ (mem_nodes_scenario hs))
            (hc _ _ hget _ (mem_nodes_row hs hrow))
      · obtain ⟨ns, hns, rfl⟩ := exists_of_map_ok h
        refine List.forall_mem_cons.2 ⟨⟨ref, hread⟩, hconcat (fun l hl => ?_) hns⟩
        obtain ⟨s, -, rfl⟩ := List.mem_map.1 hl
        exact ⟨_, rfl⟩
      · rename_i f hnode
        obtain ⟨ns, hns, rfl⟩ := exists_of_map_ok h
        refine List.forall_mem_cons.2 ⟨?_, hconcat (fun l hl => ?_) hns⟩
        · obtain ⟨g, -, hdenotes⟩ := exists_denotes_of_node? hnode
          generalize ref.file = file at *
          cases hdenotes
          exact NodeRef.isRead_of_read_feature hread
        · obtain ⟨child, -, rfl⟩ := List.mem_map.1 hl
          cases child <;> exact ⟨_, rfl⟩

theorem isRead_of_descendants (hc : c.LinesFit) (h : c.descendants id = .ok below) :
    ∀ n ∈ below, IsRead n := isRead_of_descendantsFrom hc h

end Catalog

namespace Run

open Report (Entry)

variable {runner : Runner} {ids : Option (List String)} {cancelAfter : Option Nat}
  {selected : List String} {run : Int} {report : List Entry} {results : Results} {counts : Summary}
  {found : Results × Summary} {failure : Failure} {c : Catalog} {root : Path} {id path : String}
  {r : RunResult} {w w' : Workspace}

/-- The ids of all results can be read. -/
def Legible (results : Results) : Prop := ∀ n ∈ results.keys, IsRead n

theorem legible_empty : Legible .empty := nofun

theorem legible_ofList {es : List (String × Result)} (h : ∀ e ∈ es, IsRead e.1) :
    Legible (.ofList es) := by
  intro n hn
  obtain ⟨e, he, rfl⟩ := List.mem_map.1 (OrderedMap.mem_keys_ofList.1 hn)
  exact h e he

theorem Legible.insertAll {more : Results} (h : Legible results) (hmore : Legible more) :
    Legible (results.insertAll more.entries) := fun n hn =>
  (OrderedMap.mem_keys_insertAll.1 hn).elim (h n) (hmore n)

/-! ## Applying a report -/

/-- What is picked for a node has the ids of its subtree. -/
theorem legible_picked {a : Applied} (hc : c.LinesFit)
    (h : applyTo c root report id = .ok (some a)) : Legible a.picked := by
  obtain ⟨x, f, below, above, hread, -, hbelow, -, rfl⟩ := applyTo_eq_some_iff.1 h
  have hpick : Legible (pick (verdicts report x.file f) below) := by
    refine legible_ofList fun e he => ?_
    obtain ⟨i, hi, hr⟩ := List.mem_filterMap.1 he
    obtain ⟨r, -, rfl⟩ := Option.map_eq_some_iff.1 hr
    exact Catalog.isRead_of_descendants hc hbelow i hi
  cases x with
  | feature file =>
    intro n hn
    rw [appliedBy, pickedBy, OrderedMap.keys_insert] at hn
    split at hn
    · exact hpick n hn
    · rcases List.mem_append.1 hn with hn | hn
      · exact hpick n hn
      · rw [List.mem_singleton.1 hn]
        exact NodeRef.isRead_of_read_feature hread
  | _ => exact hpick

theorem legible_applyAllWith {keep : List Result → Action Unit}
    (hkeep : ∀ rs, Action.Keeps unrecorded (keep rs)) (hc : w.catalog.LinesFit)
    (hresults : Legible results) {ids : List String}
    (h : applyAllWith keep report results counts ids w = (.ok found, w')) : Legible found.1 := by
  induction ids generalizing results counts w with
  | nil =>
    cases h
    exact hresults
  | cons id ids ih =>
    rw [applyAllWith, Action.bind_ok Action.get_apply] at h
    cases happly : applyTo w.catalog w.root report id with
    | error e =>
      rw [happly] at h
      cases h
    | ok applied =>
      rw [happly, Action.bind_ok (Action.ofExcept_ok _ _)] at h
      cases applied with
      | none => exact ih hc hresults h
      | some a =>
        obtain ⟨_, w₁, hnote, h⟩ := Action.exists_of_bind_ok h
        obtain ⟨_, w₂, hrecord, h⟩ := Action.exists_of_bind_ok h
        have hcatalog : w₂.catalog = w.catalog := by
          cases hnote
          exact congrArg (fun w => w.catalog) ((hkeep _).apply hrecord)
        exact ih (hcatalog ▸ hc) (hresults.insertAll (legible_picked hc happly)) h

theorem legible_applyReport (hc : w.catalog.LinesFit) {runId : Option Int}
    (h : applyReportWith (recordEncoded runId) report ids cancelAfter w = (.ok found, w')) :
    Legible found.1 := by
  obtain ⟨selected, w₁, hselect, h⟩ := Action.exists_of_bind_ok h
  obtain ⟨found', w₂, happly, h⟩ := Action.exists_of_bind_ok h
  have hcatalog : w₁.catalog = w.catalog :=
    ((keeps_selection ids).part fun w => w.catalog).apply hselect
  have hfound : found' = found := by
    dsimp only at h
    split at h
    · obtain ⟨_, _, -, h⟩ := Action.exists_of_bind_ok h
      exact Except.ok.inj (Prod.mk.inj h).1
    · exact Except.ok.inj (Prod.mk.inj h).1
  exact hfound ▸
    legible_applyAllWith (keeps_recordEncoded runId) (hcatalog ▸ hc) legible_empty happly

/-! ## Runs and imports -/

theorem results_of_finish (h : finish run found w = (.ok r, w')) : r.results = found.1 := by
  obtain ⟨_, _, -, h⟩ := Action.exists_of_bind_ok h
  obtain ⟨_, _, -, h⟩ := Action.exists_of_bind_ok h
  cases h
  rfl

/-- Nodes that fail alike were selected. -/
theorem legible_of_failAll (hread : ∀ id ∈ selected, IsRead id)
    (h : failAll run selected failure w = (.ok r, w')) : Legible r.results := by
  rw [failAll_eq] at h
  obtain ⟨_, _, -, h⟩ := Action.exists_of_bind_ok h
  obtain ⟨_, _, -, h⟩ := Action.exists_of_bind_ok h
  obtain ⟨_, _, -, h⟩ := Action.exists_of_bind_ok h
  cases h
  refine legible_ofList fun e he => ?_
  obtain ⟨id, hid, rfl⟩ := List.mem_map.1 he
  exact hread id hid

/-- What is collected was applied to the nodes of the catalog. -/
theorem legible_of_collect {file : Path} {later : List Report.Stage} (hc : w.catalog.LinesFit)
    (h : collect run selected cancelAfter file later w = (.ok (some found), w')) :
    Legible found.1 := by
  obtain ⟨entries, hawaited, hsome, -⟩ := awaited_of_collect h
  cases entries with
  | none => nomatch hsome.2 rfl
  | some entries =>
    obtain ⟨w₁, hkeep, hcollect⟩ := collect_some hawaited
    have hcatalog : w₁.catalog = w.catalog := congrArg (fun w => w.catalog) hkeep
    rcases happly : applyReportWith (recordEncoded (some run)) entries (some selected) cancelAfter
      w₁ with ⟨res, w₂⟩
    obtain ⟨hres, -⟩ := Prod.mk.inj ((hcollect _ _ happly).symm.trans h)
    obtain ⟨found', rfl, he⟩ := exists_of_map_ok hres
    cases he
    exact legible_applyReport (hcatalog ▸ hc) happly

/-- The results of a run can be told by their ids. -/
theorem legible_of_run (hc : w.catalog.LinesFit)
    (h : Workspace.run runner ids cancelAfter w = (.ok r, w')) : Legible r.results := by
  cases hselect : w.catalog.select ids with
  | error e =>
    rw [run_of_select_error hselect] at h
    nomatch h
  | ok selected =>
    by_cases hsome : selected = []
    · rw [hsome] at hselect
      rw [run_of_select_nil hselect] at h
      cases h
      exact legible_empty
    have hread := Catalog.exists_read_of_select hselect
    rw [run_eq hselect hsome] at h
    obtain ⟨⟨targets, run⟩, w₁, henter, h⟩ := Action.exists_of_bind_ok h
    obtain ⟨⟨file, result⟩, w₂, hrelease, h⟩ := Action.exists_of_bind_ok h
    have hcatalog := ((entered_of_enter henter).of_release hrelease).catalog
    cases result with
    | error e => exact legible_of_failAll hread (conclude_trouble.symm.trans h)
    | ok code =>
      obtain ⟨answer, w₃, hcollect, h⟩ := Action.exists_of_bind_ok h
      cases answer with
      | none => exact legible_of_failAll hread h
      | some found =>
        exact results_of_finish h ▸ legible_of_collect (hcatalog ▸ hc) hcollect

/-- So can those of an import. -/
theorem legible_of_importReport (hc : w.catalog.LinesFit)
    (h : Workspace.importReport path ids w = (.ok r, w')) : Legible r.results := by
  rw [Workspace.importReport, Action.bind_ok Action.get_apply] at h
  obtain ⟨entries, w₁, hentries, h⟩ := Action.exists_of_bind_ok h
  obtain ⟨selected, w₂, hselect, h⟩ := Action.exists_of_bind_ok h
  obtain ⟨run, w₃, hstart, h⟩ := Action.exists_of_bind_ok h
  obtain ⟨found, w₄, happly, h⟩ := Action.exists_of_bind_ok h
  have hentries' : w₁ = w := (Action.of_ofExcept_ok hentries).2
  have hselection : w₂.catalog = w₁.catalog :=
    ((keeps_selection ids).part fun w => w.catalog).apply hselect
  have hcatalog : w₃.catalog = w.catalog := by
    rw [(entered_of_startRun hstart).catalog, hselection, hentries']
  exact results_of_finish h ▸ legible_applyReport (hcatalog ▸ hc) happly

end Run
end FeatureRun
