import FeatureRun.Proofs.Feature.Leaves
import FeatureRun.Proofs.Run.Frame
import FeatureRun.Proofs.Watch.Batch
import FeatureRun.Proofs.Watch.Overlong
import FeatureRun.Proofs.Workspace.Discovered

/-!
# The number of tests on display

The number of tests that the status bar shows is that of the catalog, from the discovery of all
files on: whenever a round of watching that comes to its end changes the catalog it says which files
it has touched, and runs leave both alone.

* `sum_testsIn`: counting the tests file by file.
* `Refreshed`: what the catalog holds after discovery, and in how many ways its tests are counted.
* `Later`: what may happen to a workspace after that.
* `shown_of_later`: the number that is shown is that of the catalog throughout.
-/
set_option autoImplicit false

namespace FeatureRun

namespace Catalog

variable {c : Catalog} {files : List String}

/-! ## Counting the tests of a catalog -/

theorem countTests_eq_foldr (c : Catalog) :
    c.countTests = c.features.keys.foldr (fun file n => c.testsIn file + n) 0 := by
  have hvalues : c.features.keys.map c.testsIn = c.features.values.map Feature.countTests := by
    rw [OrderedMap.keys, OrderedMap.values, List.map_map, List.map_map]
    refine List.map_congr_left fun e he => ?_
    have hget : c.get? e.1 = some e.2 := OrderedMap.mem_entries_iff.1 he
    rw [Function.comp_apply, testsIn, hget]
    rfl
  calc c.countTests
    _ = (c.features.values.map Feature.countTests).foldr (· + ·) 0 := List.foldr_map.symm
    _ = c.features.keys.foldr (fun file n => c.testsIn file + n) 0 := by
      rw [← hvalues, List.foldr_map]

/-- Whatever files are counted, each once, those that the catalog does not have add nothing. -/
theorem sum_testsIn (hnodup : files.Nodup) (hall : ∀ file ∈ c.features.keys, file ∈ files) :
    files.foldr (fun file n => c.testsIn file + n) 0 = c.countTests := by
  have hsum : ∀ files : List String,
      files.foldr (fun file n => c.testsIn file + n) 0 = (files.map c.testsIn).sum := fun files => by
    rw [List.sum, List.foldr_map]
  have hperm : (files.filter (c.features.keys.contains ·)).Perm c.features.keys := by
    refine (List.perm_ext_iff_of_nodup (hnodup.filter _) c.features.nodup_keys).2 fun file => ?_
    rw [List.mem_filter, List.contains_iff_mem]
    exact ⟨fun h => h.2, fun h => ⟨hall file h, h⟩⟩
  rw [countTests_eq_foldr, hsum, hsum, ← (hperm.map c.testsIn).sum_nat]
  clear hperm hnodup hall
  induction files with
  | nil => rfl
  | cons file files ih =>
    rw [List.filter_cons]
    split
    · rw [List.map_cons, List.map_cons, List.sum_cons, List.sum_cons, ih]
    · rename_i hnot
      have hnone : c.get? file = none := by
        rw [List.contains_iff_mem, OrderedMap.mem_keys_iff] at hnot
        exact Option.not_isSome_iff_eq_none.1 hnot
      rw [List.map_cons, List.sum_cons, ih, testsIn, hnone]
      exact Nat.zero_add _

/-- The tests of a catalog are those of its features in the order of their files. -/
theorem length_leaves_sorted (c : Catalog) :
    (c.sorted.flatMap fun f => f.leaves f.path).length = c.countTests := by
  have hperm : c.sorted.Perm c.features.values := (List.mergeSort_perm _ _).map _
  rw [List.length_flatMap]
  simp only [Feature.length_leaves]
  rw [(hperm.map Feature.countTests).sum_nat, List.sum, List.foldr_map]
  rfl

end Catalog

namespace Workspace

variable {w w' : Workspace}

/-- What the catalog holds after discovery, and that its tests are counted alike everywhere. -/
structure Refreshed (w w' : Workspace) (total : Nat) : Prop where
  features : ∀ file f, w'.catalog.get? file = some f ↔
    ∃ text, IsFeatureText w file text ∧ Feature.read text file = some f
  total : total = w'.catalog.countTests
  leaves : (w'.catalog.sorted.flatMap fun f => f.leaves f.path).length = w'.catalog.countTests
  shown : w'.status.tests = w'.catalog.countTests

/-! ## What happens later -/

/-- A round of watching comes to its end, or it breaks off before the catalog has changed. -/
def Completes (changes : List Change) (now : Option Float) (w : Workspace) : Prop :=
  (∃ touched, (poll changes now w).1 = .ok touched) ∨ (poll changes now w).2.catalog = w.catalog

/-- The workspaces that come of one by rounds of watching and by runs, while anything happens to the
machine in between. -/
inductive Later (w : Workspace) : Workspace → Prop where
  | now : Later w w
  | machine {w' : Workspace} (h : Later w w') (m : Machine) : Later w { w' with toMachine := m }
  | poll {w' : Workspace} (h : Later w w') (changes : List Change) (now : Option Float)
    (hend : Completes changes now w') : Later w (poll changes now w').2
  | run {w' : Workspace} (h : Later w w') (runner : Runner) (ids : Option (List String))
    (cancelAfter : Option Nat) : Later w (run runner ids cancelAfter w').2

/-- The status bar shows the number of tests in the catalog. -/
def ShowsTests (w : Workspace) : Prop := w.status.tests = w.catalog.countTests

/-- A round that touches no file leaves the catalog as it is. -/
theorem round_of_touched_eq_nil {scene : Watch.Scene} {c : Catalog} {schedule : Schedule}
    {changes : List Change} {now : Float}
    (h : (Watch.round scene c schedule changes now).touched = .ok []) :
    (Watch.round scene c schedule changes now).catalog = c := by
  have hentries := (Watch.absorbed_apply scene c schedule changes).catalog
  rw [Watch.round] at h ⊢
  rcases happly : Watch.apply scene c schedule changes with ⟨e | u, s⟩
  · rw [happly] at h
    cases h
  rw [happly] at h hentries
  obtain ⟨hremoved, hdue⟩ := List.append_eq_nil_iff.1 (Except.ok.inj h)
  simp only [hremoved, List.contains_nil, Bool.not_false, List.filter_true] at hdue
  simp only [hremoved, List.not_mem_nil, not_false_eq_true, decide_true, List.filter_true]
    at hentries
  simp only [hdue]
  exact congrArg Catalog.mk (OrderedMap.eq_of_entries hentries)

/-- A round of watching that changes the catalog and comes to its end says so, and then the number
is shown anew. -/
theorem showsTests_poll {changes : List Change} {now : Option Float} (hw : ShowsTests w)
    (hend : Completes changes now w) : ShowsTests (poll changes now w).2 := by
  rw [Completes] at hend
  rw [poll, Action.bind_ok Action.get_apply, Action.bind_ok (Action.note_apply _)] at hend ⊢
  have hsame : (Watch.round w.scene w.catalog w.schedule changes (now.getD w.clock)).catalog =
      w.catalog →
      w.status.tests = (Watch.round w.scene w.catalog w.schedule changes
        (now.getD w.clock)).catalog.countTests := by
    intro hcatalog
    rw [hcatalog]
    exact hw
  rcases htouched : (Watch.round w.scene w.catalog w.schedule changes
      (now.getD w.clock)).touched with e | touched
  · rw [htouched] at hend
    refine hsame (hend.resolve_left ?_)
    rintro ⟨_, ⟨⟩⟩
  cases touched with
  | nil => exact hsame (round_of_touched_eq_nil htouched)
  | cons file files => rfl

/-- Runs change neither the catalog nor the number. -/
theorem maintains_run (runner : Runner) (ids : Option (List String)) (cancelAfter : Option Nat) :
    Action.Maintains ShowsTests (run runner ids cancelAfter) :=
  (Run.keeps_run runner ids cancelAfter).maintains ShowsTests

theorem showsTests_of_later (hw : ShowsTests w) (h : Later w w') : ShowsTests w' := by
  induction h with
  | now => exact hw
  | machine h m ih => exact ih
  | poll h changes now hend ih => exact showsTests_poll ih hend
  | run h runner ids cancelAfter ih => exact maintains_run runner ids cancelAfter _ ih

theorem refresh_total (w : Workspace) : ∃ w', refresh w =
      (.ok (w.discovered.foldr (fun file n => w'.catalog.testsIn file + n) 0), w') ∧
    w'.status.tests =
      ((w.discovered.foldr (fun file n => w'.catalog.testsIn file + n) 0 : Nat) : Int) :=
  ⟨(refresh w).2, rfl, rfl⟩

/-- Discovery returns and shows the number of tests in the feature files, and from then on the
number that is shown is that of the catalog, unless a round of watching breaks off when it has
dropped a file. -/
theorem shown_of_later (hdisk : w.disk.Proper) (hroot : w.root.IsResolved) :
    ∃ total w₁, refresh w = (.ok total, w₁) ∧ Refreshed w w₁ total ∧
      ∀ w₂, Later w₁ w₂ → w₂.status.tests = w₂.catalog.countTests := by
  obtain ⟨w₁, hrefresh, hstatus⟩ := refresh_total w
  have hget : ∀ file f, w₁.catalog.get? file = some f ↔
      ∃ text, IsFeatureText w file text ∧ Feature.read text file = some f := by
    intro file f
    rw [← get?_refresh_eq_some_iff hdisk hroot, hrefresh]
  have htotal : w.discovered.foldr (fun file n => w₁.catalog.testsIn file + n) 0 =
      w₁.catalog.countTests := by
    have hall : ∀ file ∈ w₁.catalog.features.keys, file ∈ w.discovered := by
      intro file hfile
      have hsome : (w₁.catalog.get? file).isSome = true := OrderedMap.mem_keys_iff.1 hfile
      have hread := get?_refresh_eq w file
      rw [hrefresh] at hread
      by_contra hnot
      rw [hread, if_neg hnot] at hsome
      nomatch hsome
    exact Catalog.sum_testsIn (nodup_discovered hdisk hroot) hall
  rw [htotal] at hrefresh hstatus
  exact ⟨_, w₁, hrefresh, ⟨hget, rfl, Catalog.length_leaves_sorted _, hstatus⟩,
    fun w₂ => showsTests_of_later hstatus⟩

/-- A workspace with a file that holds "Feature:\nScenario:". -/
def oneTest : Workspace :=
  let content : Bytes :=
    [70, 101, 97, 116, 117, 114, 101, 58, 10, 83, 99, 101, 110, 97, 114, 105, 111, 58]
  .start ⟨.dir [("w", .dir [("a.feature", .file content)])], .empty, .new, "/w", "", 0, 0, [], [], .usual⟩

/-- The same after its features have been discovered and the file has been deleted. -/
def afterDeletion : Workspace :=
  { (refresh oneTest).2 with disk := .dir [("w", .dir [])] }

/-- A file with one test is discovered, and a round of watching finds that it has been deleted. -/
theorem shown_of_later_of_deleted : ∃ w₂ : Workspace, oneTest.disk.Proper ∧
    oneTest.root.IsResolved ∧
    (∃ total w₁, refresh oneTest = (.ok total, w₁) ∧ Refreshed oneTest w₁ total ∧ total = 1 ∧
      Later w₁ w₂) ∧
    w₂.status.tests = w₂.catalog.countTests ∧ w₂.status.tests = 0 := by
  have hproper : ∀ n, n = "w" ∨ n = "a.feature" → Path.IsProper n := by
    rintro n (rfl | rfl) <;> exact ⟨by decide, by decide, by decide, by decide⟩
  have hdisk : oneTest.disk.Proper := by
    refine .dir (by simp [hproper]) (by simp) ?_
    simp only [List.forall_mem_singleton]
    refine .dir (by simp [hproper]) (by simp) ?_
    simp only [List.forall_mem_singleton]
    exact .file _
  have hroot : oneTest.root.IsResolved := Path.isResolved_resolve "/w" "/w"
  obtain ⟨total, w₁, hrefresh, hrefreshed, hlater⟩ := shown_of_later hdisk hroot
  have htotal : (refresh oneTest).1.toOption = some 1 := by decide +kernel
  have hw₁ : w₁ = (refresh oneTest).2 := by rw [hrefresh]
  rw [hrefresh] at htotal
  cases htotal
  have hok : (poll [⟨.deleted, "/w/a.feature"⟩] none afterDeletion).1.isOk = true := by
    decide +kernel
  have hend : Completes [⟨.deleted, "/w/a.feature"⟩] none afterDeletion := by
    rcases hpoll : (poll [⟨.deleted, "/w/a.feature"⟩] none afterDeletion).1 with e | touched
    · rw [hpoll] at hok
      nomatch hok
    · exact .inl ⟨touched, hpoll⟩
  have hstep : Later w₁ (poll [⟨.deleted, "/w/a.feature"⟩] none afterDeletion).2 := by
    rw [hw₁]
    exact .poll (.machine .now afterDeletion.toMachine) _ _ hend
  exact ⟨_, hdisk, hroot, ⟨1, w₁, hrefresh, hrefreshed, rfl, hstep⟩, hlater _ hstep,
    by decide +kernel⟩

/-- The deleted file is reported, and after it a path that the system refuses. The file is dropped,
but its test is still shown. -/
theorem not_shown_of_refused_path :
    ∃ e w', poll [⟨.deleted, "/w/a.feature"⟩, ⟨.added, Watch.overlongPath⟩] none afterDeletion =
      (.error e, w') ∧ w'.status.tests = 1 ∧ w'.catalog.countTests = 0 := by
  let s : Watch.State := ⟨afterDeletion.catalog, afterDeletion.schedule, [], []⟩
  have hclear : Watch.blocked? afterDeletion.scene ⟨.deleted, "/w/a.feature"⟩ = none := by
    decide +kernel
  have hroot : afterDeletion.scene.root = ⟨.slash, ["w"]⟩ := rfl
  obtain ⟨e, hrest⟩ := Watch.takeAll_overlong hroot rfl
    (s.absorb afterDeletion.scene ⟨.deleted, "/w/a.feature"⟩) .added []
  have happly : Watch.apply afterDeletion.scene afterDeletion.catalog afterDeletion.schedule
      [⟨.deleted, "/w/a.feature"⟩, ⟨.added, Watch.overlongPath⟩] =
        (.error e, s.absorb afterDeletion.scene ⟨.deleted, "/w/a.feature"⟩) := by
    rw [Watch.apply_of_sorted _ _ _ (List.pairwise_pair.2 Watch.overlongPath_between.1),
      Watch.State.takeAll, Watch.take_eq, hclear]
    exact hrest
  exact ⟨_, _, poll_of_broken none happly, by decide +kernel, by decide +kernel⟩

end Workspace
end FeatureRun
