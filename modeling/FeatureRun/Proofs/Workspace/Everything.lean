import FeatureRun.Proofs.Catalog.Everything
import FeatureRun.Proofs.Watch.Round
import FeatureRun.Proofs.Workspace.Files
import FeatureRun.Run.Basic

/-!
# Running everything

Without a selection a run covers every feature of the catalog, if the ids of the files can be told
from those of the nodes in them. One discovered file whose path holds the mark of a rule or of a
scenario is enough for nothing to be run.

* `Update`, `Updated`: how the catalog of a workspace is brought up to date, from an empty one.
* `IsNamed`, `named_of_updated`: what all of this leaves in the catalog and the schedule.
* `selection_of_updated`: what is selected without a selection.
-/
set_option autoImplicit false

namespace FeatureRun.Workspace

open Discovery (isFeatureName)

/-- What brings the catalog of a workspace up to date. -/
inductive Update : Workspace → Workspace → Prop where
  | refresh {w : Workspace} : Update w (refresh w).2
  | poll {w : Workspace} (changes : List Change) (now : Option Float) :
    Update w (poll changes now w).2
  /-- One of the discovered files is read anew, with this text or else with that on the disk. -/
  | updateFile {w : Workspace} (path : String) (text : Option String)
    (hfile : w.fileId path ∈ w.discovered) : Update w (updateFile path text w).2
  /-- Something else happens: the disk changes, time passes, nodes are run. -/
  | around {w w' : Workspace} (hcatalog : w'.catalog = w.catalog)
    (hschedule : w'.schedule = w.schedule) : Update w w'

/-- The workspaces that come of one about which nothing is known yet. -/
inductive Updated : Workspace → Prop where
  | start {w : Workspace} (hcatalog : w.catalog = .empty) (hpending : w.schedule.pending = []) :
    Updated w
  | step {w w' : Workspace} (h : Updated w) (hstep : Update w w') : Updated w'

variable {w w' : Workspace} {file : String} {f : Feature}

/-! ## What is in the catalog -/

/-- The catalog has nothing but features that were read from files with the name of a feature file,
and no other files wait to be read. -/
structure IsNamed (w : Workspace) : Prop where
  texts : w.catalog.FromTexts
  names : ∀ file f, w.catalog.get? file = some f → isFeatureName file = true
  pending : ∀ file ∈ w.schedule.pending, isFeatureName file = true

/-- The watcher accepts no change but of a feature file. -/
theorem isFeatureName_of_concerns {scene : Watch.Scene} {c : Change}
    (h : Watch.Concerns scene c file) : isFeatureName file = true := by
  obtain ⟨haccepted, rfl⟩ := h
  rw [Watch.accepts, Bool.and_eq_true] at haccepted
  exact Discovery.isFeatureName_normalize haccepted.1

theorem named_update (h : Update w w') (hw : IsNamed w) : IsNamed w' := by
  cases h with
  | refresh =>
    obtain ⟨total, w', hrefresh, hw'⟩ := refresh_eq w
    rw [hrefresh, hw']
    refine ⟨Catalog.fromTexts_empty.updateAll _ _, fun file f hget => ?_, hw.pending⟩
    rw [Catalog.get?_updateAll] at hget
    split at hget
    · rename_i hfound
      exact isFeatureName_of_mem_discovered hfound
    · nomatch hget
  | poll changes now =>
    obtain ⟨w', hpoll, hw'⟩ := poll_eq changes now w rfl
    rw [hpoll, hw']
    -- a round brings only what was waiting and what an accepted change is about
    have hfrom (file : String) (hsource : file ∈ w.schedule.pending ∨
        ∃ c ∈ changes, Watch.Concerns w.scene c file) : isFeatureName file = true := by
      rcases hsource with hpending | ⟨c, -, hconcerns⟩
      · exact hw.pending file hpending
      · exact isFeatureName_of_concerns hconcerns
    refine ⟨Watch.fromTexts_round hw.texts _ _ _ _, fun file f hget => ?_, fun file hpending =>
      hfrom file (Watch.mem_pending_of_round hpending)⟩
    rcases Watch.get?_of_round hget with hget | ⟨hsource, -⟩
    · exact hw.names file f hget
    · exact hfrom file hsource
  | updateFile path text hfile =>
    rcases updateFile_eq path text w with hsame | ⟨content, journal, hupdated⟩
    · rwa [hsame]
    · rw [hupdated]
      refine ⟨hw.texts.update _ _, fun file f hget => ?_, hw.pending⟩
      rw [Catalog.get?_update] at hget
      split at hget
      · rename_i hsame
        exact hsame ▸ isFeatureName_of_mem_discovered hfile
      · exact hw.names file f hget
  | around hcatalog hschedule =>
    exact ⟨hcatalog ▸ hw.texts, hcatalog ▸ hw.names, hschedule ▸ hw.pending⟩

theorem named_of_updated (h : Updated w) : IsNamed w := by
  induction h with
  | start hcatalog hpending =>
    refine ⟨hcatalog ▸ Catalog.fromTexts_empty, ?_, ?_⟩
    · rw [hcatalog]
      exact nofun
    · rw [hpending]
      exact nofun
  | step _ hstep ih => exact named_update hstep ih

/-! ## What is selected -/

theorem selection_apply (ids : Option (List String)) (w : Workspace) :
    Run.selection ids w = (Action.ofExcept .selection (w.catalog.select ids)) w := by
  rw [Run.selection, Action.bind_ok Action.get_apply]

/-- However the catalog was brought up to date, a run of everything takes all its files, in order
and each once, if none of their ids holds the mark of a rule or of a scenario. A single file whose
id holds one keeps all of them from being run. -/
theorem selection_of_updated (h : Updated w) :
    ((∀ file f, w.catalog.get? file = some f →
        ¬":rule:".toList <:+: file.toList ∧ ¬":scenario:".toList <:+: file.toList) →
      ∃ ids, Run.selection none w = (.ok ids, w) ∧ w.catalog.Lists ids) ∧
    ∀ file f, w.catalog.get? file = some f →
      ":rule:".toList <:+: file.toList ∨ ":scenario:".toList <:+: file.toList →
      ∃ e, Run.selection none w = (.error (.selection (.badId e)), w) := by
  have hnamed := named_of_updated h
  constructor
  · intro hplain
    have hselect := Catalog.select_none_of_read hnamed.texts fun file hget => by
      obtain ⟨f, hf⟩ := Option.isSome_iff_exists.1 hget
      exact NodeRef.read_feature_iff.2 (hplain file f hf)
    refine ⟨_, ?_, Catalog.lists_chosen hnamed.texts⟩
    rw [selection_apply, hselect]
    rfl
  · intro file f hget hmark
    cases hread : NodeRef.read file with
    | ok x =>
      obtain ⟨-, hrule, hscenario⟩ := NodeRef.eq_feature_of_read (hnamed.names file f hget) hread
      exact absurd hmark (not_or.2 ⟨hrule, hscenario⟩)
    | error e =>
      obtain ⟨e', hselect⟩ :=
        Catalog.select_none_of_error hnamed.texts (Option.isSome_of_eq_some hget) hread
      refine ⟨e', ?_⟩
      rw [selection_apply, hselect]
      rfl

/-- One feature file is discovered, and a run of everything takes it. -/
theorem selection_of_updated_of_one : ∃ w, Updated w ∧
    (∀ file f, w.catalog.get? file = some f →
      ¬":rule:".toList <:+: file.toList ∧ ¬":scenario:".toList <:+: file.toList) ∧
    ∃ ids, Run.selection none w = (.ok ids, w) ∧ "/w/a.feature" ∈ ids := by
  -- the text of the file is "Feature:"
  let disk : FileTree :=
    .dir [("w", .dir [("a.feature", .file [70, 101, 97, 116, 117, 114, 101, 58])])]
  let w : Workspace := .start ⟨disk, .empty, .new, "/w", "", 0, 0, [], [], .usual⟩
  have hdiscovered : w.discovered = ["/w/a.feature"] := by decide +kernel
  have hupdated : Updated (refresh w).2 := .step (.start rfl rfl) .refresh
  have hplain : ∀ file f, (refresh w).2.catalog.get? file = some f →
      ¬":rule:".toList <:+: file.toList ∧ ¬":scenario:".toList <:+: file.toList := by
    intro file f hget
    rw [get?_refresh_eq, hdiscovered] at hget
    split at hget
    · rename_i hfile
      rw [List.mem_singleton.1 hfile]
      exact ⟨NodeRef.occursIn_eq_false_iff.1 (by decide),
        NodeRef.occursIn_eq_false_iff.1 (by decide)⟩
    · nomatch hget
  obtain ⟨ids, hselection, hlists⟩ := (selection_of_updated hupdated).1 hplain
  refine ⟨_, hupdated, hplain, ids, hselection, (hlists.mem_iff _).2 ?_⟩
  rw [get?_refresh_eq, hdiscovered, if_pos (List.mem_singleton_self _)]
  decide +kernel

/-- Two feature files are discovered, and the name of one of them keeps the other from being run. -/
theorem selection_not_everything :
    ¬∀ w, Updated w → ∃ ids, Run.selection none w = (.ok ids, w) ∧ w.catalog.Lists ids := by
  intro h
  -- the text of both files is "Feature:"
  let content : FileTree := .file [70, 101, 97, 116, 117, 114, 101, 58]
  let disk : FileTree :=
    .dir [("w", .dir [("a.feature", content), ("b:rule:c.feature", content)])]
  let w : Workspace := .start ⟨disk, .empty, .new, "/w", "", 0, 0, [], [], .usual⟩
  have hfile : Discovery.IsFileBelow w.disk w.root [] "b:rule:c.feature" "/w/b:rule:c.feature" :=
    ⟨⟨by decide, by decide⟩, by decide, by decide⟩
  have hfound : "/w/b:rule:c.feature" ∈ w.discovered := List.mem_map.2
    ⟨_, (Discovery.mem_featureFiles_iff hfile).2 ⟨by simp, by decide⟩, by decide⟩
  have hupdated : Updated (refresh w).2 := .step (.start rfl rfl) .refresh
  obtain ⟨ids, hselection, -⟩ := h _ hupdated
  have hget : ((refresh w).2.catalog.get? "/w/b:rule:c.feature").isSome = true := by
    rw [get?_refresh_eq, if_pos hfound]
    decide +kernel
  have hread : (NodeRef.read "/w/b:rule:c.feature").isOk = false := by decide +kernel
  cases he : NodeRef.read "/w/b:rule:c.feature" with
  | ok x =>
    rw [he] at hread
    nomatch hread
  | error e =>
    obtain ⟨e', hselect⟩ := Catalog.select_none_of_error (named_of_updated hupdated).texts hget he
    rw [selection_apply, hselect] at hselection
    nomatch hselection

end FeatureRun.Workspace
