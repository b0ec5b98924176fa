import FeatureRun.Proofs.Catalog.Update
import FeatureRun.Proofs.Json.Encoded
import FeatureRun.Proofs.Outcome.Encoded
import FeatureRun.Proofs.Run.Reconcile

/-!
# What can be stored

The texts of a result are ids, which consist of the id of a file, marks and numbers, the word of its
status and what its failures say. So if neither the report nor the ids of the selected nodes have a
half of a surrogate pair, all that applying the report says can be stored.

* `isWhole_id`, `isWhole_file_of_read`: ids and the files in them.
* `all_isWhole_of_startFault?`: the ids of a run that could be entered.
* `encodable_writes`: what is said about a node.
* `storable_of_allWhole`: what is said about the roots of a selection.
* `applyReportWith_encoded_eq`: runs and imports, which check the texts, apply a report without
  halves as it is applied without a check.
-/
set_option autoImplicit false

namespace FeatureRun

open Report (Entry AllWhole)

/-! ## Ids -/

namespace NodeRef

variable {x : NodeRef} {s : String}

/-- The marks and numbers of an id have no halves. -/
theorem isWhole_id (x : NodeRef) : Text.isWhole x.id = Text.isWhole x.file := by
  have hmarks : Text.isWhole ruleMark = true ∧ Text.isWhole scenarioMark = true ∧
      Text.isWhole exampleMark = true := by decide
  cases x <;>
    simp only [id, file, Text.isWhole_append, hmarks, Text.isWhole_toString, Bool.and_true]

/-- The id of a file is the start of the ids that are read as nodes of it. -/
theorem isWhole_file_of_read (h : read s = .ok x) (hs : Text.isWhole s = true) :
    Text.isWhole x.file = true := by
  have hstart : ∀ {file mark rest : String}, s = file ++ mark ++ rest →
      Text.isWhole file = true := by
    rintro file mark rest rfl
    simp only [Text.isWhole_append, Bool.and_eq_true] at hs
    exact hs.1.1
  rcases read_cases h with ⟨file, rest, line, heq, -, rfl⟩ | ⟨-, ⟨file, rest, heq, hx⟩ | ⟨-, rfl⟩⟩
  · exact hstart heq
  · rcases readScenario_cases hx with ⟨_, rfl⟩ | ⟨_, _, rfl⟩
    · exact hstart heq
    · exact hstart heq
  · exact hs

end NodeRef

/-! ## The texts of the store -/

namespace Store

theorem isWhole_targetsText (ids : List String) :
    Text.isWhole (targetsText ids) = ids.all Text.isWhole := by
  rw [targetsText, Json.isWhole_line, Json.texts, Json.all_textsOfItems, List.all_map]
  congr 1
  funext id
  simp [Json.texts]

theorem isWhole_failuresText (fs : List Failure) :
    Text.isWhole (failuresText fs) = fs.all Failure.isWhole := by
  rw [failuresText, Json.isWhole_line, Json.texts, Json.all_textsOfItems, List.all_map]
  congr 1
  funext f
  have hnames : Text.isWhole "label" = true ∧ Text.isWhole "message" = true ∧
      Text.isWhole "line" = true := by decide
  simp [Failure.toJson, Json.texts, Json.textsOfFields, hnames, Failure.isWhole]

end Store

namespace RollUp

variable {f : Feature} {file : String} {os : List Outcome} {x : NodeRef} {r : Result}

theorem isWhole_statusOf (os : List Outcome) : Text.isWhole (statusOf os).word = true := by
  rw [statusOf]
  split
  · decide
  · split <;> decide

theorem isWhole_groupStatus (rs : List Result) : Text.isWhole (groupStatus rs).word = true := by
  simp only [groupStatus]
  split
  · decide
  · split
    · decide
    · split <;> decide

theorem Rolled.isWhole_status (h : Rolled file f os x r) : Text.isWhole r.status.word = true := by
  cases h with
  | row => exact isWhole_statusOf _
  | scenario => exact isWhole_statusOf _
  | rule => exact isWhole_groupStatus _
  | feature => exact isWhole_groupStatus _

end RollUp

namespace Run

open Feature Catalog

variable {report : List Entry} {root : Path} {file n : String} {f : Feature} {x : NodeRef}
  {r : Result} {below above ids : List String} {c : Catalog} {s : Store}

/-- A run can only be entered under ids without halves. -/
theorem all_isWhole_of_startFault? (h : startFault? ids s = none) :
    ∀ id ∈ ids, Text.isWhole id = true := by
  rw [startFault?] at h
  split at h
  · cases h
  · rename_i htext
    rw [Text.encodeFault?_eq_none_iff_isWhole, Store.isWhole_targetsText] at htext
    exact List.all_eq_true.1 htext

/-- No text of a result has a half. -/
structure WholeResult (r : Result) : Prop where
  id : Text.isWhole r.id = true
  status : Text.isWhole r.status.word = true
  failures : ∀ g ∈ r.failures, g.isWhole = true

/-- Results without halves can be stored. -/
theorem WholeResult.encodable (h : WholeResult r) : Encodable [r] := by
  have htexts : ∀ t ∈ Store.textsOf r, Text.isWhole t = true := by
    rw [Store.textsOf]
    split
    · exact List.forall_mem_nil _
    · split
      · exact List.forall_mem_nil _
      · rename_i ref hread
        have hfailures : Text.isWhole (Store.failuresText r.failures) = true := by
          rw [Store.isWhole_failuresText]
          exact List.all_eq_true.2 h.failures
        simpa using ⟨h.id, NodeRef.isWhole_file_of_read hread h.id, h.status, hfailures⟩
  rw [encodable_iff]
  intro r' hr'
  obtain rfl := List.mem_singleton.1 hr'
  exact List.findSome?_eq_none_iff.2 fun t ht =>
    Text.encodeFault?_eq_none_iff_isWhole.2 (htexts t ht)

/-! ## What a report says -/

section Whole

variable (hreport : AllWhole report)

include hreport

theorem isWhole_outcomesFor {o : Outcome} (ho : o ∈ outcomesFor report file) :
    o.isWhole = true := by
  rw [outcomesFor] at ho
  cases hentry : Report.entryFor? report file with
  | none => simp [hentry] at ho
  | some e =>
    simp only [hentry, Option.map_some, Option.getD_some] at ho
    exact Outcome.isWhole_ofEntry (hreport e (List.mem_of_find?_eq_some hentry)) ho

theorem whole_featureResult (hfile : Text.isWhole file = true) :
    WholeResult (featureResult report file f) where
  id := by rwa [featureResult_eq]
  status := by
    have hwords : Text.isWhole Status.failed.word = true ∧
        Text.isWhole Status.passed.word = true := by decide
    rw [featureResult_eq]
    split
    · exact hwords.1
    · exact hwords.2
  failures g hg := by
    simp only [featureResult] at hg
    split at hg
    · simp only at hg
      split at hg
      · obtain rfl := List.mem_singleton.1 hg
        exact Failure.isWhole_mk (by decide) (by decide) f.line
      · obtain ⟨o, ho, hmessage⟩ := List.mem_filterMap.1 hg
        exact Outcome.isWhole_message (isWhole_outcomesFor hreport ho) hmessage
    · cases hg

theorem whole_of_verdict (hf : f.Ordered) (hfile : Text.isWhole file = true)
    (h : (verdicts report file f).get? n = some r) : WholeResult r := by
  obtain ⟨x, -, hrolled⟩ := RollUp.exists_rolled_of_get? hf h
  have hid : Text.isWhole r.id = true := by
    rw [hrolled.id_eq, NodeRef.isWhole_id, hrolled.refers.file_eq]
    exact hfile
  exact ⟨hid, hrolled.isWhole_status, fun g hg =>
    hrolled.isWhole_failures hf (fun o => isWhole_outcomesFor hreport) hg⟩

theorem whole_of_stated (hf : f.Ordered) (hx : f.Refers file x) (hfile : Text.isWhole file = true)
    (h : stated report f x = some r) : WholeResult r := by
  have hverdict : (verdicts report file f).get? x.id = some r → WholeResult r :=
    whole_of_verdict hreport hf hfile
  cases hx with
  | feature =>
    obtain rfl := Option.some.inj h
    exact whole_featureResult hreport hfile
  | rule => exact hverdict h
  | scenario => exact hverdict h
  | row => exact hverdict h

/-- Whatever a report says about a node can be stored. -/
theorem encodable_writes (hf : f.Ordered) (hfile : Text.isWhole x.file = true) :
    Encodable (appliedBy root report x f below above).writes := by
  refine encodable_iff.2 fun r hr => encodable_iff.1 ?_ r (List.mem_singleton_self r)
  rcases mem_writes_cases hr with rfl | ⟨n, hn⟩
  · exact (whole_featureResult hreport hfile).encodable
  · exact (whole_of_verdict hreport hf hfile hn).encodable

/-- Whatever a report says about the roots of a selection can be stored. -/
theorem storable_of_allWhole (hids : ∀ id ∈ ids, Text.isWhole id = true) :
    Storable c report ids := by
  have hfile : ∀ {file f x}, c.IsRoot ids file f x → Text.isWhole file = true := by
    intro file f x hroot
    have hid := hids _ hroot.mem
    rwa [NodeRef.isWhole_id, hroot.refers.file_eq] at hid
  rintro r (⟨file, f, x, hroot, y, hy, -, hstated⟩ | ⟨file, f, x, hroot, y, -, -, hget, -⟩)
  · have hyref := hroot.refers.below hroot.holds.ordered hy
    exact (whole_of_stated hreport hroot.holds.ordered hyref (hfile hroot) hstated).encodable
  · exact (whole_of_verdict hreport hroot.holds.ordered (hfile hroot) hget).encodable

end Whole

/-! ## Applying a report -/

section Apply

variable {run : Option Int} {cancelAfter : Option Nat} {roots : List String} {w : Workspace}

theorem applyAllWith_encoded_eq {results : Results} {counts : Summary}
    (h : ∀ id ∈ ids, ∀ a, applyTo w.catalog w.root report id = .ok (some a) → Encodable a.writes) :
    applyAllWith (recordEncoded run) report results counts ids w =
      applyAllWith (record run) report results counts ids w := by
  induction ids generalizing results counts w with
  | nil => rfl
  | cons id ids ih =>
    obtain ⟨hid, hids⟩ := List.forall_mem_cons.1 h
    rw [applyAllWith, applyAllWith, Action.bind_ok Action.get_apply,
      Action.bind_ok Action.get_apply]
    cases happly : applyTo w.catalog w.root report id with
    | error e =>
      rw [Action.bind_error (Action.ofExcept_error _ _),
        Action.bind_error (Action.ofExcept_error _ _)]
    | ok applied =>
      rw [Action.bind_ok (Action.ofExcept_ok _ _), Action.bind_ok (Action.ofExcept_ok _ _)]
      cases applied with
      | none => exact ih hids
      | some a =>
        simp only
        rw [Action.bind_ok (Action.note_apply _), Action.bind_ok (Action.note_apply _)]
        have hsame : recordEncoded run a.writes { w with journal := w.journal.add a.notes } =
            record run a.writes { w with journal := w.journal.add a.notes } :=
          recordEncoded_of_encodable (hid a happly)
        rcases hrecord : record run a.writes { w with journal := w.journal.add a.notes } with
          ⟨e | ⟨⟩, w₁⟩
        · rw [Action.bind_error (hsame.trans hrecord), Action.bind_error hrecord]
        · rw [Action.bind_ok (hsame.trans hrecord), Action.bind_ok hrecord]
          -- what is kept changes neither the catalog nor the root
          have hkeep := (keeps_record run a.writes).apply hrecord
          have hcatalog : w₁.catalog = w.catalog := congrArg (fun w => w.catalog) hkeep
          have hroot : w₁.root = w.root := congrArg (fun w => w.root) hkeep
          exact ih (by rwa [hcatalog, hroot])

/-- A report without halves is applied by runs and imports just as it is without a check of its
texts. -/
theorem applyReportWith_encoded_eq {selected : Option (List String)} (hc : w.catalog.FromTexts)
    (hselect : w.catalog.select selected = .ok roots) (hids : ∀ id ∈ roots, Text.isWhole id = true)
    (hreport : AllWhole report) :
    applyReportWith (recordEncoded run) report selected cancelAfter w =
      applyReport report selected cancelAfter run w := by
  have hwrites : ∀ id ∈ roots.take (cancelAfter.getD roots.length), ∀ a,
      applyTo w.catalog w.root report id = .ok (some a) → Encodable a.writes := by
    intro id hid a happly
    obtain ⟨x, f, below, above, hread, hget, -, -, rfl⟩ := applyTo_eq_some_iff.1 happly
    obtain ⟨text, htext⟩ := hc _ f hget
    exact encodable_writes hreport (ordered_read htext)
      (NodeRef.isWhole_file_of_read hread (hids id (List.mem_of_mem_take hid)))
  rw [applyReport, applyReportWith_eq hselect, applyReportWith_eq hselect]
  rcases hall : applyAllWith (record run) report .empty .empty
    (roots.take (cancelAfter.getD roots.length)) w with ⟨e | found, w₁⟩
  · rw [Action.bind_error hall, Action.bind_error ((applyAllWith_encoded_eq hwrites).trans hall)]
  · rw [Action.bind_ok hall, Action.bind_ok ((applyAllWith_encoded_eq hwrites).trans hall)]

end Apply

end Run
end FeatureRun
