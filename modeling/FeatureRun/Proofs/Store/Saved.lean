import FeatureRun.Proofs.Store
import FeatureRun.Store.Saved

/-!
# The saved form of a store

A store that is written as text is read back as it was. The statuses in it are written as words, so
they come back only if none of them spells out a status that has a name of its own.

* `Canonical`: no status is a second spelling of another one.
* `ofText?_toText`: reading gives back what was written.
-/
set_option autoImplicit false

namespace FeatureRun

/-- A status that is read back from its word. -/
def Status.Canonical (s : Status) : Prop := ofWord s.word = s

instance : DecidablePred Status.Canonical := fun s => inferInstanceAs (Decidable (_ = s))

/-- A status of a run that is read back from its word. -/
def RunStatus.Canonical (s : RunStatus) : Prop := ofWord s.word = s

instance : DecidablePred RunStatus.Canonical := fun s => inferInstanceAs (Decidable (_ = s))

namespace Store

open Json

/-- Every status in the store is read back from its word. -/
structure Canonical (s : Store) : Prop where
  rows : ∀ n row, s.rows.get? n = some row → row.status.Canonical
  runs : ∀ r ∈ s.runs, r.status.Canonical

theorem plain_optional {α : Type} {encode : α → Json} (h : ∀ a, (encode a).Plain) (a : Option α) :
    (optional encode a).Plain := by
  cases a with
  | none => exact .null
  | some a => exact h a

theorem plain_rowJson (e : String × Row) : (rowJson e).Plain := by
  refine .obj fun field hfield => ?_
  simp only [List.mem_cons, List.not_mem_nil, or_false] at hfield
  rcases hfield with rfl | rfl | rfl | rfl | rfl | rfl <;>
    first | exact .str _ | exact plain_optional .int _

theorem plain_runJson (r : Run) : (runJson r).Plain := by
  refine .obj fun field hfield => ?_
  simp only [List.mem_cons, List.not_mem_nil, or_false] at hfield
  rcases hfield with rfl | rfl | rfl | rfl | rfl | rfl | rfl | rfl | rfl <;>
    first | exact .str _ | exact .int _ | exact plain_optional .str _

theorem rowOf?_rowJson {e : String × Row} (h : e.2.status.Canonical) :
    rowOf? (rowJson e) = some e := by
  obtain ⟨n, file, status, failures, run, updated⟩ := e
  have hread : rowOf? (rowJson (n, ⟨file, status, failures, run, updated⟩)) =
      some (n, ⟨file, .ofWord status.word, failures, run, updated⟩) := by
    cases run <;> rfl
  rw [hread, h]

theorem runOf?_runJson {r : Run} (h : r.status.Canonical) : runOf? (runJson r) = some r := by
  obtain ⟨id, targets, status, counts, started, finished⟩ := r
  have hread : runOf? (runJson ⟨id, targets, status, counts, started, finished⟩) =
      some ⟨id, targets, .ofWord status.word, counts, started, finished⟩ := by
    cases finished <;> rfl
  rw [hread, h]

theorem mapM_map_of_inverse {α β : Type} {encode : α → β} {decode : β → Option α} {as : List α}
    (h : ∀ a ∈ as, decode (encode a) = some a) : (as.map encode).mapM decode = some as := by
  induction as with
  | nil => rfl
  | cons a as ih =>
    have htail := ih fun b hb => h b (List.mem_cons_of_mem a hb)
    rw [List.map_cons, List.mapM_cons, h a List.mem_cons_self, htail]
    rfl

/-- A store is read back from its text. -/
theorem ofText?_toText {s : Store} (h : s.Canonical) : ofText? s.toText = some s := by
  have hplain : (Json.obj [("rows", .arr (s.rows.entries.map rowJson)),
      ("runs", .arr (s.runs.map runJson)), ("lastRun", .int s.lastRun)]).Plain := by
    refine .obj fun field hfield => ?_
    simp only [List.mem_cons, List.not_mem_nil, or_false] at hfield
    rcases hfield with rfl | rfl | rfl
    · exact .arr (List.forall_mem_map.2 fun e _ => plain_rowJson e)
    · exact .arr (List.forall_mem_map.2 fun r _ => plain_runJson r)
    · exact .int _
  have hrows : (s.rows.entries.map rowJson).mapM rowOf? = some s.rows.entries :=
    mapM_map_of_inverse fun e he =>
      rowOf?_rowJson (h.rows e.1 e.2 (OrderedMap.mem_entries_iff.1 he))
  have hruns : (s.runs.map runJson).mapM runOf? = some s.runs :=
    mapM_map_of_inverse fun r hr => runOf?_runJson (h.runs r hr)
  rw [ofText?, toText, document_line hplain]
  simp [Except.toOption, itemsAt, intAt?, Json.field?, Json.items, Json.int?, hrows, hruns,
    OrderedMap.ofList_entries]

end Store
end FeatureRun
