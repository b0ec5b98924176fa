import FeatureRun.Proofs.Json.RoundTrip
import FeatureRun.Proofs.OrderedMap
import FeatureRun.Store.Basic

/-!
# What the store keeps

Recording results writes one row for each result that is not `unmatched` and touches nothing else;
a result is read from its row as it was recorded.

* `rowsOf`: the rows that recording writes.
* `record_eq`: recording inserts them, one after another.
* `get?_of_row`: the way back from a row to its result.
-/
set_option autoImplicit false

namespace FeatureRun

theorem Failure.ofJson?_toJson (f : Failure) : Failure.ofJson? f.toJson = some f := by
  cases f
  rfl

namespace Store

open Json

theorem plain_failures (fs : List Failure) : (Json.arr (fs.map Failure.toJson)).Plain := by
  refine .arr fun v hv => ?_
  obtain ⟨f, -, rfl⟩ := List.mem_map.1 hv
  refine .obj fun field hfield => ?_
  simp only [List.mem_cons, List.not_mem_nil, or_false] at hfield
  rcases hfield with rfl | rfl | rfl
  · exact .str _
  · exact .str _
  · exact .int _

theorem failuresOf_failuresText (fs : List Failure) : failuresOf (failuresText fs) = fs := by
  have hread : Failure.ofJson? ∘ Failure.toJson = some := funext Failure.ofJson?_toJson
  rw [failuresOf, failuresText, itemsOf, document_line (plain_failures fs)]
  simp only [Json.items, List.filterMap_map, hread, List.filterMap_some]

/-- The row that a result of a file is kept in. -/
def rowOf (run : Option Int) (now file : String) (r : Result) : Row :=
  ⟨file, r.status, failuresText r.failures, run, now⟩

theorem result_rowOf (run : Option Int) (now file : String) (r : Result) :
    (rowOf run now file r).result r.id = r := by
  simp [rowOf, Row.result, failuresOf_failuresText]

/-- The rows for the results that are kept. -/
def rowsOf (run : Option Int) (now : String) : List Result → List (String × Row)
  | [] => []
  | r :: rs =>
    match NodeRef.read r.id with
    | .ok ref =>
      if r.status = .unmatched then rowsOf run now rs
      else (r.id, rowOf run now ref.file r) :: rowsOf run now rs
    | .error _ => rowsOf run now rs

variable {s : Store} {run : Option Int} {now id : String} {rs : List Result}

theorem mem_rowsOf {row : Row} : (id, row) ∈ rowsOf run now rs ↔
    ∃ r ∈ rs, r.status ≠ .unmatched ∧ ∃ ref, NodeRef.read r.id = .ok ref ∧
      id = r.id ∧ row = rowOf run now ref.file r := by
  induction rs with
  | nil => simp [rowsOf]
  | cons r rs ih =>
    rw [rowsOf]
    simp only [List.mem_cons, exists_eq_or_imp]
    split
    · rename_i ref href
      simp only [href, Except.ok.injEq, exists_eq_left']
      split
      · rename_i hstatus
        simp [hstatus, ih]
      · rename_i hstatus
        simp [hstatus, ih]
    · rename_i e he
      simp [he, ih]

theorem rowsOf_append (rs ts : List Result) :
    rowsOf run now (rs ++ ts) = rowsOf run now rs ++ rowsOf run now ts := by
  induction rs with
  | nil => rfl
  | cons r rs ih =>
    rw [List.cons_append, rowsOf, rowsOf, ih]
    split
    · split <;> rfl
    · rfl

/-- There is a row for each result that is not `unmatched`. -/
theorem length_rowsOf (run : Option Int) (now : String)
    (hids : ∀ r ∈ rs, ∃ ref, NodeRef.read r.id = .ok ref) :
    (rowsOf run now rs).length = (rs.filter fun r => r.status ≠ .unmatched).length := by
  induction rs with
  | nil => rfl
  | cons r rs ih =>
    have ih := ih fun t ht => hids t (List.mem_cons_of_mem r ht)
    obtain ⟨ref, href⟩ := hids r List.mem_cons_self
    rw [rowsOf, href]
    by_cases h : r.status = .unmatched <;> simp [h, ih]

theorem recordFrom_eq (hrun : run.all fits = true)
    (hids : ∀ r ∈ rs, ∃ ref, NodeRef.read r.id = .ok ref) (count : Nat) (s : Store) :
    recordFrom run now count s rs =
      (.ok (count + (rowsOf run now rs).length),
        { s with rows := s.rows.insertAll (rowsOf run now rs) }) := by
  induction rs generalizing count s with
  | nil => rfl
  | cons r rs ih =>
    have ih := ih fun t ht => hids t (List.mem_cons_of_mem _ ht)
    obtain ⟨ref, href⟩ := hids r List.mem_cons_self
    rw [recordFrom, rowsOf, href]
    simp only
    split
    · exact ih count s
    · rw [keep, href]
      simp only [if_pos hrun, ih]
      rw [List.length_cons, Nat.add_right_comm, Nat.add_assoc]
      rfl

/-- Recording inserts the rows of the results that are kept. -/
theorem record_eq (hrun : run.all fits = true)
    (hids : ∀ r ∈ rs, ∃ ref, NodeRef.read r.id = .ok ref) :
    s.record run now rs =
      (.ok (rowsOf run now rs).length,
        { s with rows := s.rows.insertAll (rowsOf run now rs) }) := by
  rw [record, recordFrom_eq hrun hids, Nat.zero_add]

/-- A result is read from its row. -/
theorem get?_of_row {r : Result} {file : String}
    (h : s.rows.get? r.id = some (rowOf run now file r)) : s.get? r.id = some r := by
  rw [get?, h, Option.map_some, result_rowOf]

/-- A result is found once its row has been inserted. -/
theorem get?_insert_rowOf (s : Store) (run : Option Int) (now file : String) (r : Result)
    (n : String) : ({ s with rows := s.rows.insert r.id (rowOf run now file r) } : Store).get? n =
      if n = r.id then some r else s.get? n := by
  rw [get?, OrderedMap.get?_insert]
  split
  · rename_i h
    rw [h, Option.map_some, result_rowOf]
  · rfl

end Store
end FeatureRun
