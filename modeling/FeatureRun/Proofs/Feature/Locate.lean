import FeatureRun.Feature.Locate
import FeatureRun.Proofs.Feature.Grammar

/-!
# The lines of a feature, looked up in its text

A scenario and an example row are found again by searching the text for their own lines, although
that search and the one-pass reader look at the text in different ways.
-/
set_option autoImplicit false

namespace FeatureRun.Feature

section Lines

variable {text : String} {i : Nat} {l : Line}

theorem position?_of_getElem? {lines : List Line} (h : lines[i]? = some l) :
    position? lines ((i : Int) + 1) = some i := by
  obtain ⟨hlt, -⟩ := List.getElem?_eq_some_iff.1 h
  have hrange : (1 : Int) ≤ (i : Int) + 1 ∧ (i : Int) + 1 ≤ lines.length := by omega
  rw [position?, if_pos hrange]
  simp

/-- The search for a header upwards starts with the line itself. -/
theorem scenarioAt?_of_getElem? (h : (linesOf text)[i]? = some l) : scenarioAt? text ((i : Int) + 1) =
    headerAbove? (i + 1) (l :: ((linesOf text).take i).reverse) := by
  simp only [scenarioAt?, position?_of_getElem? h, Option.bind_some]
  rw [List.take_add_one, h, Option.toList_some, List.reverse_append]
  rfl

theorem scenarioAt?_of_header {name : String} {outline : Bool}
    (h : (linesOf text)[i]? = some (if outline then .outline name else .scenario name)) :
    scenarioAt? text ((i : Int) + 1) = some ⟨name, (i : Int) + 1, outline, []⟩ := by
  rw [scenarioAt?_of_getElem? h]
  cases outline <;> rfl

theorem exampleAt?_of_header {name : String} {outline : Bool}
    (h : (linesOf text)[i]? = some (if outline then .outline name else .scenario name)) :
    exampleAt? text ((i : Int) + 1) = none := by
  simp only [exampleAt?, position?_of_getElem? h, Option.bind_some, h]
  cases outline <;> rfl

/-- An example row is found together with its outline. -/
theorem exampleAt?_of_isExample {s : Nat} (h : (marksOf (linesOf text)).IsExample s i) :
    exampleAt? text ((i : Int) + 1) = some ((s : Int) + 1, (i : Int) + 1) := by
  obtain ⟨l, hl, hrow⟩ := h.1
  cases l with
  | row t =>
    simp only [exampleAt?, position?_of_getElem? hl, Option.bind_some, hl, owner?_of_isExample h]
    rfl
  | _ => nomatch hrow

/-- The outline of a row that is found stands above the row. -/
theorem le_of_exampleAt? {n o r : Int} (h : exampleAt? text n = some (o, r)) :
    r = n ∧ 0 ≤ o ∧ o ≤ n := by
  obtain ⟨i, hi, hat⟩ := Option.bind_eq_some_iff.1 h
  rw [position?] at hi
  split at hi
  · rename_i hrange
    obtain rfl := Option.some.inj hi
    split at hat
    · rename_i t hl
      obtain ⟨m, howner, he⟩ := Option.map_eq_some_iff.1 hat
      obtain ⟨rfl, rfl⟩ := Prod.mk.inj he
      obtain ⟨o, ho, hm⟩ := Option.bind_eq_some_iff.1 howner
      obtain rfl : (o : Int) = m := Option.some.inj hm
      obtain ⟨e, g, s, rfl, hnear, -, -, hs⟩ := (owner?_eq_some_iff ⟨_, hl, rfl⟩).1 ho
      have hse := hs.1
      have her := hnear.1
      exact ⟨rfl, by omega, by omega⟩
    · nomatch hat
  · nomatch hi

end Lines

section Read

variable {text path : String} {f : Feature} {s : Scenario} (h : read text path = some f)

include h

/-- The line of a scenario is that of its header. -/
theorem exists_header_line (hs : s ∈ f.scenarios) : ∃ i : Nat, s.line = (i : Int) + 1 ∧
    (linesOf text)[i]? = some (if s.outline then .outline s.name else .scenario s.name) := by
  obtain ⟨i, hi⟩ := (mem_nodes_read h).1 (mem_nodes_scenario hs)
  obtain ⟨hl, hline⟩ := nodeAt_eq_scenario_iff.1 hi
  exact ⟨i, hline, hl⟩

theorem scenarioAt?_scenario (hs : s ∈ f.scenarios) :
    scenarioAt? text s.line = some ⟨s.name, s.line, s.outline, []⟩ := by
  obtain ⟨i, hi, hl⟩ := exists_header_line h hs
  rw [hi]
  exact scenarioAt?_of_header hl

theorem exampleAt?_scenario (hs : s ∈ f.scenarios) : exampleAt? text s.line = none := by
  obtain ⟨i, hi, hl⟩ := exists_header_line h hs
  rw [hi]
  exact exampleAt?_of_header hl

theorem exampleAt?_row {row : Row} (hs : s ∈ f.scenarios) (hrow : row ∈ s.rows) :
    exampleAt? text row.line = some (s.line, row.line) := by
  obtain ⟨i, hi, -⟩ := exists_header_line h hs
  obtain ⟨r, hr, -, -⟩ := exists_row_line h hs hrow
  rw [hi, hr]
  exact exampleAt?_of_isExample (isExample_of_mem h hs hrow hi hr)

/-- Every node stands on a line of the text. -/
theorem one_le_line {x : Node} (hx : x ∈ f.nodes) : 1 ≤ x.line := by
  obtain ⟨i, hi⟩ := (mem_nodes_read h).1 hx
  rw [line_of_nodeAt hi]
  omega

end Read

end FeatureRun.Feature
