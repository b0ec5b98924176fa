import FeatureRun.Proofs.Outcome.Failures
import FeatureRun.Proofs.Text.Encoded

/-!
# Failures without halves

What a failure says is put together from words of its own, numbers, and texts of the report. So no
failure has a half of a surrogate pair if no text of the report has.

* `Report.Entry.texts`: the texts of an entry.
* `isWhole_failureOf`: what is wrong with a scenario.
* `isWhole_failures`: the failures of a node.
-/
set_option autoImplicit false

namespace FeatureRun

open Text

namespace Report

def Hook.texts (h : Hook) : List String :=
  h.status.toList ++ h.error.toList ++ h.location.toList

def Step.texts (s : Step) : List String :=
  s.name :: s.keyword :: (s.status.toList ++ s.error.toList)

def Element.texts (e : Element) : List String :=
  e.kind :: e.name ::
    (e.before.flatMap Hook.texts ++ e.after.flatMap Hook.texts ++ e.steps.flatMap Step.texts)

/-- All texts that a report has about a file. -/
def Entry.texts (e : Entry) : List String := e.uri :: e.elements.flatMap Element.texts

/-- No text in a report has a half. -/
def AllWhole (report : List Entry) : Prop := ∀ e ∈ report, ∀ s ∈ e.texts, isWhole s = true

instance (report : List Entry) : Decidable (AllWhole report) :=
  inferInstanceAs (Decidable (∀ e ∈ report, ∀ s ∈ e.texts, isWhole s = true))

end Report

/-- Neither the label nor the message of a failure has a half. -/
def Failure.isWhole (f : Failure) : Bool := Text.isWhole f.label && Text.isWhole f.message

theorem Failure.isWhole_mk {label message : String} (hlabel : Text.isWhole label = true)
    (hmessage : Text.isWhole message = true) (line : Int) :
    Failure.isWhole ⟨label, message, line⟩ = true := by
  rw [Failure.isWhole, hlabel, hmessage]
  rfl

namespace Outcome

open Report

variable {h : Hook} {s : Step} {e : Element} {line : Int} {f : Failure} {o : Outcome}
  {os : List Outcome}

/-- The failure of an outcome and its name have no half. -/
def isWhole (o : Outcome) : Bool := Text.isWhole o.name && o.failure.all Failure.isWhole

theorem isWhole_orElse {text : Option String} {other : String}
    (htext : ∀ t ∈ text, Text.isWhole t = true) (hother : Text.isWhole other = true) :
    Text.isWhole (orElse text other) = true := by
  rw [orElse]
  cases hfilter : text.filter (· ≠ "") with
  | none => exact hother
  | some t => exact htext t (Option.filter_eq_some_iff.1 hfilter).1

/-! ## What is wrong with a scenario -/

theorem isWhole_hookFailure {label : String} (hlabel : Text.isWhole label = true)
    (hh : ∀ t ∈ h.texts, Text.isWhole t = true) : (hookFailure label line h).isWhole = true := by
  simp only [Hook.texts, List.forall_mem_append, Option.mem_toList] at hh
  obtain ⟨⟨hstatus, herror⟩, hlocation⟩ := hh
  have hword : Text.isWhole (h.status.getD "None") = true := by
    cases hs : h.status with
    | none => decide
    | some w => exact hstatus w hs
  have hother : Text.isWhole ("Hook failed with status: " ++ h.status.getD "None") = true := by
    rw [Text.isWhole_append, hword]
    decide
  have hmarks : Text.isWhole "Hook Location: " = true ∧ Text.isWhole "\n\n" = true := by decide
  have hplace : Text.isWhole (orElse h.location "Unknown location") = true :=
    isWhole_orElse hlocation (by decide)
  simp [hookFailure, Failure.isWhole, hlabel, hmarks, hplace, isWhole_orElse herror hother]

theorem isWhole_stepFailure (hs : ∀ t ∈ s.texts, Text.isWhole t = true) :
    (stepFailure line s).isWhole = true := by
  simp only [Step.texts, List.forall_mem_cons, List.forall_mem_append, Option.mem_toList] at hs
  obtain ⟨hname, hkeyword, hstatus, herror⟩ := hs
  have hshown : Text.isWhole (if s.name = "" then "Unknown step" else s.name) = true := by
    split
    · decide
    · exact hname
  have hlabel : Text.isWhole (Text.trimmed s.keyword ++ " " ++
      if s.name = "" then "Unknown step" else s.name) = true := by
    have hblank : Text.isWhole " " = true := by decide
    rw [Text.isWhole_append, Text.isWhole_append, isWhole_trimmed hkeyword, hblank, hshown]
    rfl
  rw [stepFailure, Failure.isWhole, Bool.and_eq_true]
  refine ⟨isWhole_trimmed hlabel, isWhole_orElse herror ?_⟩
  split
  · rename_i word hfilter
    rw [Text.isWhole_append, hstatus word (Option.filter_eq_some_iff.1 hfilter).1]
    decide
  · decide

theorem isWhole_setupError (line : Int) : (setupError line).isWhole = true :=
  Failure.isWhole_mk (by decide) (by decide +kernel) line

theorem isWhole_emptyScenario (line : Int) : (emptyScenario line).isWhole = true :=
  Failure.isWhole_mk (by decide) (by decide) line

theorem isWhole_stepsFailure {steps : List Step}
    (hs : ∀ t ∈ steps.flatMap Step.texts, Text.isWhole t = true)
    (h : stepsFailure line steps = some f) : f.isWhole = true := by
  rw [stepsFailure] at h
  split at h
  · obtain rfl := Option.some.inj h
    exact isWhole_emptyScenario line
  · split at h
    · rename_i step hfind
      obtain rfl := Option.some.inj h
      exact isWhole_stepFailure fun t ht =>
        hs t (List.mem_flatMap.2 ⟨step, List.mem_of_find?_eq_some hfind, ht⟩)
    · split at h
      · obtain rfl := Option.some.inj h
        exact isWhole_setupError line
      · cases h

/-- A failing hook among others. -/
theorem isWhole_hookOf {hooks : List Hook} {label : String} (hlabel : Text.isWhole label = true)
    (hhooks : ∀ t ∈ hooks.flatMap Hook.texts, Text.isWhole t = true)
    (h : (hooks.find? hookFailed).map (hookFailure label line) = some f) : f.isWhole = true := by
  obtain ⟨hook, hfind, rfl⟩ := Option.map_eq_some_iff.1 h
  exact isWhole_hookFailure hlabel fun t ht =>
    hhooks t (List.mem_flatMap.2 ⟨hook, List.mem_of_find?_eq_some hfind, ht⟩)

theorem isWhole_failureOf (he : ∀ t ∈ e.texts, Text.isWhole t = true) (h : failureOf e = some f) :
    f.isWhole = true := by
  simp only [Element.texts, List.forall_mem_cons, List.forall_mem_append] at he
  obtain ⟨-, -, ⟨hbefore, hafter⟩, hsteps⟩ := he
  simp only [failureOf, Option.orElse_eq_orElse, Option.orElse_eq_or, Option.or_eq_some_iff] at h
  rcases h with h | ⟨-, h | ⟨-, h⟩⟩
  · exact isWhole_hookOf (by decide) hbefore h
  · exact isWhole_stepsFailure hsteps h
  · exact isWhole_hookOf (by decide) hafter h

theorem isWhole_ofElement (he : ∀ t ∈ e.texts, Text.isWhole t = true) :
    (ofElement e).isWhole = true := by
  have hname : ∀ t ∈ some e.name, Text.isWhole t = true := fun t ht =>
    Option.some.inj ht ▸ he e.name (by simp [Element.texts])
  have hfailure : (ofElement e).failure.all Failure.isWhole = true :=
    (Option.all_eq_true _ _).2 fun f hf => isWhole_failureOf he hf
  rw [isWhole, hfailure, Bool.and_true]
  exact isWhole_orElse hname (by decide)

theorem isWhole_ofEntry {entry : Entry} (h : ∀ t ∈ entry.texts, Text.isWhole t = true)
    (ho : o ∈ ofEntry entry) : o.isWhole = true := by
  obtain ⟨e, he, rfl⟩ := List.mem_map.1 ho
  exact isWhole_ofElement fun t ht => h t (List.mem_cons_of_mem _
    (List.mem_flatMap.2 ⟨e, (List.mem_filter.1 he).1, ht⟩))

/-! ## What the failures of nodes say -/

theorem isWhole_message (ho : o.isWhole = true) (h : message? o = some f) : f.isWhole = true := by
  rw [message?] at h
  split at h
  · cases h
  · obtain ⟨g, hg, rfl⟩ := Option.map_eq_some_iff.1 h
    rw [isWhole, Bool.and_eq_true, Option.all_eq_true] at ho
    obtain ⟨hname, hfailure⟩ := ho
    have hg := hfailure g hg
    rw [Failure.isWhole, Bool.and_eq_true] at hg ⊢
    have hline : Text.isWhole (lineText o.line) = true := by
      cases o.line with
      | none => decide
      | some n => exact isWhole_toString n
    have hmarks : Text.isWhole "Scenario: " = true ∧ Text.isWhole " (line " = true ∧
        Text.isWhole ")\n\n" = true ∧ Text.isWhole "\n\n" = true := by decide
    exact ⟨hg.1, by simp [hmarks, hname, hline, hg.1, hg.2]⟩

end Outcome

namespace RollUp

variable {f : Feature} {file : String} {os : List Outcome} {x : NodeRef} {r : Result}
  {g : Failure} {line : Int}

theorem isWhole_of_mem_failuresOn (hos : ∀ o ∈ os, o.isWhole = true) (h : g ∈ failuresOn os line) :
    g.isWhole = true := by
  obtain ⟨o, ho, rfl⟩ := List.mem_map.1 h
  have hmem : o ∈ os := (List.mem_filter.1 (List.mem_filter.1 ho).1).1
  have hwhole := hos o hmem
  rw [Outcome.isWhole, Bool.and_eq_true, Option.all_eq_true] at hwhole
  cases hfailure : o.failure with
  | none => exact Failure.isWhole_mk (by decide) (by decide) line
  | some f => exact hwhole.2 f hfailure

/-- If no outcome has a half, no failure of a node has one. -/
theorem Rolled.isWhole_failures (hf : f.Ordered) (h : Rolled file f os x r)
    (hos : ∀ o ∈ os, o.isWhole = true) (hg : g ∈ r.failures) : g.isWhole = true := by
  rw [h.failures_eq hf] at hg
  obtain ⟨line, -, hg⟩ := List.mem_flatMap.1 hg
  exact isWhole_of_mem_failuresOn hos hg

end RollUp
end FeatureRun
