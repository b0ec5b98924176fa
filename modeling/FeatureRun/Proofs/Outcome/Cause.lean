import FeatureRun.Outcome.Basic
import FeatureRun.Proofs.Report.Fields

/-!
# What a scenario is blamed for

A scenario that did not pass has one failure, that of the first thing that went wrong: a hook before
it, its steps, or a hook after it. What counts as wrong differs. A hook without a status is fine and
a skipped one is not; a step without a status is not fine and a skipped one is, as long as another
one ran.

* `Passes`, `Blames`: when a scenario passes, and what it is blamed for.
* `Judges`: the outcome of a scenario by these rules; `judges_iff` says that it is the computed one.
* `JudgesAll`: the outcomes of JSON elements, of which backgrounds have none.
* `judges_report`: any array is a report, and its scenarios are judged one by one.
-/
set_option autoImplicit false

namespace FeatureRun.Outcome

open Report

/-! ## The rules -/

/-- The first member of a list that has a property. -/
def First {α : Type} (p : α → Prop) (xs : List α) (x : α) : Prop :=
  ∃ front back, xs = front ++ x :: back ∧ (∀ y ∈ front, ¬p y) ∧ p x

/-- A hook fails if it has a status other than that of having passed. -/
def Fails (h : Hook) : Prop := ∃ status, h.status = some status ∧ status ≠ "passed"

def IsSkipped (s : Step) : Prop := s.status = some "skipped"

def IsDone (s : Step) : Prop := s.status = some "passed" ∨ IsSkipped s

/-- Steps that are all done, one of them by running. -/
structure StepsPass (steps : List Step) : Prop where
  done : ∀ s ∈ steps, IsDone s
  run : ∃ s ∈ steps, ¬IsSkipped s

/-- A scenario passes. -/
structure Passes (e : Element) : Prop where
  before : ∀ h ∈ e.before, ¬Fails h
  steps : StepsPass e.steps
  after : ∀ h ∈ e.after, ¬Fails h

/-- The failure of a hook. -/
structure OfHook (label : String) (line : Int) (h : Hook) (f : Failure) : Prop where
  label : f.label = label
  line : f.line = line
  message : ∃ status location error, h.status = some status ∧
    Given "" h.location "Unknown location" location ∧
    Given "" h.error ("Hook failed with status: " ++ status) error ∧
    f.message = "Hook Location: " ++ location ++ "\n\n" ++ error

/-- What is said about a step that does not say itself what is wrong. -/
inductive Remark (s : Step) : String → Prop where
  | status {word : String} (h : s.status = some word) (hne : word ≠ "") : Remark s ("Step " ++ word)
  | nothing (h : s.status = none ∨ s.status = some "") : Remark s "Step has no result"

/-- The failure of a step of a scenario on a line. -/
structure OfStep (line : Int) (s : Step) (f : Failure) : Prop where
  label : ∃ name, Given "" (some s.name) "Unknown step" name ∧
    f.label = Text.trimmed (Text.trimmed s.keyword ++ " " ++ name)
  line : Given 0 s.line line f.line
  message : ∃ remark, Remark s remark ∧ Given "" s.error remark f.message

/-- What the steps of a scenario on a line are blamed for. -/
inductive BlamesSteps (line : Int) (steps : List Step) : Failure → Prop where
  | empty (h : steps = []) :
    BlamesSteps line steps ⟨"Empty Scenario", "Scenario has no steps", line⟩
  | step {s : Step} {f : Failure} (hfirst : First (fun s => ¬IsDone s) steps s)
    (hf : OfStep line s f) : BlamesSteps line steps f
  | skipped (hsome : steps ≠ []) (h : ∀ s ∈ steps, IsSkipped s) :
    BlamesSteps line steps ⟨"Scenario Setup Error",
      "All steps were skipped. Check for errors in @Before hooks or step definitions.", line⟩

/-- What a scenario is blamed for, in order of precedence. -/
inductive Blames (e : Element) (f : Failure) : Prop where
  | before {h : Hook} (hfirst : First Fails e.before h)
    (hf : OfHook "Before Hook Failed" (e.line.getD 0) h f)
  | steps (hbefore : ∀ h ∈ e.before, ¬Fails h) (hf : BlamesSteps (e.line.getD 0) e.steps f)
  | after {h : Hook} (hbefore : ∀ h ∈ e.before, ¬Fails h) (hsteps : StepsPass e.steps)
    (hfirst : First Fails e.after h) (hf : OfHook "After Hook Failed" (e.line.getD 0) h f)

/-- The outcome of a scenario. -/
structure Judges (e : Element) (o : Outcome) : Prop where
  name : Given "" (some e.name) "Unnamed scenario" o.name
  line : o.line = e.line
  passed : o.passed = true ↔ Passes e
  failed : o.failure.isSome = true ↔ o.passed = false
  failure : ∀ f, o.failure = some f ↔ Blames e f

/-- The outcomes of the elements of an entry, in order: a background has none. -/
inductive JudgesAll : List Json → List Outcome → Prop where
  | nil : JudgesAll [] []
  | background {v : Json} {vs : List Json} {os : List Outcome}
    (h : Has v "type" (.str "background")) (hs : JudgesAll vs os) : JudgesAll (v :: vs) os
  | scenario {v : Json} {vs : List Json} {e : Element} {o : Outcome} {os : List Outcome}
    (h : ¬Has v "type" (.str "background")) (he : SaysElement v e) (ho : Judges e o)
    (hs : JudgesAll vs os) : JudgesAll (v :: vs) (o :: os)

/-! ## The parts of a failure -/

section Parts

variable {α : Type} {p : α → Prop} {test : α → Bool} {xs : List α} {x : α} {h : Hook} {s : Step}
  {f : Failure} {label : String} {line : Int}

theorem find?_eq_some_iff_first (htest : ∀ x, test x = true ↔ p x) :
    xs.find? test = some x ↔ First p xs x := by
  rw [List.find?_eq_some_iff_append, htest, First]
  simp only [Bool.not_eq_true', ← Bool.not_eq_true, htest]
  constructor
  · rintro ⟨hx, front, back, hxs, hfront⟩
    exact ⟨front, back, hxs, hfront, hx⟩
  · rintro ⟨front, back, hxs, hfront, hx⟩
    exact ⟨hx, front, back, hxs, hfront⟩

theorem find?_eq_none_iff (htest : ∀ x, test x = true ↔ p x) :
    xs.find? test = none ↔ ∀ x ∈ xs, ¬p x := by
  simp only [List.find?_eq_none, htest]

theorem First.prop (h : First p xs x) : x ∈ xs ∧ p x := by
  obtain ⟨front, back, rfl, -, hx⟩ := h
  exact ⟨List.mem_append_right front List.mem_cons_self, hx⟩

theorem hookFailed_iff (h : Hook) : hookFailed h = true ↔ Fails h := by
  cases hstatus : h.status <;> simp [hookFailed, Fails, hstatus]

theorem stepDone_iff (s : Step) : stepDone s = true ↔ IsDone s := by
  simp [stepDone, IsDone, IsSkipped]

/-- A hook that fails has one failure. -/
theorem ofHook_iff (hfails : Fails h) : OfHook label line h f ↔ hookFailure label line h = f := by
  obtain ⟨status, hstatus, -⟩ := hfails
  constructor
  · rintro ⟨rfl, rfl, status', location, error, hstatus', hlocation, herror, hmessage⟩
    cases hstatus.symm.trans hstatus'
    rw [← getD_filter_eq_iff] at hlocation herror
    simp only [hookFailure, orElse, hlocation, hstatus, Option.getD_some, herror, ← hmessage]
  · rintro rfl
    refine ⟨rfl, rfl, status, _, _, hstatus, getD_filter_eq_iff.1 rfl, getD_filter_eq_iff.1 rfl, ?_⟩
    simp only [hookFailure, orElse, hstatus, Option.getD_some]

/-- There is one remark on every step. -/
theorem remark_iff {remark : String} : Remark s remark ↔
    (match s.status.filter (· ≠ "") with
      | some word => "Step " ++ word
      | none => "Step has no result") = remark := by
  constructor
  · rintro (⟨hword, hne⟩ | hnothing)
    · simp [hword, Option.filter_some, hne]
    · rcases hnothing with hstatus | hstatus <;> rw [hstatus] <;> rfl
  · rintro rfl
    split
    · rename_i word hword
      obtain ⟨hstatus, hne⟩ := Option.filter_eq_some_iff.1 hword
      exact .status hstatus (of_decide_eq_true hne)
    · rename_i hnone
      refine .nothing ?_
      cases hstatus : s.status with
      | none => exact .inl rfl
      | some word => simpa [hstatus] using hnone

/-- A step has one failure. -/
theorem ofStep_iff : OfStep line s f ↔ stepFailure line s = f := by
  constructor
  · rintro ⟨⟨name, hname, hlabel⟩, hline, remark, hremark, hmessage⟩
    obtain ⟨label, message, line'⟩ := f
    rw [given_some_iff] at hname
    rw [remark_iff] at hremark
    rw [← getD_filter_eq_iff] at hline hmessage
    dsimp only at hlabel hline hmessage
    subst hname hremark hlabel hline hmessage
    rfl
  · rintro rfl
    exact ⟨⟨_, given_some_iff.2 rfl, rfl⟩, getD_filter_eq_iff.1 rfl, _, remark_iff.2 rfl,
      getD_filter_eq_iff.1 rfl⟩

end Parts

/-! ## The failure of a scenario -/

variable {e : Element} {o : Outcome} {f : Failure} {line : Int} {label : String}

/-- A list of hooks gives the failure of the first one that fails, -/
theorem map_find?_hookFailed_eq_some_iff {hooks : List Hook} :
    (hooks.find? hookFailed).map (hookFailure label line) = some f ↔
      ∃ h, First Fails hooks h ∧ OfHook label line h f := by
  simp only [Option.map_eq_some_iff, find?_eq_some_iff_first hookFailed_iff]
  refine exists_congr fun h => and_congr_right fun hfirst => ?_
  rw [ofHook_iff hfirst.prop.2]

/-- and no failure if none of them does. -/
theorem map_find?_hookFailed_eq_none_iff {hooks : List Hook} :
    (hooks.find? hookFailed).map (hookFailure label line) = none ↔ ∀ h ∈ hooks, ¬Fails h := by
  rw [Option.map_eq_none_iff, find?_eq_none_iff hookFailed_iff]

section Steps

variable {steps : List Step}

theorem find?_not_stepDone_eq_some_iff {s : Step} : (steps.find? fun s => !stepDone s) = some s ↔
    First (fun s => ¬IsDone s) steps s :=
  find?_eq_some_iff_first fun s => by rw [Bool.not_eq_true', ← Bool.not_eq_true, stepDone_iff]

theorem find?_not_stepDone_eq_none_iff :
    (steps.find? fun s => !stepDone s) = none ↔ ∀ s ∈ steps, IsDone s := by
  rw [List.find?_eq_none]
  simp only [Bool.not_eq_true', Bool.not_eq_false, stepDone_iff]

theorem all_skipped_iff :
    (steps.all fun s => s.status = some "skipped") = true ↔ ∀ s ∈ steps, IsSkipped s := by
  simp [IsSkipped]

theorem stepsFailure_eq_none_iff : stepsFailure line steps = none ↔ StepsPass steps := by
  rw [stepsFailure]
  constructor
  · intro h
    split at h
    · nomatch h
    split at h
    · nomatch h
    · rename_i hdone
      split at h
      · nomatch h
      · rename_i hrun
        rw [all_skipped_iff, not_forall₂] at hrun
        obtain ⟨s, hs, hskipped⟩ := hrun
        exact ⟨find?_not_stepDone_eq_none_iff.1 hdone, s, hs, hskipped⟩
  · rintro ⟨hdone, s, hs, hskipped⟩
    have hrun : ¬(steps.all fun s => s.status = some "skipped") = true := fun hall =>
      hskipped (all_skipped_iff.1 hall s hs)
    have hsome : ¬steps.isEmpty = true := by
      rw [List.isEmpty_iff]
      exact List.ne_nil_of_mem hs
    rw [if_neg hsome, find?_not_stepDone_eq_none_iff.2 hdone]
    exact if_neg hrun

theorem stepsFailure_eq_some_iff : stepsFailure line steps = some f ↔ BlamesSteps line steps f := by
  rw [stepsFailure]
  constructor
  · intro h
    split at h
    · rename_i hempty
      cases h
      exact .empty (List.isEmpty_iff.1 hempty)
    rename_i hsome
    rw [List.isEmpty_iff] at hsome
    split at h
    · rename_i s hs
      exact .step (find?_not_stepDone_eq_some_iff.1 hs) (ofStep_iff.2 (Option.some.inj h))
    split at h
    · rename_i hall
      cases h
      exact .skipped hsome (all_skipped_iff.1 hall)
    · nomatch h
  · intro h
    cases h with
    | empty hempty => rw [if_pos (List.isEmpty_iff.2 hempty), emptyScenario]
    | step hfirst hf =>
      have hsome : ¬steps.isEmpty = true := by
        rw [List.isEmpty_iff]
        exact List.ne_nil_of_mem hfirst.prop.1
      rw [if_neg hsome, find?_not_stepDone_eq_some_iff.2 hfirst]
      exact congrArg some (ofStep_iff.1 hf)
    | skipped hsome hall =>
      have hdone : ∀ s ∈ steps, IsDone s := fun s hs => .inr (hall s hs)
      rw [if_neg (mt List.isEmpty_iff.1 hsome), find?_not_stepDone_eq_none_iff.2 hdone]
      exact if_pos (all_skipped_iff.2 hall)

end Steps

/-- A failure is the one that the scenario is blamed for. -/
theorem failureOf_eq_some_iff : failureOf e = some f ↔ Blames e f := by
  simp only [failureOf, Option.orElse_eq_orElse, Option.orElse_eq_or, Option.or_eq_some_iff,
    map_find?_hookFailed_eq_some_iff, map_find?_hookFailed_eq_none_iff, stepsFailure_eq_some_iff,
    stepsFailure_eq_none_iff]
  constructor
  · rintro (⟨h, hfirst, hf⟩ | ⟨hbefore, hf | ⟨hsteps, h, hfirst, hf⟩⟩)
    · exact .before hfirst hf
    · exact .steps hbefore hf
    · exact .after hbefore hsteps hfirst hf
  · rintro (⟨hfirst, hf⟩ | ⟨hbefore, hf⟩ | ⟨hbefore, hsteps, hfirst, hf⟩)
    · exact .inl ⟨_, hfirst, hf⟩
    · exact .inr ⟨hbefore, .inl hf⟩
    · exact .inr ⟨hbefore, .inr ⟨hsteps, _, hfirst, hf⟩⟩

theorem failureOf_eq_none_iff : failureOf e = none ↔ Passes e := by
  simp only [failureOf, Option.orElse_eq_orElse, Option.orElse_eq_or, Option.or_eq_none_iff,
    map_find?_hookFailed_eq_none_iff, stepsFailure_eq_none_iff]
  constructor
  · rintro ⟨hbefore, hsteps, hafter⟩
    exact ⟨hbefore, hsteps, hafter⟩
  · rintro ⟨hbefore, hsteps, hafter⟩
    exact ⟨hbefore, hsteps, hafter⟩

/-! ## Outcomes -/

theorem judges_ofElement (e : Element) : Judges e (ofElement e) where
  name := getD_filter_eq_iff.1 rfl
  line := rfl
  passed := by rw [← failureOf_eq_none_iff]; exact Option.isNone_iff_eq_none
  failed := by
    show (failureOf e).isSome = true ↔ (failureOf e).isNone = false
    cases failureOf e <;> simp
  failure _ := failureOf_eq_some_iff

/-- The rules leave no choice. -/
theorem Judges.unique {o' : Outcome} (h : Judges e o) (h' : Judges e o') : o = o' := by
  have hname : o.name = o'.name :=
    (given_some_iff.1 h.name).symm.trans (given_some_iff.1 h'.name)
  have hpassed : o.passed = o'.passed := Bool.eq_iff_iff.2 (h.passed.trans h'.passed.symm)
  have hfailure : o.failure = o'.failure :=
    Option.ext fun f => (h.failure f).trans (h'.failure f).symm
  have hline : o.line = o'.line := h.line.trans h'.line.symm
  obtain ⟨name, line, passed, failure⟩ := o
  obtain ⟨name', line', passed', failure'⟩ := o'
  dsimp only at hname hline hpassed hfailure
  rw [hname, hline, hpassed, hfailure]

/-- The outcome of a scenario is the one that the rules give. -/
theorem judges_iff : Judges e o ↔ o = ofElement e := by
  constructor
  · intro h
    exact h.unique (judges_ofElement e)
  · rintro rfl
    exact judges_ofElement e

/-- The scenarios among JSON elements are judged in order. -/
theorem judgesAll_elements (vs : List Json) :
    JudgesAll vs (((vs.map Element.ofJson).filter fun e => !e.isBackground).map ofElement) := by
  induction vs with
  | nil => exact .nil
  | cons v vs ih =>
    rw [List.map_cons]
    cases hkind : (Element.ofJson v).isBackground with
    | true =>
      rw [List.filter_cons_of_neg (by simp [hkind])]
      exact .background (isBackground_ofJson_iff.1 hkind) ih
    | false =>
      rw [List.filter_cons_of_pos (by simp [hkind])]
      have htype : ¬Has v "type" (.str "background") := by
        rw [← isBackground_ofJson_iff, hkind]
        decide
      exact .scenario htype (saysElement_iff.2 rfl) (judges_ofElement _) ih

/-- Scenarios are judged by the rules, whatever hooks and steps they have. Any array is a report, and
each element in it that is not a background has one such outcome, by what its fields say and in the
same order. -/
theorem judges_report :
    (∀ e o, Judges e o ↔ o = ofElement e) ∧
    ∀ vs : List Json, ∃ entries, Report.ofJson (.arr vs) = .ok entries ∧
      List.Forall₂ (fun v entry => ∃ elements, ItemsIn v "elements" elements ∧
        JudgesAll elements (ofEntry entry)) vs entries := by
  refine ⟨fun e o => judges_iff, fun vs => ⟨_, rfl, ?_⟩⟩
  rw [List.forall₂_map_right_iff, List.forall₂_same]
  exact fun v _ => ⟨_, itemsIn_iff.2 rfl, judgesAll_elements _⟩

/-- An entry with a background, a scenario that ran and one without steps. -/
def threeElements : Json :=
  let passed : Json := .obj [("status", .str "passed")]
  .obj [("elements", .arr [.obj [("type", .str "background"), ("line", .int 2)],
    .obj [("name", .str "B"), ("line", .int 4),
      ("steps", .arr [.obj [("line", .int 5), ("result", passed)]])],
    .obj [("type", .str ""), ("line", .bool true)]])]

/-- The background has no outcome. -/
theorem judges_report_of_background :
    ∃ entries, Report.ofJson (.arr [threeElements]) = .ok entries ∧
      List.Forall₂ (fun v entry => ∃ elements, ItemsIn v "elements" elements ∧
        JudgesAll elements (ofEntry entry)) [threeElements] entries ∧
      entries.map ofEntry = [[⟨"B", some 4, true, none⟩, ⟨"Unnamed scenario", none, false,
        some ⟨"Empty Scenario", "Scenario has no steps", 0⟩⟩]] := by
  obtain ⟨entries, hread, hjudged⟩ := judges_report.2 [threeElements]
  cases hread
  exact ⟨_, rfl, hjudged, by decide⟩

end FeatureRun.Outcome
