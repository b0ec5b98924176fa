import FeatureRun.Report.Reading
import Mathlib.Data.List.Forall2

/-!
# What the fields of a report say

Every field of a report is optional, and one of an unexpected kind counts as absent. What a JSON
value says about a hook, a step or an element is told here from its fields alone, with the texts
that stand for absent ones.

* `Has`, `TextIn`, `LineIn`, `ItemsIn`, `TextWithin`: what a field holds.
* `SaysHook`, `SaysStep`, `SaysElement`: what a value says.
* `saysElement_iff`: an element is read as what its value says.
-/
set_option autoImplicit false

namespace FeatureRun.Report

/-! ## Fields -/

/-- An object has a field; of several fields of one name the last one counts. -/
def Has (v : Json) (name : String) (a : Json) : Prop :=
  ∃ front back, v = .obj (front ++ (name, a) :: back) ∧ ∀ f ∈ back, f.1 ≠ name

/-- The text in a field, if there is one. -/
def TextIn (v : Json) (name : String) : Option String → Prop
  | some s => Has v name (.str s)
  | none => ∀ s, ¬Has v name (.str s)

/-- The whole number in a field, if there is one. -/
def LineIn (v : Json) (name : String) : Option Int → Prop
  | some n => Has v name (.int n)
  | none => ∀ n, ¬Has v name (.int n)

/-- The items of the array in a field; without an array there are none. -/
def ItemsIn (v : Json) (name : String) (items : List Json) : Prop :=
  Has v name (.arr items) ∨ ((∀ vs, ¬Has v name (.arr vs)) ∧ items = [])

/-- The text in a field of the object in a field, if there is one. -/
def TextWithin (v : Json) (outer name : String) : Option String → Prop
  | some s => ∃ r, Has v outer r ∧ Has r name (.str s)
  | none => ∀ r s, Has v outer r → ¬Has r name (.str s)

/-- What is given, or something else if nothing is given or something blank. -/
def Given {α : Type} (blank : α) (given : Option α) (other a : α) : Prop :=
  (given = some a ∧ a ≠ blank) ∨ ((given = none ∨ given = some blank) ∧ a = other)

/-- The text in a field, or another one if there is none or an empty one. -/
def TextOr (v : Json) (name other s : String) : Prop :=
  ∃ given, TextIn v name given ∧ Given "" given other s

/-! ## Hooks, steps and elements -/

/-- Only the result of a hook gives it a status. -/
inductive HookStatus (v : Json) : Option String → Prop where
  | noResult (h : ∀ fs, ¬Has v "result" (.obj fs)) : HookStatus v none
  | result {fs : List (String × Json)} {word : String} (h : Has v "result" (.obj fs))
    (hword : TextOr (.obj fs) "status" "unknown" word) : HookStatus v (some word)

/-- What a value says about a hook. -/
structure SaysHook (v : Json) (h : Hook) : Prop where
  status : HookStatus v h.status
  error : TextWithin v "result" "error_message" h.error
  location : TextWithin v "match" "location" h.location

/-- What a value says about a step. -/
structure SaysStep (v : Json) (s : Step) : Prop where
  name : TextOr v "name" "" s.name
  keyword : TextOr v "keyword" "" s.keyword
  line : LineIn v "line" s.line
  status : TextWithin v "result" "status" s.status
  error : TextWithin v "result" "error_message" s.error

/-- What a value says about an element. -/
structure SaysElement (v : Json) (e : Element) : Prop where
  kind : TextOr v "type" "scenario" e.kind
  name : TextOr v "name" "" e.name
  line : LineIn v "line" e.line
  before : ∃ hooks, ItemsIn v "before" hooks ∧ List.Forall₂ SaysHook hooks e.before
  after : ∃ hooks, ItemsIn v "after" hooks ∧ List.Forall₂ SaysHook hooks e.after
  steps : ∃ steps, ItemsIn v "steps" steps ∧ List.Forall₂ SaysStep steps e.steps

/-! ## Reading fields -/

section Fields

variable {v a : Json} {name outer other s : String}

/-- A field is looked up from the end. -/
theorem has_iff : Has v name a ↔ v.field? name = some a := by
  cases v with
  | obj fields =>
    simp only [Has, Json.obj.injEq, Json.field?, Option.map_eq_some_iff,
      List.find?_eq_some_iff_append, beq_iff_eq]
    constructor
    · rintro ⟨front, back, rfl, hback⟩
      exact ⟨(name, a), ⟨rfl, back.reverse, front.reverse, by simp, by simpa using hback⟩, rfl⟩
    · rintro ⟨⟨_, _⟩, ⟨rfl, back, front, hfields, hback⟩, rfl⟩
      exact ⟨front.reverse, back.reverse, by simpa using congrArg List.reverse hfields,
        by simpa using hback⟩
  | _ => exact ⟨fun ⟨_, _, h, _⟩ => (nomatch h), fun h => (nomatch h)⟩

theorem textIn_iff {given : Option String} :
    TextIn v name given ↔ stringField name v = given := by
  cases given with
  | some s =>
    rw [TextIn, has_iff, stringField]
    rcases v.field? name with _ | (_ | _ | _ | _ | _ | _ | _) <;> simp [Json.string?]
  | none =>
    simp only [TextIn, has_iff, stringField]
    rcases v.field? name with _ | (_ | _ | _ | _ | _ | _ | _) <;> simp [Json.string?]

theorem lineIn_iff {line : Option Int} : LineIn v name line ↔ intField name v = line := by
  cases line with
  | some n =>
    rw [LineIn, has_iff, intField]
    rcases v.field? name with _ | (_ | _ | _ | _ | _ | _ | _) <;> simp [Json.int?]
  | none =>
    simp only [LineIn, has_iff, intField]
    rcases v.field? name with _ | (_ | _ | _ | _ | _ | _ | _) <;> simp [Json.int?]

theorem itemsIn_iff {items : List Json} : ItemsIn v name items ↔ itemsField name v = items := by
  simp only [ItemsIn, has_iff, itemsField]
  rcases v.field? name with _ | (_ | _ | _ | _ | _ | _ | _) <;> simp [Json.items, eq_comm]

theorem has_objectField_iff :
    Has (objectField outer v) name a ↔ ∃ r, Has v outer r ∧ Has r name a := by
  simp only [has_iff, objectField]
  rcases v.field? outer with _ | (_ | _ | _ | _ | _ | _ | _) <;> simp [Json.field?]

theorem textWithin_iff {given : Option String} :
    TextWithin v outer name given ↔ stringField name (objectField outer v) = given := by
  rw [← textIn_iff]
  cases given with
  | some s => exact has_objectField_iff.symm
  | none =>
    simp only [TextWithin, TextIn, has_objectField_iff, not_exists, not_and]
    exact ⟨fun h s r => h r s, fun h r s => h s r⟩

end Fields

section Given

variable {α : Type} [DecidableEq α] {blank other a b : α}

/-- Keeping what is given unless it is blank. -/
theorem getD_filter_eq_iff {given : Option α} :
    (given.filter (· ≠ blank)).getD other = a ↔ Given blank given other a := by
  cases given with
  | none => simp [Given, eq_comm]
  | some b =>
    simp only [Given]
    by_cases hb : b = blank <;> grind

theorem given_some_iff : Given blank (some a) other b ↔ (if a = blank then other else a) = b := by
  rw [← getD_filter_eq_iff]
  by_cases ha : a = blank <;> simp [Option.filter_some, ha]

end Given

section Says

variable {v : Json} {name other s : String}

theorem textOr_iff : TextOr v name other s ↔ (nonempty (stringField name v)).getD other = s := by
  simp only [TextOr, textIn_iff, exists_eq_left', nonempty, getD_filter_eq_iff]

/-- A name that is missing is empty. -/
theorem textOr_empty_iff : TextOr v name "" s ↔ (stringField name v).getD "" = s := by
  rw [textOr_iff, nonempty]
  rcases stringField name v with _ | word
  · rfl
  · by_cases hword : word = "" <;> simp [Option.filter_some, hword]

theorem hookStatus_iff {status : Option String} :
    HookStatus v status ↔ (Hook.ofJson v).status = status := by
  rw [Hook.ofJson]
  constructor
  · rintro (hnone | ⟨hresult, hword⟩)
    · simp only [has_iff] at hnone
      dsimp only
      split
      · rename_i fs hfs
        exact absurd hfs (hnone fs)
      · rfl
    · rw [has_iff] at hresult
      rw [textOr_iff] at hword
      simp only [hresult, hword]
  · rintro rfl
    dsimp only
    split
    · rename_i fs hfs
      exact .result (has_iff.2 hfs) (textOr_iff.2 rfl)
    · rename_i hnone
      exact .noResult fun fs hfs => hnone fs (has_iff.1 hfs)

/-- Items are read one by one. -/
theorem exists_itemsIn_iff {α : Type} {R : Json → α → Prop} {f : Json → α}
    (h : ∀ v a, R v a ↔ f v = a) {as : List α} :
    (∃ items, ItemsIn v name items ∧ List.Forall₂ R items as) ↔ (itemsField name v).map f = as := by
  have hR : R = fun v a => f v = a := funext₂ fun v a => propext (h v a)
  simp only [itemsIn_iff, exists_eq_left', hR]
  rw [← List.forall₂_map_left_iff (R := fun b a => b = a), List.forall₂_eq_eq_eq]

/-- A hook is read as what its value says, -/
theorem saysHook_iff {h : Hook} : SaysHook v h ↔ Hook.ofJson v = h := by
  constructor
  · rintro ⟨hstatus, herror, hlocation⟩
    obtain ⟨status, error, location⟩ := h
    cases hookStatus_iff.1 hstatus
    cases textWithin_iff.1 herror
    cases textWithin_iff.1 hlocation
    rfl
  · rintro rfl
    exact ⟨hookStatus_iff.2 rfl, textWithin_iff.2 rfl, textWithin_iff.2 rfl⟩

/-- so is a step, -/
theorem saysStep_iff {s : Step} : SaysStep v s ↔ Step.ofJson v = s := by
  constructor
  · rintro ⟨hname, hkeyword, hline, hstatus, herror⟩
    obtain ⟨name, keyword, line, status, error⟩ := s
    cases textOr_empty_iff.1 hname
    cases textOr_empty_iff.1 hkeyword
    cases lineIn_iff.1 hline
    cases textWithin_iff.1 hstatus
    cases textWithin_iff.1 herror
    rfl
  · rintro rfl
    exact ⟨textOr_empty_iff.2 rfl, textOr_empty_iff.2 rfl, lineIn_iff.2 rfl, textWithin_iff.2 rfl,
      textWithin_iff.2 rfl⟩

theorem saysHooks_iff {hooks : List Hook} :
    (∃ items, ItemsIn v name items ∧ List.Forall₂ SaysHook items hooks) ↔
      (itemsField name v).map Hook.ofJson = hooks :=
  exists_itemsIn_iff (R := SaysHook) fun _ _ => saysHook_iff

theorem saysSteps_iff {steps : List Step} :
    (∃ items, ItemsIn v name items ∧ List.Forall₂ SaysStep items steps) ↔
      (itemsField name v).map Step.ofJson = steps :=
  exists_itemsIn_iff (R := SaysStep) fun _ _ => saysStep_iff

/-- and so is an element. -/
theorem saysElement_iff {e : Element} : SaysElement v e ↔ Element.ofJson v = e := by
  constructor
  · rintro ⟨hkind, hname, hline, hbefore, hafter, hsteps⟩
    obtain ⟨kind, name, line, before, after, steps⟩ := e
    cases textOr_iff.1 hkind
    cases textOr_empty_iff.1 hname
    cases lineIn_iff.1 hline
    cases saysHooks_iff.1 hbefore
    cases saysHooks_iff.1 hafter
    cases saysSteps_iff.1 hsteps
    rfl
  · rintro rfl
    exact ⟨textOr_iff.2 rfl, textOr_empty_iff.2 rfl, lineIn_iff.2 rfl,
      saysHooks_iff.2 rfl, saysHooks_iff.2 rfl,
      saysSteps_iff.2 rfl⟩

/-- An element is a background exactly if its type says so. -/
theorem isBackground_ofJson_iff :
    (Element.ofJson v).isBackground = true ↔ Has v "type" (.str "background") := by
  have hkind : (nonempty (stringField "type" v)).getD "scenario" = "background" ↔
      stringField "type" v = some "background" := by
    rw [nonempty, getD_filter_eq_iff, Given]
    simp
  rw [Element.isBackground, decide_eq_true_eq, Element.ofJson, hkind]
  exact textIn_iff.symm

end Says

end FeatureRun.Report
