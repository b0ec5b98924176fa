import FeatureRun.Feature.Locate
import FeatureRun.Feature.Reading
import FeatureRun.Proofs.Text.Lines
import Mathlib.Data.List.Forall2

/-!
# Indentation and line endings

A line is classified by what is left of it when it is trimmed. So texts whose lines differ only in
the blanks at their ends are read alike, and every look-up of a line gives the same in both.

* `SameWithin`, `Reindented`: lines, and texts, that differ only in such blanks.
* `ReadAlike`: all that reading a text and looking up its lines give is the same.
* `readAlike_of_reindented`: reindented texts are read alike, and so is a text with carriage returns
  before its line feeds.
-/
set_option autoImplicit false

namespace FeatureRun.Feature

/-- Blanks stand around the same text in two lines. -/
def SameWithin (a b : String) : Prop :=
  ∃ core before after before' after' : List Char,
    a.toList = before ++ core ++ after ∧ b.toList = before' ++ core ++ after' ∧
      ∀ blanks ∈ [before, after, before', after'], blanks.all Text.isBlank = true

/-- The lines of two texts differ at most in the blanks at their ends. -/
def Reindented (s t : String) : Prop := List.Forall₂ SameWithin (Text.lines s) (Text.lines t)

/-- A carriage return before every line feed. -/
def withReturns (s : String) : String :=
  String.ofList (s.toList.flatMap fun c => if c = '\n' then ['\r', '\n'] else [c])

/-- Two texts hold the same feature, and the same stands on each of their lines. -/
structure ReadAlike (s t : String) : Prop where
  feature : ∀ path, read s path = read t path
  owner : ∀ index, ownerAt (linesOf s) index = ownerAt (linesOf t) index
  scenario : ∀ line, scenarioAt? s line = scenarioAt? t line
  row : ∀ line, exampleAt? s line = exampleAt? t line

variable {s t : String}

/-- Blanks at its ends do not matter for the class of a line. -/
theorem SameWithin.ofText_eq {a b : String} (h : SameWithin a b) :
    Line.ofText a = Line.ofText b := by
  obtain ⟨core, before, after, before', after', ha, hb, hblank⟩ := h
  simp only [List.forall_mem_cons] at hblank
  obtain ⟨hbefore, hafter, hbefore', hafter', -⟩ := hblank
  have htrim : Text.trim a.toList = Text.trim b.toList := by
    rw [ha, hb, Text.trim_append hbefore hafter, Text.trim_append hbefore' hafter']
  rw [Line.ofText, htrim, Line.ofText]

theorem Reindented.linesOf_eq (h : Reindented s t) : linesOf s = linesOf t := by
  have hclass : List.Forall₂ (fun a b => Line.ofText a = Line.ofText b) (Text.lines s)
      (Text.lines t) := h.imp fun _ _ => SameWithin.ofText_eq
  rw [linesOf, linesOf, ← List.forall₂_eq_eq_eq, List.forall₂_map_left_iff,
    List.forall₂_map_right_iff]
  exact hclass

theorem Reindented.readAlike (h : Reindented s t) : ReadAlike s t where
  feature path := by rw [read, read, h.linesOf_eq]
  owner index := by rw [h.linesOf_eq]
  scenario line := by simp only [scenarioAt?, h.linesOf_eq]
  row line := by simp only [exampleAt?, h.linesOf_eq]

/-- With carriage returns every line but the last one has one more character. -/
theorem pieces_withReturns (cs : List Char) :
    List.Forall₂ (fun p q => q = p ∨ q = p ++ ['\r']) (Text.pieces '\n' cs)
      (Text.pieces '\n' (cs.flatMap fun c => if c = '\n' then ['\r', '\n'] else [c])) := by
  induction cs with
  | nil => exact .cons (.inl rfl) .nil
  | cons c cs ih =>
    rw [List.flatMap_cons]
    obtain ⟨p, ps, hp⟩ := List.exists_cons_of_ne_nil (Text.pieces_ne_nil '\n' cs)
    by_cases hc : c = '\n'
    · subst hc
      have hreturn : ∀ rest, Text.pieces '\n' ('\r' :: '\n' :: rest) =
          ['\r'] :: Text.pieces '\n' rest := Text.pieces_append_sep ['\r']
      exact hreturn _ ▸ .cons (.inr rfl) ih
    · rw [hp] at ih
      obtain ⟨q, qs, hpq, hrest, hq⟩ := List.forall₂_cons_left_iff.1 ih
      rw [if_neg hc, List.singleton_append, Text.pieces_cons_of_ne hc hp,
        Text.pieces_cons_of_ne hc hq]
      refine .cons ?_ hrest
      rcases hpq with rfl | rfl
      · exact .inl rfl
      · exact .inr rfl

theorem reindented_withReturns (s : String) : Reindented s (withReturns s) := by
  rw [Reindented, Text.lines, Text.lines, Text.split, Text.split, withReturns, String.toList_ofList,
    List.forall₂_map_left_iff, List.forall₂_map_right_iff]
  refine (pieces_withReturns s.toList).imp fun p q hpq => ?_
  rcases hpq with rfl | rfl
  · exact ⟨q, [], [], [], [], by simp, by simp, by simp⟩
  · exact ⟨p, [], [], [], ['\r'], by simp, by simp, by decide⟩

/-- Texts that differ only in the blanks at the ends of their lines hold the same feature, and the
same stands on each of their lines; carriage returns before the line feeds are such blanks. -/
theorem readAlike_of_reindented :
    (∀ s t, Reindented s t → ReadAlike s t) ∧ ∀ s, ReadAlike s (withReturns s) :=
  ⟨fun _ _ h => h.readAlike, fun s => (reindented_withReturns s).readAlike⟩

/-- An outline whose lines are indented anew, some of them with other line endings. -/
theorem readAlike_of_indented_outline : ∃ s t f, s ≠ t ∧ Reindented s t ∧ ReadAlike s t ∧
    read s "" = some f ∧ read t "" = some f ∧ f.children.length = 1 := by
  let s := "Feature: A\nScenario Outline: B\nExamples:\n| x |\n| 1 |"
  let t := "\tFeature: A\r\n  Scenario Outline: B \r\n\u00A0Examples:\n  | x |\n  | 1 |\t"
  let outline : Scenario := ⟨"B", 2, true, [⟨5, "| 1 |"⟩]⟩
  let f : Feature := ⟨"A", 1, "", [.scenario outline]⟩
  have hs : Text.lines s = ["Feature: A", "Scenario Outline: B", "Examples:", "| x |", "| 1 |"] := by
    decide
  have ht : Text.lines t = ["\tFeature: A\r", "  Scenario Outline: B \r", "\u00A0Examples:",
      "  | x |", "  | 1 |\t"] := by decide
  have hsame : Reindented s t := by
    rw [Reindented, hs, ht]
    refine .cons ⟨"Feature: A".toList, [], [], ['\t'], ['\r'], rfl, rfl, by decide⟩ ?_
    refine .cons ⟨"Scenario Outline: B".toList, [], [], [' ', ' '], [' ', '\r'], rfl, rfl,
      by decide⟩ ?_
    refine .cons ⟨"Examples:".toList, [], [], ['\u00A0'], [], rfl, rfl, by decide⟩ ?_
    refine .cons ⟨"| x |".toList, [], [], [' ', ' '], [], rfl, rfl, by decide⟩ ?_
    exact .cons ⟨"| 1 |".toList, [], [], [' ', ' '], ['\t'], rfl, rfl, by decide⟩ .nil
  have hread : read s "" = some f := by decide
  have halike := readAlike_of_reindented.1 s t hsame
  exact ⟨s, t, f, by decide, hsame, halike, hread, halike.feature "" ▸ hread, rfl⟩

end FeatureRun.Feature
